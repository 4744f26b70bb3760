import Switchboard.Proofs.Logic.Fanout
import Switchboard.Proofs.Logic.Stream

/-!
# Bystanders — what comes to a link while something is done to another

The task of a link ends, a frame is pushed, a link comes in: all other links keep their names, are
read from as before, and are cancelled only where that is what is done. Whoever has left does not
come back.
-/

namespace Switchboard.Logic

open WebSocket

namespace Hub

/-! ## 1. Links that are spared -/

/-- What is done to one link, `own`, and the cancelling of those that are `struck`, leave every
other link as it is while it is read from. No link comes in among those that were given out
before. -/
structure Spares (own : Option UInt64) (struck : UInt64 → Bool) (before after : Hub) : Prop where
  lastId : before.lastId ≤ after.lastId
  registered : ∀ id ≤ before.lastId, id ∈ after.registered → id ∈ before.registered
  link : ∀ id ≤ before.lastId, some id ≠ own → (before.link id).receiving = true →
    (after.link id).name = (before.link id).name ∧
      (after.link id).hostname = (before.link id).hostname ∧
      (after.link id).receiving = true ∧
      (after.link id).cancelled = ((before.link id).cancelled || struck id)

/-- Nobody is cancelled from outside. -/
def nobody (_ : UInt64) : Bool := false

variable {hub : Hub} {own : Option UInt64} {struck : UInt64 → Bool}

/-- A link that is read from, and the names that it was registered under. -/
structure Serves (hub : Hub) (id : UInt64) (name hostname : String) (cancelled : Bool) : Prop where
  known : id ≤ hub.lastId
  name : (hub.link id).name = name
  hostname : (hub.link id).hostname = hostname
  receiving : (hub.link id).receiving = true
  cancelled : (hub.link id).cancelled = cancelled

theorem Spares.serves {after : Hub} (h : Spares own struck hub after) {id : UInt64}
    {name hostname : String} {cancelled : Bool} (hserves : hub.Serves id name hostname cancelled)
    (hown : some id ≠ own) : after.Serves id name hostname (cancelled || struck id) := by
  obtain ⟨hname, hhostname, hreceiving, hcancelled⟩ :=
    h.link id hserves.known hown hserves.receiving
  exact {
    known := UInt64.le_trans hserves.known h.lastId
    name := hname.trans hserves.name
    hostname := hhostname.trans hserves.hostname
    receiving := hreceiving
    cancelled := hcancelled.trans (by rw [hserves.cancelled]) }

theorem serves_register (hub : Hub) (name hostname : String) (capacity : Nat) :
    (hub.register name hostname capacity).2.Serves (hub.register name hostname capacity).1 name
      hostname false := by
  have hlink := link_register hub name hostname capacity (hub.lastId + 1)
  rw [if_pos rfl] at hlink
  exact ⟨UInt64.le_refl _, congrArg Link.name hlink, congrArg Link.hostname hlink,
    congrArg Link.receiving hlink, congrArg Link.cancelled hlink⟩

/-- Who has left the hub stays away. -/
theorem Spares.not_registered {after : Hub} (h : Spares own struck hub after) {id : UInt64}
    (hknown : id ≤ hub.lastId) (hout : id ∉ hub.registered) : id ∉ after.registered :=
  fun hin => hout (h.registered id hknown hin)

/-- Links that keep all but their queues are spared. -/
theorem Aged.spares {after : Hub} (h : Aged hub after)
    (hlink : ∀ id, some id ≠ own → (hub.link id).receiving = true →
      (after.link id).name = (hub.link id).name ∧
      (after.link id).hostname = (hub.link id).hostname ∧
      (after.link id).receiving = (hub.link id).receiving ∧
      (after.link id).cancelled = (hub.link id).cancelled) : Spares own nobody hub after where
  lastId := h.lastId ▸ UInt64.le_refl _
  registered _ _ hid := h.registered.subset hid
  link id _ hown hreceiving := by
    obtain ⟨hname, hhostname, hreading, hcancelled⟩ := hlink id hown hreceiving
    exact ⟨hname, hhostname, hreading.trans hreceiving, by rw [hcancelled, nobody, Bool.or_false]⟩

theorem spares_refl (hub : Hub) (own : Option UInt64) : Spares own nobody hub hub :=
  (Aged.refl hub).spares fun _ _ _ => ⟨rfl, rfl, rfl, rfl⟩

/-! ## 2. One link -/

theorem spares_register (hroom : hub.lastId < hub.lastId + 1) (own : Option UInt64)
    (name hostname : String) (capacity : Nat) :
    Spares own nobody hub (hub.register name hostname capacity).2 where
  lastId := UInt64.le_of_lt hroom
  registered id hid hin := by
    rcases List.mem_append.1 hin with hold | hnew
    · exact hold
    · exact absurd (List.mem_singleton.1 hnew) (ne_lastId_succ hroom hid)
  link id hid _ hreceiving := by
    rw [link_register, if_neg (ne_lastId_succ hroom hid)]
    exact ⟨rfl, rfl, hreceiving, (Bool.or_false _).symm⟩

theorem spares_receive (hub : Hub) (own : Option UInt64) (id : UInt64) :
    Spares own nobody hub (hub.receive id).2 := by
  refine (aged_receive hub id).spares fun id' _ _ => ?_
  cases hqueue : (hub.link id).queue with
  | nil =>
    rw [receive_of_nil hqueue]
    exact ⟨rfl, rfl, rfl, rfl⟩
  | cons frame rest =>
    rw [link_receive hqueue]
    split
    · next hid => exact hid ▸ ⟨rfl, rfl, rfl, rfl⟩
    · exact ⟨rfl, rfl, rfl, rfl⟩

/-- The end of a task takes its own link out, and touches no other. -/
theorem state_finish (socket : Socket) (hub : Hub) (id : UInt64) (log : List LogLine) :
    (Stream.finish socket hub id log).state = ((hub.cancel id).remove id).2.dropReceiver id := by
  have hcancelled : ((hub.cancel id).link id).cancelled = true := by
    rw [link_cancel, if_pos rfl]
  show ((hub.cancel id).watch id).dropReceiver id = _
  rw [watch, if_pos hcancelled]

theorem registered_finish (socket : Socket) (hub : Hub) (id : UInt64) (log : List LogLine) :
    (Stream.finish socket hub id log).state.registered = hub.registered.filter (· ≠ id) := by
  rw [state_finish]
  exact registered_remove (hub.cancel id) id

theorem aged_finish (socket : Socket) (hub : Hub) (id : UInt64) (log : List LogLine) :
    Aged hub (Stream.finish socket hub id log).state :=
  ((withdrawn_cancel hub id).toAged.trans (withdrawn_watch _ id).toAged).trans
    (aged_dropReceiver _ id)

theorem spares_finish (socket : Socket) (hub : Hub) (id : UInt64) (log : List LogLine) :
    Spares (some id) nobody hub (Stream.finish socket hub id log).state := by
  refine (aged_finish socket hub id log).spares fun id' hid' _ => ?_
  have hne : id' ≠ id := fun h => hid' (congrArg some h)
  have hlink : (Stream.finish socket hub id log).state.link id' = hub.link id' := by
    rw [state_finish, link_dropReceiver, if_neg hne, link_remove_of_ne _ hne, link_cancel,
      if_neg hne]
  rw [hlink]
  exact ⟨rfl, rfl, rfl, rfl⟩

/-! ## 3. Links that are cancelled, and frames -/

theorem Withdrawn.names {after : Hub} (h : Withdrawn hub after) (id : UInt64) :
    (after.link id).name = (hub.link id).name ∧
      (after.link id).hostname = (hub.link id).hostname := by
  rcases h.link id with hlink | hlink <;> rw [hlink] <;> exact ⟨rfl, rfl⟩

/-- Links that are withdrawn keep their names, and are cancelled or not. -/
theorem Withdrawn.spares {after : Hub} (h : Withdrawn hub after)
    (hstruck : ∀ id ≤ hub.lastId,
      (after.link id).cancelled = ((hub.link id).cancelled || struck id)) :
    Spares none struck hub after where
  lastId := h.lastId ▸ UInt64.le_refl _
  registered _ _ hid := h.registered.subset hid
  link id hid _ hreceiving :=
    ⟨(h.names id).1, (h.names id).2, (h.receiving id).trans hreceiving, hstruck id hid⟩

/-- A watcher takes out a link that is cancelled already. -/
theorem spares_watch (hub : Hub) (id : UInt64) : Spares none nobody hub (hub.watch id) := by
  refine (withdrawn_watch hub id).spares fun id' _ => ?_
  rw [nobody, Bool.or_false, watch]
  split
  · next hcancelled =>
    by_cases hid : id' = id
    · rw [hid, hcancelled]
      exact (withdrawn_remove hub id).cancelled id hcancelled
    · rw [link_remove_of_ne _ hid]
  · rfl

theorem Coherent.spares_remove (h : hub.Coherent) (id : UInt64) :
    Spares none (fun id' => id' = id) hub (hub.remove id).2 := by
  refine (withdrawn_remove hub id).spares fun id' _ => ?_
  by_cases hid : id' = id
  · subst hid
    rw [decide_eq_true rfl, Bool.or_true]
    refine (h.aged (withdrawn_remove hub id').toAged).left id' ?_
    rw [registered_remove]
    simp
  · rw [link_remove_of_ne _ hid, decide_eq_false hid, Bool.or_false]

theorem cancelled_foldl_cancel {ids : List UInt64} {id : UInt64}
    (h : id ∈ ids ∨ (hub.link id).cancelled = true) :
    ((ids.foldl cancel hub).link id).cancelled = true := by
  induction ids generalizing hub with
  | nil => exact h.resolve_left List.not_mem_nil
  | cons id' ids ih =>
    refine ih ?_
    rw [link_cancel]
    rcases h with hin | hcancelled
    · rcases List.mem_cons.1 hin with hid | hin
      · exact .inr (by rw [if_pos hid])
      · exact .inl hin
    · refine .inr ?_
      split
      · rfl
      · exact hcancelled

theorem Coherent.spares_shutdown (h : hub.Coherent) :
    Spares none (fun _ => true) hub hub.shutdown := by
  refine (withdrawn_shutdown hub).spares fun id _ => ?_
  rw [Bool.or_true]
  refine cancelled_foldl_cancel ?_
  by_cases hid : id ∈ hub.registered
  · exact .inl hid
  · exact .inr (h.left id hid)

theorem offered_keeps (frame : String) (l : Link) : (offered frame l).name = l.name ∧
    (offered frame l).hostname = l.hostname := by
  rw [offered]
  cases l.offer <;> exact ⟨rfl, rfl⟩

/-- A frame cancels no link that is read from. -/
theorem Coherent.spares_push (h : hub.Coherent) (envelope : Wire.Envelope) :
    Spares none nobody hub (hub.push envelope).2.1 := by
  obtain ⟨swept, -, -, hlink, -, hhub⟩ := push_eq h.nodup envelope
  have haged := aged_push h.nodup envelope
  have hwithdrawn := Withdrawn.foldl withdrawn_remove
    (hub.registered.filter fun id => (hub.link id).dead) swept
  rw [← hhub] at hwithdrawn
  have hkeeps : ∀ id, (swept.link id).name = (hub.link id).name ∧
      (swept.link id).hostname = (hub.link id).hostname := by
    intro id
    rw [hlink]
    split
    · exact offered_keeps _ _
    · exact ⟨rfl, rfl⟩
  refine haged.spares fun id _ hreceiving => ⟨(hwithdrawn.names id).1.trans (hkeeps id).1,
    (hwithdrawn.names id).2.trans (hkeeps id).2, (h.pushed envelope).receiving id, ?_⟩
  cases hcancelled : (hub.link id).cancelled with
  | true => exact haged.cancelled id hcancelled
  | false =>
    -- not among the dead, so it is as the offer has left it
    have halive : (hub.link id).dead = false := by rw [Link.dead, hcancelled, hreceiving]; rfl
    have hnot : id ∉ hub.registered.filter fun id => (hub.link id).dead := by simp [halive]
    rw [hhub, link_foldl_remove_of_not_mem _ hnot, hlink]
    split
    · rw [cancelled_offered, halive]
    · exact hcancelled

end Hub

end Switchboard.Logic
