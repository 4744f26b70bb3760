import Mathlib.Data.List.Induction
import Mathlib.Data.Set.Card
import Switchboard.Proofs.Logic.Hub

/-!
# Fanout — the links of a hub over a whole run

Links are registered, cancelled, taken out and read in any order, a watcher runs whenever it is its
turn, and frames are pushed in between. `Coherent` says what holds of the hub at any moment: who is
not registered is cancelled, and no id is given out twice. `Carried` says what an event does to one
link: what is read from it and what it still has are the frames that it took.
-/

namespace Switchboard.Logic.Hub

/-! ## 1. Runs -/

/-- A watcher may run at any time, before its link is cancelled as well. -/
inductive Event where
  | register (name hostname : String) (capacity : Nat)
  | cancel (id : UInt64)
  | remove (id : UInt64)
  | watch (id : UInt64)
  | shutdown
  | push (envelope : Wire.Envelope)
  | receive (id : UInt64)
  | dropReceiver (id : UInt64)
  deriving DecidableEq, Repr

def apply (hub : Hub) : Event → Hub
  | .register name hostname capacity => (hub.register name hostname capacity).2
  | .cancel id => hub.cancel id
  | .remove id => (hub.remove id).2
  | .watch id => hub.watch id
  | .shutdown => hub.shutdown
  | .push envelope => (hub.push envelope).2.1
  | .receive id => (hub.receive id).2
  | .dropReceiver id => hub.dropReceiver id

def after (events : List Event) : Hub := events.foldl apply {}

/-- A link is registered and not cancelled, somebody reads from it, and it has room. -/
def Accepts (hub : Hub) (id : UInt64) : Prop :=
  id ∈ hub.registered ∧ (hub.link id).cancelled = false ∧ (hub.link id).receiving = true ∧
    (hub.link id).queue.length < (hub.link id).capacity

instance (hub : Hub) (id : UInt64) : Decidable (hub.Accepts id) :=
  inferInstanceAs (Decidable (_ ∧ _ ∧ _ ∧ _))

/-- The id that an event gives out. -/
def issuedBy (hub : Hub) : Event → List UInt64
  | .register name hostname capacity => [(hub.register name hostname capacity).1]
  | _ => []

/-- The frame that an event reads from a link. -/
def receivedBy (id : UInt64) (hub : Hub) : Event → List String
  | .receive id' => if id' = id then (hub.receive id').1.toList else []
  | _ => []

/-- The frame that an event pushes while a link accepts it. -/
def acceptedBy (id : UInt64) (hub : Hub) : Event → List String
  | .push envelope => if hub.Accepts id then [envelope.encode] else []
  | _ => []

/-- What comes of the events of a run, one after another. -/
def along {α : Type} (f : Hub → Event → List α) (hub : Hub) : List Event → List α
  | [] => []
  | e :: events => f hub e ++ along f (hub.apply e) events

def issued (events : List Event) : List UInt64 := along issuedBy {} events

def received (id : UInt64) (events : List Event) : List String := along (receivedBy id) {} events

def accepted (id : UInt64) (events : List Event) : List String := along (acceptedBy id) {} events

theorem after_concat (events : List Event) (e : Event) :
    after (events ++ [e]) = (after events).apply e := by
  rw [after, List.foldl_append]
  rfl

theorem along_append {α : Type} (f : Hub → Event → List α) (hub : Hub)
    (events more : List Event) :
    along f hub (events ++ more) = along f hub events ++ along f (events.foldl apply hub) more := by
  induction events generalizing hub with
  | nil => rfl
  | cons e events ih =>
    rw [List.cons_append, along, ih, ← List.append_assoc]
    rfl

theorem along_concat {α : Type} (f : Hub → Event → List α) (events : List Event) (e : Event) :
    along f {} (events ++ [e]) = along f {} events ++ f (after events) e := by
  rw [along_append, along, along, List.append_nil]
  rfl

theorem issued_concat (events : List Event) (e : Event) :
    issued (events ++ [e]) = issued events ++ (after events).issuedBy e :=
  along_concat issuedBy events e

theorem received_concat (id : UInt64) (events : List Event) (e : Event) :
    received id (events ++ [e]) = received id events ++ (after events).receivedBy id e :=
  along_concat (receivedBy id) events e

theorem accepted_concat (id : UInt64) (events : List Event) (e : Event) :
    accepted id (events ++ [e]) = accepted id events ++ (after events).acceptedBy id e :=
  along_concat (acceptedBy id) events e

/-! ## 2. The hub at any moment -/

/-- Ids are given out in order, each registered link has its own, and who is not registered is
cancelled. -/
structure Coherent (hub : Hub) : Prop where
  nodup : hub.registered.Nodup
  registered_le : ∀ id ∈ hub.registered, id ≤ hub.lastId
  left : ∀ id ∉ hub.registered, (hub.link id).cancelled = true
  fresh : ∀ id, hub.lastId < id → hub.link id = noLink

theorem coherent_empty : ({} : Hub).Coherent :=
  ⟨List.nodup_nil, fun _ hid => absurd hid List.not_mem_nil, fun _ _ => rfl, fun _ _ => rfl⟩

variable {hub : Hub}

/-- Whatever gives out no id lets the hub age. -/
theorem Coherent.aged_apply (h : hub.Coherent) {e : Event} (he : hub.issuedBy e = []) :
    Aged hub (hub.apply e) := by
  cases e with
  | register => cases he
  | cancel id => exact (withdrawn_cancel hub id).toAged
  | remove id => exact (withdrawn_remove hub id).toAged
  | watch id => exact (withdrawn_watch hub id).toAged
  | shutdown => exact (withdrawn_shutdown hub).toAged
  | push envelope => exact aged_push h.nodup envelope
  | receive id => exact aged_receive hub id
  | dropReceiver id => exact aged_dropReceiver hub id

theorem Coherent.aged {before after : Hub} (h : before.Coherent) (ha : Aged before after) :
    after.Coherent where
  nodup := h.nodup.sublist ha.registered
  registered_le id hid := ha.lastId ▸ h.registered_le id (ha.registered.subset hid)
  left id hout := by
    by_cases hin : id ∈ before.registered
    · exact ha.left id hin hout
    · exact ha.cancelled id (h.left id hin)
  fresh id hid := ha.absent id (h.fresh id (ha.lastId ▸ hid))

/-- There is an id left for the link that an event registers. -/
def HasRoom (hub : Hub) (e : Event) : Prop := hub.issuedBy e ≠ [] → hub.lastId < hub.lastId + 1

theorem ne_lastId_succ (hroom : hub.lastId < hub.lastId + 1) {id : UInt64}
    (hid : id ≤ hub.lastId) : id ≠ hub.lastId + 1 := by
  rintro rfl
  exact absurd hroom (UInt64.not_lt.2 hid)

theorem Coherent.register (h : hub.Coherent) (hroom : hub.lastId < hub.lastId + 1)
    (name hostname : String) (capacity : Nat) :
    (hub.register name hostname capacity).2.Coherent where
  nodup := by
    refine List.nodup_append.2 ⟨h.nodup, List.nodup_singleton _, ?_⟩
    rintro id hid _ hnew rfl
    exact ne_lastId_succ hroom (h.registered_le id hid) (List.mem_singleton.1 hnew)
  registered_le id hid := by
    rcases List.mem_append.1 hid with hold | hnew
    · exact UInt64.le_trans (h.registered_le id hold) (UInt64.le_of_lt hroom)
    · exact List.mem_singleton.1 hnew ▸ UInt64.le_refl _
  left id hout := by
    obtain ⟨hold, hnew⟩ := not_or.1 (mt List.mem_append.2 hout)
    rw [link_register, if_neg (mt List.mem_singleton.2 hnew)]
    exact h.left id hold
  fresh id hid := by
    have hnew : id ≠ hub.lastId + 1 := fun heq => UInt64.lt_irrefl _ (heq ▸ hid)
    rw [link_register, if_neg hnew]
    exact h.fresh id (UInt64.lt_trans hroom hid)

theorem Coherent.apply (h : hub.Coherent) {e : Event}
    (hroom : hub.HasRoom e) : (hub.apply e).Coherent := by
  by_cases he : hub.issuedBy e = []
  · exact h.aged (h.aged_apply he)
  · cases e with
    | register name hostname capacity => exact h.register (hroom he) name hostname capacity
    | _ => exact absurd rfl he

/-! ## 3. Ids -/

/-- An event gives out the next id or none. -/
theorem lastId_apply (h : hub.Coherent) (e : Event) :
    (hub.issuedBy e = [] ∧ (hub.apply e).lastId = hub.lastId) ∨
      (hub.issuedBy e = [hub.lastId + 1] ∧ (hub.apply e).lastId = hub.lastId + 1) := by
  by_cases he : hub.issuedBy e = []
  · exact .inl ⟨he, (h.aged_apply he).lastId⟩
  · cases e with
    | register => exact .inr ⟨rfl, rfl⟩
    | _ => exact absurd rfl he

/-- The ids of a run are the numbers from 1 on. -/
structure Numbered (events : List Event) : Prop where
  coherent : (after events).Coherent
  lastId : (after events).lastId.toNat = (issued events).length
  numbers : (issued events).map UInt64.toNat = List.range' 1 (issued events).length

theorem length_issued_le (events more : List Event) :
    (issued events).length ≤ (issued (events ++ more)).length := by
  rw [issued, issued, along_append, List.length_append]
  exact Nat.le_add_right _ _

/-- There is a next id as long as there are fewer links than ids. -/
theorem toNat_lastId_succ {events : List Event} {e : Event}
    (hlast : (after events).lastId.toNat = (issued events).length)
    (hsize : (issued (events ++ [e])).length < UInt64.size)
    (he : (after events).issuedBy e ≠ []) :
    ((after events).lastId + 1).toNat = (after events).lastId.toNat + 1 := by
  rw [issued_concat, List.length_append, ← hlast] at hsize
  have hone : 1 ≤ ((after events).issuedBy e).length := List.length_pos_iff.2 he
  rw [UInt64.toNat_add]
  exact Nat.mod_eq_of_lt (Nat.lt_of_le_of_lt (Nat.add_le_add_left hone _) hsize)

theorem hasRoom_of_lt {events : List Event} {e : Event}
    (hlast : (after events).lastId.toNat = (issued events).length)
    (hsize : (issued (events ++ [e])).length < UInt64.size) : (after events).HasRoom e := by
  intro he
  rw [UInt64.lt_iff_toNat_lt, toNat_lastId_succ hlast hsize he]
  exact Nat.lt_succ_self _

theorem numbered_of_lt {events : List Event} (hsize : (issued events).length < UInt64.size) :
    Numbered events := by
  induction events using List.reverseRecOn with
  | nil => exact ⟨coherent_empty, rfl, rfl⟩
  | append_singleton events e ih =>
    obtain ⟨hcoherent, hlast, hissued⟩ :=
      ih (Nat.lt_of_le_of_lt (length_issued_le events [e]) hsize)
    refine ⟨?_, ?_, ?_⟩
    · rw [after_concat]
      exact hcoherent.apply (hasRoom_of_lt hlast hsize)
    · rw [after_concat, issued_concat, List.length_append]
      rcases lastId_apply hcoherent e with ⟨he, hlast'⟩ | ⟨he, hlast'⟩
      · rw [he, hlast', hlast]
        rfl
      · rw [hlast', toNat_lastId_succ hlast hsize (he ▸ List.cons_ne_nil _ _), hlast, he]
        rfl
    · rw [issued_concat, List.map_append, List.length_append, hissued]
      rcases lastId_apply hcoherent e with ⟨he, -⟩ | ⟨he, -⟩
      · rw [he]
        exact List.append_nil _
      · rw [he, List.map_singleton, toNat_lastId_succ hlast hsize (he ▸ List.cons_ne_nil _ _),
          hlast, List.length_singleton, List.range'_concat, Nat.one_mul, Nat.add_comm 1]

theorem Numbered.le_lastId {events : List Event} (h : Numbered events) {id : UInt64}
    (hid : id ∈ issued events) : id ≤ (after events).lastId := by
  have hmem : id.toNat ∈ List.range' 1 (issued events).length :=
    h.numbers ▸ List.mem_map_of_mem hid
  rw [UInt64.le_iff_toNat_le, h.lastId]
  have hlt := (List.mem_range'_1.1 hmem).2
  omega

theorem Numbered.nodup {events : List Event} (h : Numbered events) : (issued events).Nodup := by
  refine List.Nodup.of_map UInt64.toNat ?_
  rw [h.numbers]
  exact List.nodup_range'

/-! ## 4. What a frame that is pushed leaves -/

/-- The frame is in the queue of every link that accepted it and of no other, the number says how
many these are, and the links that are not dead are left, those with a full queue as well. -/
structure Pushed (frame : String) (before : Hub) (reached : Nat) (after : Hub) : Prop where
  reached : (reached : ℕ∞) = {id | before.Accepts id}.encard
  queue : ∀ id, (after.link id).queue =
    if before.Accepts id then (before.link id).queue ++ [frame] else (before.link id).queue
  receiving : ∀ id, (after.link id).receiving = (before.link id).receiving
  stays : ∀ id, id ∈ after.registered ↔ id ∈ before.registered ∧
    (before.link id).cancelled = false ∧ (before.link id).receiving = true
  live : ∀ id ∈ after.registered, (after.link id).cancelled = false ∧
    (after.link id).receiving = true

theorem accepts_iff (hub : Hub) (id : UInt64) :
    hub.Accepts id ↔ id ∈ hub.registered ∧ (hub.link id).offer = .taken := by
  rw [Link.offer_eq_taken_iff]
  rfl

theorem Coherent.pushed (h : hub.Coherent) (envelope : Wire.Envelope) :
    Pushed envelope.encode hub (hub.push envelope).1 (hub.push envelope).2.1 := by
  obtain ⟨swept, hregistered, -, hlink, hreached, hhub⟩ := push_eq h.nodup envelope
  have hwithdrawn := Withdrawn.foldl withdrawn_remove
    (hub.registered.filter fun id => (hub.link id).dead) swept
  rw [← hhub] at hwithdrawn
  have hstays : ∀ id, id ∈ (hub.push envelope).2.1.registered ↔
      id ∈ hub.registered ∧ (hub.link id).dead = false := by
    intro id
    rw [hhub, registered_foldl_remove, hregistered]
    by_cases hin : id ∈ hub.registered <;> simp [hin]
  constructor
  case reached =>
    have hset : {id | hub.Accepts id} =
        ((hub.registered.filter fun id => (hub.link id).offer = .taken).toFinset : Set UInt64) := by
      ext id
      simp [accepts_iff]
    rw [hset, Set.encard_coe_eq_coe_finsetCard, List.toFinset_card_of_nodup (h.nodup.filter _),
      hreached, List.countP_eq_length_filter]
  case queue =>
    intro id
    rw [hwithdrawn.queue, hlink]
    by_cases hin : id ∈ hub.registered
    · rw [if_pos hin, queue_offered]
      simp only [accepts_iff, hin, true_and]
    · rw [if_neg hin, if_neg fun haccepts => hin haccepts.1]
  case receiving =>
    intro id
    rw [hwithdrawn.receiving, hlink]
    split
    · exact receiving_offered _ _
    · rfl
  case stays =>
    intro id
    rw [hstays, Link.dead, Bool.or_eq_false_iff, Bool.not_eq_false']
  case live =>
    intro id hid
    obtain ⟨hin, halive⟩ := (hstays id).1 hid
    -- a link that stays was not among the dead, so it is as the offer has left it
    have hnot : id ∉ hub.registered.filter fun id => (hub.link id).dead := by simp [halive]
    rw [hhub, link_foldl_remove_of_not_mem _ hnot, hlink, if_pos hin, cancelled_offered,
      receiving_offered, halive]
    exact ⟨rfl, by simpa [Link.dead] using (Bool.or_eq_false_iff.1 halive).2⟩

/-! ## 5. What an event does to a link -/

/-- While somebody reads from a link, what was read and what it still has are what it had and what
it has accepted. When it accepts nothing, nothing is queued to it. -/
structure Carried (received accepted : List String) (before after : Link) : Prop where
  receiving : after.receiving = true → before.receiving = true
  frames : after.receiving = true → received ++ after.queue = before.queue ++ accepted
  suffix : accepted = [] → after.queue <:+ before.queue

theorem Carried.refl (l : Link) : Carried [] [] l l :=
  ⟨id, fun _ => (List.append_nil _).symm, fun _ => List.suffix_refl _⟩

theorem Withdrawn.carried {before after : Hub} (h : Withdrawn before after) (id : UInt64) :
    Carried [] [] (before.link id) (after.link id) where
  receiving hr := h.receiving id ▸ hr
  frames _ := by rw [h.queue, List.nil_append, List.append_nil]
  suffix _ := h.queue id ▸ List.suffix_refl _

theorem Coherent.carried_push (h : hub.Coherent) (envelope : Wire.Envelope) (id : UInt64) :
    Carried [] (hub.acceptedBy id (.push envelope)) (hub.link id)
      ((hub.push envelope).2.1.link id) := by
  have hpushed := h.pushed envelope
  have hqueue : ((hub.push envelope).2.1.link id).queue =
      (hub.link id).queue ++ hub.acceptedBy id (.push envelope) := by
    rw [hpushed.queue, acceptedBy]
    split
    · rfl
    · exact (List.append_nil _).symm
  refine ⟨fun hr => hpushed.receiving id ▸ hr, fun _ => hqueue, fun hnone => ?_⟩
  rw [hqueue, hnone, List.append_nil]

theorem carried_receive (hub : Hub) (id id' : UInt64) :
    Carried (hub.receivedBy id (.receive id')) [] (hub.link id) ((hub.receive id').2.link id) := by
  rw [receivedBy]
  cases hqueue : (hub.link id').queue with
  | nil =>
    rw [receive_of_nil hqueue]
    split <;> exact .refl _
  | cons frame rest =>
    rw [link_receive hqueue, receive_of_cons hqueue]
    by_cases hid : id' = id
    · subst hid
      rw [if_pos rfl, if_pos rfl]
      refine ⟨fun hr => hr, fun _ => ?_, fun _ => ?_⟩
      · rw [hqueue, List.append_nil]
        rfl
      · rw [hqueue]
        exact List.suffix_cons _ _
    · rw [if_neg hid, if_neg (Ne.symm hid)]
      exact .refl _

theorem carried_dropReceiver (hub : Hub) (id id' : UInt64) :
    Carried [] [] (hub.link id) ((hub.dropReceiver id').link id) := by
  rw [link_dropReceiver]
  split
  · exact ⟨fun hr => (nomatch hr), fun hr => (nomatch hr), fun _ => List.nil_suffix⟩
  · exact .refl _

theorem Coherent.carried_apply (h : hub.Coherent) {e : Event}
    (hroom : hub.HasRoom e) {id : UInt64}
    (hid : id ≤ hub.lastId) :
    Carried (hub.receivedBy id e) (hub.acceptedBy id e) (hub.link id) ((hub.apply e).link id) := by
  cases e with
  | register name hostname capacity =>
    have hold := ne_lastId_succ (hroom (List.cons_ne_nil _ _)) hid
    rw [Hub.apply, link_register, if_neg hold]
    exact .refl _
  | cancel id' => exact (withdrawn_cancel hub id').carried id
  | remove id' => exact (withdrawn_remove hub id').carried id
  | watch id' => exact (withdrawn_watch hub id').carried id
  | shutdown => exact (withdrawn_shutdown hub).carried id
  | push envelope => exact h.carried_push envelope id
  | receive id' => exact carried_receive hub id id'
  | dropReceiver id' => exact carried_dropReceiver hub id id'

/-- A link that was never registered has nothing that could be read, and accepts nothing. -/
theorem Coherent.nothing_of_lt (h : hub.Coherent) {id : UInt64} (hid : hub.lastId < id)
    (e : Event) : hub.receivedBy id e = [] ∧ hub.acceptedBy id e = [] ∧
      ((hub.apply e).link id).queue = [] := by
  have hlink := h.fresh id hid
  have hqueue : (hub.link id).queue = [] := congrArg Link.queue hlink
  refine ⟨?_, ?_, ?_⟩
  · cases e with
    | receive id' =>
      rw [receivedBy]
      split
      · next heq =>
        rw [heq, receive_of_nil hqueue]
        rfl
      · rfl
    | _ => rfl
  · cases e with
    | push =>
      rw [acceptedBy, if_neg]
      exact fun haccepts => absurd hid (UInt64.not_lt.2 (h.registered_le id haccepts.1))
    | _ => rfl
  · cases e with
    | register =>
      rw [Hub.apply, link_register]
      split
      · rfl
      · exact hqueue
    | _ =>
      rw [(h.aged_apply rfl).absent id hlink]
      rfl

theorem Coherent.cancelled_apply (h : hub.Coherent) {e : Event}
    (hroom : hub.HasRoom e) {id : UInt64}
    (hid : id ≤ hub.lastId) (hc : (hub.link id).cancelled = true) :
    ((hub.apply e).link id).cancelled = true := by
  by_cases he : hub.issuedBy e = []
  · exact (h.aged_apply he).cancelled id hc
  · cases e with
    | register =>
      rw [Hub.apply, link_register, if_neg (ne_lastId_succ (hroom he) hid)]
      exact hc
    | _ => exact absurd rfl he

/-! ## 6. After any run -/

/-- What was read from a link and what it still has are what it has accepted. -/
theorem received_append_queue {events : List Event}
    (hsize : (issued events).length < UInt64.size) {id : UInt64}
    (hid : ((after events).link id).receiving = true ∨ (after events).lastId < id) :
    received id events ++ ((after events).link id).queue = accepted id events := by
  induction events using List.reverseRecOn with
  | nil => rfl
  | append_singleton events e ih =>
    have hbefore := Nat.lt_of_le_of_lt (length_issued_le events [e]) hsize
    have hnumbered := numbered_of_lt hbefore
    have hroom := hasRoom_of_lt hnumbered.lastId hsize
    rw [received_concat, accepted_concat, after_concat]
    rw [after_concat] at hid
    by_cases hnew : (after events).lastId < id
    · -- until it is registered a link has accepted nothing
      obtain ⟨hreceived, haccepted, hqueue⟩ := hnumbered.coherent.nothing_of_lt hnew e
      have hold := ih hbefore (.inr hnew)
      rw [hnumbered.coherent.fresh id hnew] at hold
      rw [hreceived, haccepted, hqueue, ← hold]
      rfl
    · have hcarried := hnumbered.coherent.carried_apply hroom (UInt64.not_lt.1 hnew)
      have hreading : (((after events).apply e).link id).receiving = true := by
        refine hid.resolve_right fun hlt => hnew ?_
        rcases lastId_apply hnumbered.coherent e with ⟨-, hlast⟩ | ⟨he, hlast⟩
        · rwa [hlast] at hlt
        · exact UInt64.lt_trans (hroom (he ▸ List.cons_ne_nil _ _)) (hlast ▸ hlt)
      rw [List.append_assoc, hcarried.frames hreading, ← List.append_assoc,
        ih hbefore (.inl (hcarried.receiving hreading))]

/-- A link that was cancelled stays so, and nothing more is queued to it. -/
theorem cancelled_append {events more : List Event}
    (hsize : (issued (events ++ more)).length < UInt64.size) {id : UInt64}
    (hid : id ∈ issued events) (hc : ((after events).link id).cancelled = true) :
    ((after (events ++ more)).link id).cancelled = true ∧
      ((after (events ++ more)).link id).queue <:+ ((after events).link id).queue ∧
      accepted id (events ++ more) = accepted id events := by
  induction more using List.reverseRecOn with
  | nil =>
    rw [List.append_nil]
    exact ⟨hc, List.suffix_refl _, rfl⟩
  | append_singleton more e ih =>
    rw [← List.append_assoc] at hsize ⊢
    have hbefore := Nat.lt_of_le_of_lt (length_issued_le (events ++ more) [e]) hsize
    have hnumbered := numbered_of_lt hbefore
    have hroom := hasRoom_of_lt hnumbered.lastId hsize
    obtain ⟨hcancelled, hsuffix, haccepted⟩ := ih hbefore
    have hknown : id ≤ (after (events ++ more)).lastId := by
      refine hnumbered.le_lastId ?_
      rw [issued, along_append]
      exact List.mem_append_left _ hid
    have hnone : (after (events ++ more)).acceptedBy id e = [] := by
      cases e with
      | push =>
        rw [acceptedBy, if_neg]
        exact fun haccepts => by simp [haccepts.2.1] at hcancelled
      | _ => rfl
    rw [after_concat, accepted_concat, hnone, List.append_nil]
    refine ⟨hnumbered.coherent.cancelled_apply hroom hknown hcancelled, ?_, haccepted⟩
    exact ((hnumbered.coherent.carried_apply hroom hknown).suffix hnone).trans hsuffix

theorem not_mem_listed {id : UInt64} (hc : (hub.link id).cancelled = true) (l : Link) :
    (id, l) ∉ hub.listed := by
  intro hlisted
  obtain ⟨hin, halive⟩ := List.mem_filter.1 hlisted
  obtain ⟨id', -, heq⟩ := List.mem_map.1 hin
  obtain ⟨rfl, rfl⟩ := Prod.mk.inj heq
  simp [hc] at halive

theorem accepts_register (hub : Hub) (name hostname : String) {capacity : Nat}
    (hcapacity : 1 ≤ capacity) : (hub.register name hostname capacity).2.Accepts
      (hub.register name hostname capacity).1 := by
  refine ⟨List.mem_append_right _ List.mem_cons_self, ?_⟩
  rw [link_register, register, if_pos rfl]
  exact ⟨rfl, rfl, hcapacity⟩

/-- After any run a frame that is pushed goes to the links that are registered, not cancelled and
read from and that have room, once to each, and to no other; the dead ones leave. What was read from
a link and what it still has are the frames that were pushed while it was such a link, in their
order. A new link accepts frames, and a link is registered until it is cancelled; from then on it
gets nothing more and is not listed again. No id is given out twice: the ids are the numbers from 1
on. As they are 64-bit numbers, a run registers fewer links than there are of those. -/
theorem fanned_out_after (events : List Event) (hsize : (issued events).length < UInt64.size) :
    (∀ envelope, Pushed envelope.encode (after events) ((after events).push envelope).1
      ((after events).push envelope).2.1) ∧
    (∀ id, ((after events).link id).receiving = true →
      received id events ++ ((after events).link id).queue = accepted id events) ∧
    (∀ earlier more, earlier ++ more = events → ∀ id ∈ issued earlier,
      ((after earlier).link id).cancelled = true →
        ((after events).link id).queue <:+ ((after earlier).link id).queue ∧
        accepted id events = accepted id earlier ∧ ∀ l, (id, l) ∉ (after events).listed) ∧
    (∀ id, ((after events).link id).cancelled = false → id ∈ (after events).registered) ∧
    (∀ name hostname capacity, 1 ≤ capacity →
      ((after events).register name hostname capacity).2.Accepts
        ((after events).register name hostname capacity).1) ∧
    (issued events).Nodup ∧
    (issued events).map UInt64.toNat = List.range' 1 (issued events).length := by
  have hnumbered := numbered_of_lt hsize
  refine ⟨fun envelope => hnumbered.coherent.pushed envelope,
    fun id hid => received_append_queue hsize (.inl hid), ?cancelled, ?registered,
    fun name hostname _ => accepts_register _ name hostname, hnumbered.nodup, hnumbered.numbers⟩
  case cancelled =>
    rintro earlier more rfl id hid hc
    obtain ⟨hcancelled, hsuffix, haccepted⟩ := cancelled_append hsize hid hc
    exact ⟨hsuffix, haccepted, not_mem_listed hcancelled⟩
  case registered =>
    intro id hid
    by_contra hout
    rw [hnumbered.coherent.left id hout] at hid
    cases hid

def start : Wire.Envelope := .command ⟨"start", .empty⟩

def stop : Wire.Envelope := .command ⟨"stop", .empty⟩

/-- The first of two links has room for one frame, and is cancelled when the second link has read
one. -/
def slowAndFast : List Event :=
  [.register "slow" "host-a" 1, .register "fast" "host-b" 8, .push start, .push stop, .receive 2,
    .cancel 1]

/-- The fast link gets both frames in turn. The slow one keeps the first, and gets nothing more. -/
theorem fanned_out_after_slowAndFast :
    (issued (slowAndFast ++ [.push stop, .watch 1])).length < UInt64.size ∧
    received 2 slowAndFast = [start.encode] ∧
    [start.encode] ++ ((after slowAndFast).link 2).queue = [start.encode, stop.encode] ∧
    ((after slowAndFast).link 1).queue = [start.encode] ∧
    {id | (after slowAndFast).Accepts id}.encard = 1 ∧
    (∀ id, id ∈ ((after slowAndFast).push stop).2.1.registered ↔
      id ∈ [1, 2] ∧ ((after slowAndFast).link id).cancelled = false ∧
        ((after slowAndFast).link id).receiving = true) ∧
    accepted 1 (slowAndFast ++ [.push stop, .watch 1]) = [start.encode] := by
  have hsize : (issued slowAndFast).length < UInt64.size := by decide
  have hsize' : (issued (slowAndFast ++ [.push stop, .watch 1])).length < UInt64.size := by decide
  obtain ⟨hpushed, hframes, -⟩ := fanned_out_after slowAndFast hsize
  obtain ⟨-, -, hcancelled, -⟩ := fanned_out_after _ hsize'
  have hkept : accepted 1 (slowAndFast ++ [.push stop, .watch 1]) = [start.encode] :=
    (hcancelled slowAndFast _ rfl 1 (by decide) rfl).2.1
  exact ⟨hsize', rfl, hframes 2 rfl, rfl, (hpushed stop).reached.symm, (hpushed stop).stays, hkept⟩

end Switchboard.Logic.Hub
