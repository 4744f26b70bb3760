import Switchboard.Logic.Hub

/-!
# Hub — what each operation does to the links

Every operation on a link leaves all other links as they are. A frame is offered to the registered
links one by one: each that takes it has it at the end of its queue, once, each found dead is taken
out afterwards, and nothing else about the hub changes.
-/

namespace Switchboard.Logic

namespace Link

/-- The link is cancelled, or nobody reads from it. -/
def dead (l : Link) : Bool := l.cancelled || !l.receiving

theorem offer_eq_taken_iff (l : Link) :
    l.offer = .taken ↔ l.cancelled = false ∧ l.receiving = true ∧ l.queue.length < l.capacity := by
  rw [offer]
  cases l.cancelled <;> cases l.receiving <;> simp

/-- Two of the offers find the link dead. -/
theorem dead_eq (l : Link) :
    l.dead = match l.offer with
      | .taken | .full => false
      | .cancelled | .gone => true := by
  rw [dead, offer]
  cases l.cancelled <;> cases l.receiving <;>
    by_cases hroom : l.queue.length < l.capacity <;> simp [hroom]

end Link

namespace Hub

variable {hub : Hub}

/-! ## 1. One link -/

theorem link_register (hub : Hub) (name hostname : String) (capacity : Nat) (id : UInt64) :
    (hub.register name hostname capacity).2.link id =
      if id = hub.lastId + 1 then { name, hostname, capacity } else hub.link id := by
  show ((hub.links.insert (hub.lastId + 1) _).get? id).getD _ = _
  rw [Table.get?_insert]
  by_cases h : id = hub.lastId + 1
  · rw [if_pos h.symm, if_pos h]
    rfl
  · rw [if_neg (Ne.symm h), if_neg h]
    rfl

/-- The link of an id that was never given out. -/
def noLink : Link := ⟨"", "", 0, [], true, false⟩

theorem get?_ne_none_of_link {id : UInt64} (h : hub.link id ≠ noLink) :
    hub.links.get? id ≠ none := by
  intro hget
  rw [link, Table.getD, hget] at h
  exact h rfl

/-- A change to the link of an id; without a link there is nothing to change. -/
theorem link_modify (hub : Hub) (id : UInt64) {f : Link → Link}
    (hf : hub.links.get? id = none → f noLink = noLink)
    (id' : UInt64) :
    ({ hub with links := hub.links.modify id f } : Hub).link id' =
      if id' = id then f (hub.link id) else hub.link id' := by
  unfold link Table.getD
  rw [Table.get?_modify]
  by_cases hid : id' = id
  · subst hid
    rw [if_pos rfl, if_pos rfl]
    cases hget : hub.links.get? id' with
    | none => exact (hf hget).symm
    | some l => rfl
  · rw [if_neg (Ne.symm hid), if_neg hid]

theorem link_cancel (hub : Hub) (id id' : UInt64) :
    (hub.cancel id).link id' =
      if id' = id then { hub.link id with cancelled := true } else hub.link id' :=
  hub.link_modify id (fun _ => rfl) id'

theorem link_dropReceiver (hub : Hub) (id id' : UInt64) :
    (hub.dropReceiver id).link id' =
      if id' = id then { hub.link id with queue := [], receiving := false } else hub.link id' :=
  hub.link_modify id (fun _ => rfl) id'

theorem receive_of_nil {id : UInt64} (h : (hub.link id).queue = []) :
    hub.receive id = (none, hub) := by
  rw [receive, h]

theorem receive_of_cons {id : UInt64} {frame : String} {rest : List String}
    (h : (hub.link id).queue = frame :: rest) :
    hub.receive id = (some frame,
      { hub with links := hub.links.modify id fun l => { l with queue := rest } }) := by
  rw [receive, h]

theorem link_receive {id : UInt64} {frame : String} {rest : List String}
    (h : (hub.link id).queue = frame :: rest) (id' : UInt64) :
    (hub.receive id).2.link id' =
      if id' = id then { hub.link id with queue := rest } else hub.link id' := by
  rw [receive_of_cons h]
  refine hub.link_modify id (fun hget => absurd hget (get?_ne_none_of_link fun habsent => ?_)) id'
  rw [habsent] at h
  cases h

/-! ## 2. A frame offered to the links -/

/-- The link with the frame at the end of its queue. -/
def queued (frame : String) (l : Link) : Link := { l with queue := l.queue ++ [frame] }

/-- What is left of a link that a frame was offered to. -/
def offered (frame : String) (l : Link) : Link :=
  match l.offer with
  | .taken => queued frame l
  | .gone => { l with cancelled := true }
  | .full | .cancelled => l

theorem offered_noLink (frame : String) : offered frame noLink = noLink := rfl

theorem queue_offered (frame : String) (l : Link) :
    (offered frame l).queue = if l.offer = .taken then l.queue ++ [frame] else l.queue := by
  rw [offered]
  cases l.offer <;> rfl

theorem receiving_offered (frame : String) (l : Link) :
    (offered frame l).receiving = l.receiving := by
  rw [offered]
  cases l.offer <;> rfl

/-- A link is cancelled by an offer that finds it dead, and only then. -/
theorem cancelled_offered (frame : String) (l : Link) : (offered frame l).cancelled = l.dead := by
  rw [offered, Link.offer, Link.dead]
  obtain ⟨name, hostname, capacity, queue, cancelled, receiving⟩ := l
  cases cancelled <;> cases receiving <;> by_cases hroom : queue.length < capacity <;>
    simp [hroom, queued]

theorem link_step (frame : String) (sweep : Sweep) (id id' : UInt64) :
    (sweep.step frame id).hub.link id' =
      if id' = id then offered frame (sweep.hub.link id) else sweep.hub.link id' := by
  have hsame : sweep.hub.link id' = if id' = id then sweep.hub.link id else sweep.hub.link id' := by
    split
    · next hid => rw [hid]
    · rfl
  rw [Sweep.step, offered]
  cases hoffer : (sweep.hub.link id).offer with
  | taken =>
    refine sweep.hub.link_modify id (fun hget => absurd hget (get?_ne_none_of_link ?_)) id'
    intro habsent
    rw [habsent] at hoffer
    cases hoffer
  | gone => exact sweep.hub.link_cancel id id'
  | full => exact hsame
  | cancelled => exact hsame

theorem reached_step (frame : String) (sweep : Sweep) (id : UInt64) :
    (sweep.step frame id).reached =
      sweep.reached + if (sweep.hub.link id).offer = .taken then 1 else 0 := by
  rw [Sweep.step]
  cases (sweep.hub.link id).offer <;> rfl

theorem dead_step (frame : String) (sweep : Sweep) (id : UInt64) :
    (sweep.step frame id).dead =
      sweep.dead ++ if (sweep.hub.link id).dead then [id] else [] := by
  rw [Sweep.step, Link.dead_eq]
  cases (sweep.hub.link id).offer <;> simp

theorem registered_step (frame : String) (sweep : Sweep) (id : UInt64) :
    (sweep.step frame id).hub.registered = sweep.hub.registered := by
  rw [Sweep.step]
  cases (sweep.hub.link id).offer <;> rfl

theorem lastId_step (frame : String) (sweep : Sweep) (id : UInt64) :
    (sweep.step frame id).hub.lastId = sweep.hub.lastId := by
  rw [Sweep.step]
  cases (sweep.hub.link id).offer <;> rfl

/-- What is left of a sweep over the links. -/
structure Swept (frame : String) (ids : List UInt64) (before after : Sweep) : Prop where
  reached : after.reached =
    before.reached + ids.countP fun id => (before.hub.link id).offer = .taken
  dead : after.dead = before.dead ++ ids.filter fun id => (before.hub.link id).dead
  registered : after.hub.registered = before.hub.registered
  lastId : after.hub.lastId = before.hub.lastId
  link : ∀ id, after.hub.link id =
    if id ∈ ids then offered frame (before.hub.link id) else before.hub.link id

theorem swept_foldl (frame : String) {ids : List UInt64} (hnodup : ids.Nodup) (sweep : Sweep) :
    Swept frame ids sweep (ids.foldl (Sweep.step frame) sweep) := by
  -- link by link: one that is still to come has not been touched
  induction ids generalizing sweep with
  | nil => exact ⟨rfl, (List.append_nil _).symm, rfl, rfl, fun id => by simp⟩
  | cons id ids ih =>
    have hnot : id ∉ ids := (List.nodup_cons.1 hnodup).1
    have hswept := ih (List.nodup_cons.1 hnodup).2 (sweep.step frame id)
    have hrest : ∀ id' ∈ ids, (sweep.step frame id).hub.link id' = sweep.hub.link id' := by
      intro id' hid'
      have hne : id' ≠ id := fun heq => hnot (heq ▸ hid')
      rw [link_step, if_neg hne]
    refine ⟨?_, ?_, ?_, ?_, fun id' => ?_⟩
    · have hcount : (ids.countP fun id' => ((sweep.step frame id).hub.link id').offer = .taken) =
          ids.countP fun id' => (sweep.hub.link id').offer = .taken :=
        List.countP_congr fun id' hid' => by rw [hrest id' hid']
      rw [List.foldl_cons, hswept.reached, hcount, reached_step, List.countP_cons]
      simp only [decide_eq_true_eq]
      omega
    · have hdead : (ids.filter fun id' => ((sweep.step frame id).hub.link id').dead) =
          ids.filter fun id' => (sweep.hub.link id').dead :=
        List.filter_congr fun id' hid' => by rw [hrest id' hid']
      rw [List.foldl_cons, hswept.dead, hdead, dead_step, List.filter_cons, List.append_assoc]
      split <;> rfl
    · rw [List.foldl_cons, hswept.registered, registered_step]
    · rw [List.foldl_cons, hswept.lastId, lastId_step]
    · rw [List.foldl_cons, hswept.link, link_step]
      by_cases hid' : id' = id
      · subst hid'
        simp [hnot]
      · simp [hid']

/-! ## 3. Hubs that no link comes to -/

/-- No link has come in, whoever has left is cancelled, and who was cancelled still is. -/
structure Aged (before after : Hub) : Prop where
  lastId : after.lastId = before.lastId
  registered : List.Sublist after.registered before.registered
  left : ∀ id ∈ before.registered, id ∉ after.registered → (after.link id).cancelled = true
  cancelled : ∀ id, (before.link id).cancelled = true → (after.link id).cancelled = true
  absent : ∀ id, before.link id = noLink → after.link id = noLink

theorem Aged.refl (hub : Hub) : Aged hub hub :=
  ⟨rfl, List.Sublist.refl _, fun _ hin hout => absurd hin hout, fun _ => id, fun _ => id⟩

theorem Aged.trans {first second third : Hub} (h : Aged first second) (h' : Aged second third) :
    Aged first third where
  lastId := h'.lastId.trans h.lastId
  registered := h'.registered.trans h.registered
  left id hin hout := by
    by_cases hstay : id ∈ second.registered
    · exact h'.left id hstay hout
    · exact h'.cancelled id (h.left id hin hstay)
  cancelled id hc := h'.cancelled id (h.cancelled id hc)
  absent id hid := h'.absent id (h.absent id hid)

/-- A change to links that leaves all of them registered. -/
theorem aged_of_registered {before after : Hub} (hlast : after.lastId = before.lastId)
    (hregistered : after.registered = before.registered)
    (hcancelled : ∀ id, (before.link id).cancelled = true → (after.link id).cancelled = true)
    (habsent : ∀ id, before.link id = noLink → after.link id = noLink) : Aged before after :=
  ⟨hlast, hregistered ▸ List.Sublist.refl _, fun _ hin hout => absurd (hregistered ▸ hin) hout,
    hcancelled, habsent⟩

theorem aged_dropReceiver (hub : Hub) (id : UInt64) : Aged hub (hub.dropReceiver id) := by
  refine aged_of_registered rfl rfl (fun id' hc => ?_) fun id' hid' => ?_ <;>
    rw [link_dropReceiver] <;> split
  · next hid => rwa [← hid]
  · exact hc
  · next hid =>
    rw [← hid, hid']
    rfl
  · exact hid'

theorem aged_receive (hub : Hub) (id : UInt64) : Aged hub (hub.receive id).2 := by
  cases hqueue : (hub.link id).queue with
  | nil =>
    rw [receive_of_nil hqueue]
    exact .refl hub
  | cons frame rest =>
    refine aged_of_registered (by rw [receive_of_cons hqueue]) (by rw [receive_of_cons hqueue])
      (fun id' hc => ?_) fun id' hid' => ?_ <;> rw [link_receive hqueue] <;> split
    · next hid => rwa [← hid]
    · exact hc
    · next hid =>
      rw [← hid, hid'] at hqueue
      cases hqueue
    · exact hid'

/-! ## 4. Links that are taken out -/

/-- Some links were cancelled, and some cancelled ones were taken out. -/
structure Withdrawn (before after : Hub) : Prop extends Aged before after where
  link : ∀ id, after.link id = before.link id ∨
    after.link id = { before.link id with cancelled := true }

namespace Withdrawn

variable {before after : Hub}

theorem of_link (hlast : after.lastId = before.lastId)
    (hregistered : List.Sublist after.registered before.registered)
    (hleft : ∀ id ∈ before.registered, id ∉ after.registered → (after.link id).cancelled = true)
    (hlink : ∀ id, after.link id = before.link id ∨
      after.link id = { before.link id with cancelled := true }) : Withdrawn before after where
  lastId := hlast
  registered := hregistered
  left := hleft
  cancelled id hc := by
    rcases hlink id with h | h <;> rw [h]
    exact hc
  absent id hid := by
    rcases hlink id with h | h <;> rw [h, hid]
    rfl
  link := hlink

theorem refl (hub : Hub) : Withdrawn hub hub := { Aged.refl hub with link := fun _ => .inl rfl }

theorem queue (h : Withdrawn before after) (id : UInt64) :
    (after.link id).queue = (before.link id).queue := by
  rcases h.link id with hlink | hlink <;> rw [hlink]

theorem receiving (h : Withdrawn before after) (id : UInt64) :
    (after.link id).receiving = (before.link id).receiving := by
  rcases h.link id with hlink | hlink <;> rw [hlink]

theorem trans {third : Hub} (h : Withdrawn before after) (h' : Withdrawn after third) :
    Withdrawn before third where
  toAged := h.toAged.trans h'.toAged
  link id := by
    rcases h.link id with hlink | hlink <;> rcases h'.link id with hlink' | hlink' <;>
      rw [hlink', hlink]
    · exact .inl rfl
    · exact .inr rfl
    · exact .inr rfl
    · exact .inr rfl

theorem foldl {f : Hub → UInt64 → Hub} (hf : ∀ hub id, Withdrawn hub (f hub id))
    (ids : List UInt64) (hub : Hub) : Withdrawn hub (ids.foldl f hub) := by
  induction ids generalizing hub with
  | nil => exact .refl hub
  | cons id ids ih => exact (hf hub id).trans (ih _)

end Withdrawn

theorem withdrawn_cancel (hub : Hub) (id : UInt64) : Withdrawn hub (hub.cancel id) := by
  refine .of_link rfl (List.Sublist.refl _) (fun _ hin hout => absurd hin hout) fun id' => ?_
  rw [link_cancel]
  split
  · next hid => exact .inr (by rw [hid])
  · exact .inl rfl

theorem withdrawn_remove (hub : Hub) (id : UInt64) : Withdrawn hub (hub.remove id).2 := by
  rw [remove]
  split
  · refine .of_link rfl List.filter_sublist (fun id' hin hout => ?_) (withdrawn_cancel hub id).link
    have hid : id' = id := by simpa [hin] using hout
    show ((hub.cancel id).link id').cancelled = true
    rw [link_cancel, if_pos hid]
  · exact .refl hub

theorem withdrawn_watch (hub : Hub) (id : UInt64) : Withdrawn hub (hub.watch id) := by
  rw [watch]
  split
  · exact withdrawn_remove hub id
  · exact .refl hub

theorem withdrawn_shutdown (hub : Hub) : Withdrawn hub hub.shutdown :=
  .foldl withdrawn_cancel hub.registered hub

theorem registered_remove (hub : Hub) (id : UInt64) :
    (hub.remove id).2.registered = hub.registered.filter (· ≠ id) := by
  rw [remove]
  split
  · rfl
  · next hout =>
    refine (List.filter_eq_self.2 fun id' hid' => ?_).symm
    have hne : id' ≠ id := fun heq => hout (heq ▸ hid')
    simpa using hne

theorem link_remove_of_ne (hub : Hub) {id id' : UInt64} (h : id' ≠ id) :
    (hub.remove id).2.link id' = hub.link id' := by
  rw [remove]
  split
  · show (hub.cancel id).link id' = _
    rw [link_cancel, if_neg h]
  · rfl

theorem registered_foldl_remove (hub : Hub) (ids : List UInt64) :
    (ids.foldl (fun hub id => (hub.remove id).2) hub).registered =
      hub.registered.filter (· ∉ ids) := by
  induction ids generalizing hub with
  | nil => exact (List.filter_eq_self.2 fun _ _ => by simp).symm
  | cons id ids ih =>
    rw [List.foldl_cons, ih, registered_remove, List.filter_filter]
    refine List.filter_congr fun id' _ => ?_
    by_cases hid : id' = id <;> simp [hid]

theorem link_foldl_remove_of_not_mem (hub : Hub) {ids : List UInt64} {id : UInt64}
    (h : id ∉ ids) : (ids.foldl (fun hub id => (hub.remove id).2) hub).link id = hub.link id := by
  induction ids generalizing hub with
  | nil => rfl
  | cons id' ids ih =>
    obtain ⟨hne, hnot⟩ := not_or.1 (mt List.mem_cons.2 h)
    rw [List.foldl_cons, ih _ hnot, link_remove_of_ne _ hne]

/-! ## 5. A frame pushed to all links -/

/-- Every registered link is offered the frame, then those found dead are taken out. -/
theorem push_eq (hnodup : hub.registered.Nodup) (envelope : Wire.Envelope) :
    ∃ swept : Hub, swept.registered = hub.registered ∧ swept.lastId = hub.lastId ∧
      (∀ id, swept.link id =
        if id ∈ hub.registered then offered envelope.encode (hub.link id) else hub.link id) ∧
      (hub.push envelope).1 = (hub.registered.countP fun id => (hub.link id).offer = .taken) ∧
      (hub.push envelope).2.1 = (hub.registered.filter fun id => (hub.link id).dead).foldl
        (fun hub id => (hub.remove id).2) swept := by
  have hswept := swept_foldl envelope.encode hnodup { hub }
  refine ⟨_, hswept.registered, hswept.lastId, hswept.link, ?_, ?_⟩
  · exact hswept.reached.trans (Nat.zero_add _)
  · show List.foldl _ _ _ = _
    rw [hswept.dead, List.nil_append]

/-- When every registered link takes the frame, the number says how many there are. -/
theorem push_of_taken (hnodup : hub.registered.Nodup)
    (h : ∀ id ∈ hub.registered, (hub.link id).offer = .taken) (envelope : Wire.Envelope) :
    (hub.push envelope).1 = hub.registered.length ∧
      (hub.push envelope).2.1.registered = hub.registered ∧
      ∀ id, (hub.push envelope).2.1.link id =
        if id ∈ hub.registered then queued envelope.encode (hub.link id) else hub.link id := by
  obtain ⟨swept, hregistered, -, hlink, hreached, hhub⟩ := push_eq hnodup envelope
  -- no link is found dead, so none is taken out
  have hdead : (hub.registered.filter fun id => (hub.link id).dead) = [] := by
    refine List.filter_eq_nil_iff.2 fun id hid => ?_
    obtain ⟨hcancelled, hreceiving, -⟩ := (Link.offer_eq_taken_iff _).1 (h id hid)
    simp [Link.dead, hcancelled, hreceiving]
  rw [hdead] at hhub
  rw [hreached, hhub]
  refine ⟨?_, hregistered, fun id => ?_⟩
  · exact List.countP_eq_length.2 fun id hid => by simpa using h id hid
  · rw [List.foldl_nil, hlink]
    split
    · next hid => rw [offered, h id hid]
    · rfl

theorem aged_push (hnodup : hub.registered.Nodup) (envelope : Wire.Envelope) :
    Aged hub (hub.push envelope).2.1 := by
  obtain ⟨swept, hregistered, hlast, hlink, -, hhub⟩ := push_eq hnodup envelope
  have hswept : Aged hub swept := by
    refine aged_of_registered hlast hregistered (fun id hc => ?_) fun id hid => ?_ <;>
      rw [hlink] <;> split
    · rw [cancelled_offered, Link.dead, hc, Bool.true_or]
    · exact hc
    · rw [hid, offered_noLink]
    · exact hid
  rw [hhub]
  exact hswept.trans (Withdrawn.foldl withdrawn_remove _ swept).toAged

end Hub

end Switchboard.Logic
