import Switchboard.Gateway.Dispatch
import Switchboard.Proofs.Gateway.Orderly

/-!
# Delivery — who gets a packet, and how often

One target changes at most the mailbox of its own slot, so what a mailbox holds in the end depends
only on how often its session is among the targets. That number is read off the registries: one for
each time that the packet names the session.
-/

namespace Switchboard.Gateway

open Session Wire

/-! ## 1. One target -/

namespace Delivery

variable {h : Handle} {d : Delivery} {s : SessionRef}

theorem not_isClosed_of_takes {m : Mailbox} (h : m.takes = true) : m.isClosed = false := by
  unfold Mailbox.takes at h
  unfold Mailbox.isClosed
  cases hc : m.cancelled <;> cases hr : m.receiving <;> simp [hc, hr] at h ⊢

theorem lt_size_of_takes {post : Post} {slot : Nat} (h : (post.box slot).takes = true) :
    slot < post.boxes.size := by
  by_contra hge
  have hnone : post.boxes[slot]? = none := Array.getElem?_eq_none (Nat.le_of_not_lt hge)
  rw [Post.box, hnone] at h
  cases h

theorem step_of_takes (htakes : (d.post.box s.slot).takes = true) :
    step h d s =
      { d with
        post := ⟨d.post.pool.retain h, d.post.boxes.modify s.slot fun m =>
          { m with queue := m.queue ++ [h] }⟩
        count := d.count + 1 } := by
  have hopen : d.post.isClosed s = false := not_isClosed_of_takes htakes
  rw [step, hopen, Post.send_of_takes htakes]
  rfl

theorem step_of_isClosed (hclosed : d.post.isClosed s = true) : step h d s = d := by
  rw [step, if_pos hclosed]

/-- A session that is open but takes nothing is closed. -/
theorem post_step_of_refused (hopen : d.post.isClosed s = false)
    (hrefuses : (d.post.box s.slot).takes = false) :
    (step h d s).post =
      Post.close { d.post with pool := (d.post.pool.retain h).release h } s := by
  have hsend : d.post.send s h =
      (.error (.closed s.id), { d.post with pool := (d.post.pool.retain h).release h }) := by
    have hbox : (Post.box { d.post with pool := d.post.pool.retain h } s.slot).takes = false :=
      hrefuses
    rw [Post.send, Post.deliver, hbox]
    rfl
  rw [step, hopen, hsend]
  rfl

theorem box_step_of_ne {slot : Nat} (hne : slot ≠ s.slot) :
    (step h d s).post.box slot = d.post.box slot := by
  by_cases htakes : (d.post.box s.slot).takes = true
  · rw [step_of_takes htakes]
    exact Post.box_modify_of_ne d.post hne _ _
  · by_cases hclosed : d.post.isClosed s = true
    · rw [step_of_isClosed hclosed]
    · rw [post_step_of_refused (Bool.eq_false_iff.2 hclosed) (Bool.eq_false_iff.2 htakes)]
      exact Post.box_close_of_ne _ hne

theorem box_step_of_takes {slot : Nat} (htakes : (d.post.box slot).takes = true) :
    (step h d s).post.box slot =
      { d.post.box slot with
        queue := (d.post.box slot).queue ++
          List.replicate (if s.slot = slot then 1 else 0) h } := by
  by_cases hslot : s.slot = slot
  · -- its own mailbox, which has room
    subst hslot
    rw [step_of_takes htakes, if_pos rfl]
    exact Post.box_modify_self (lt_size_of_takes htakes) _ _
  · rw [box_step_of_ne (Ne.symm hslot), if_neg hslot, List.replicate_zero, List.append_nil]

theorem box_step_of_isClosed {slot : Nat} (hclosed : (d.post.box slot).isClosed = true) :
    (step h d s).post.box slot = d.post.box slot := by
  by_cases hslot : slot = s.slot
  · subst hslot
    rw [step_of_isClosed hclosed]
  · exact box_step_of_ne hslot

theorem bytes_step (h' : Handle) : (step h d s).post.pool.bytes h' = d.post.pool.bytes h' := by
  by_cases htakes : (d.post.box s.slot).takes = true
  · rw [step_of_takes htakes]
    exact Pool.bytes_retain _ _ _
  · by_cases hclosed : d.post.isClosed s = true
    · rw [step_of_isClosed hclosed]
    · rw [post_step_of_refused (Bool.eq_false_iff.2 hclosed) (Bool.eq_false_iff.2 htakes)]
      exact (Pool.bytes_release _ _ _).trans (Pool.bytes_retain _ _ _)

theorem size_step : (step h d s).post.boxes.size = d.post.boxes.size := by
  by_cases htakes : (d.post.box s.slot).takes = true
  · rw [step_of_takes htakes]
    exact Array.size_modify
  · by_cases hclosed : d.post.isClosed s = true
    · rw [step_of_isClosed hclosed]
    · rw [post_step_of_refused (Bool.eq_false_iff.2 hclosed) (Bool.eq_false_iff.2 htakes)]
      exact Post.size_close _ _

/-! ## 2. All targets -/

theorem box_foldl_of_takes (targets : List SessionRef) {slot : Nat}
    (htakes : (d.post.box slot).takes = true) :
    (targets.foldl (step h) d).post.box slot =
      { d.post.box slot with
        queue := (d.post.box slot).queue ++
          List.replicate (targets.countP fun t => t.slot = slot) h } := by
  -- target by target: a mailbox that takes a copy takes the next one too
  induction targets generalizing d with
  | nil => simp
  | cons t targets ih =>
    have hbox := box_step_of_takes (h := h) (s := t) htakes
    have hstill : ((step h d t).post.box slot).takes = true := by
      rw [hbox]
      exact htakes
    rw [List.foldl_cons, ih hstill, hbox, List.countP_cons, List.append_assoc,
      ← List.replicate_add, Nat.add_comm]
    by_cases hslot : t.slot = slot <;> simp [hslot]

theorem box_foldl_of_isClosed (targets : List SessionRef) {slot : Nat}
    (hclosed : (d.post.box slot).isClosed = true) :
    (targets.foldl (step h) d).post.box slot = d.post.box slot := by
  induction targets generalizing d with
  | nil => rfl
  | cons t targets ih =>
    have hbox := box_step_of_isClosed (h := h) (s := t) hclosed
    rw [List.foldl_cons, ih (hbox ▸ hclosed), hbox]

theorem bytes_foldl (targets : List SessionRef) (h' : Handle) :
    (targets.foldl (step h) d).post.pool.bytes h' = d.post.pool.bytes h' := by
  induction targets generalizing d with
  | nil => rfl
  | cons t targets ih => rw [List.foldl_cons, ih, bytes_step]

theorem size_foldl (targets : List SessionRef) :
    (targets.foldl (step h) d).post.boxes.size = d.post.boxes.size := by
  induction targets generalizing d with
  | nil => rfl
  | cons t targets ih => rw [List.foldl_cons, ih, size_step]

end Delivery

section Distribute

variable (post : Post) (targets : List SessionRef) (bytes : Bytes)

def nextHandle (post : Post) : Handle := post.pool.payloads.size

theorem box_distribute_of_takes {slot : Nat} (h : (post.box slot).takes = true) :
    (distribute post targets bytes).post.box slot =
      { post.box slot with
        queue := (post.box slot).queue ++
          List.replicate (targets.countP fun t => t.slot = slot) (nextHandle post) } :=
  Delivery.box_foldl_of_takes (d := { post := { post with pool := (post.pool.create bytes).2 } })
    targets h

theorem box_distribute_of_isClosed {slot : Nat} (h : (post.box slot).isClosed = true) :
    (distribute post targets bytes).post.box slot = post.box slot :=
  Delivery.box_foldl_of_isClosed (d := { post := { post with pool := (post.pool.create bytes).2 } })
    targets h

theorem size_distribute : (distribute post targets bytes).post.boxes.size = post.boxes.size :=
  Delivery.size_foldl (d := { post := { post with pool := (post.pool.create bytes).2 } }) targets

/-- The new payload has the bytes, and the others keep theirs. -/
theorem bytes_distribute (h : Handle) :
    (distribute post targets bytes).post.pool.bytes h =
      if h = nextHandle post then bytes else post.pool.bytes h := by
  have hcreate : (post.pool.create bytes).2.bytes h =
      if h = nextHandle post then bytes else post.pool.bytes h := by
    rw [Pool.bytes_eq_map, Pool.get?_create, Pool.bytes_eq_map]
    unfold nextHandle
    split <;> rfl
  rw [← hcreate]
  exact (Pool.bytes_release _ _ _).trans (Delivery.bytes_foldl targets h)

end Distribute

/-! ## 3. How often a packet names a session -/

namespace Node

def copies (node : Node) (packet : Packet) (s : SessionRef) : Nat :=
  match packet.kind with
  | .user => packet.targets.count s.uid
  | .group => packet.targets.countP (· ∈ node.groups.groupsOf s)
  | .all => 1

variable {node : Node} {known : SessionRef → Prop}

/-- Among known sessions without repetition, a slot stands for at most one. -/
theorem countP_slot (hd : Distinct known) {sessions : List SessionRef} (hnodup : sessions.Nodup)
    (hknown : ∀ t ∈ sessions, known t) {s : SessionRef} (hs : known s) :
    (sessions.countP fun t => t.slot = s.slot) = if s ∈ sessions then 1 else 0 := by
  have hcongr : (sessions.countP fun t => t.slot = s.slot) = sessions.count s := by
    rw [List.count]
    refine List.countP_congr fun t ht => ?_
    rw [decide_eq_true_eq, beq_iff_eq]
    exact ⟨hd.eq_of_slot t s (hknown t ht) hs, fun hts => hts ▸ rfl⟩
  rw [hcongr, hnodup.count]

theorem countP_flatMap_eq {bucket : Int64 → List SessionRef} {p : SessionRef → Bool}
    {q : Int64 → Bool} (h : ∀ id, (bucket id).countP p = if q id then 1 else 0)
    (ids : List Int64) : (ids.flatMap bucket).countP p = ids.countP q := by
  induction ids with
  | nil => rfl
  | cons id ids ih =>
    rw [List.flatMap_cons, List.countP_append, List.countP_cons, ih, h, Nat.add_comm]

theorem Recorded.countP_targets (hnode : node.Recorded known) (packet : Packet) {s : SessionRef}
    (hs : s ∈ node.index.all) :
    ((node.targets packet).countP fun t => t.slot = s.slot) = node.copies packet s := by
  obtain ⟨roster, hrepresents, hknown⟩ := hnode.represents
  have hcoherent := hnode.coherent
  rw [hrepresents.all_eq] at hs
  unfold targets copies
  cases packet.kind with
  -- an id of a user stands for the session once, and no other id does
  | user =>
    refine countP_flatMap_eq (fun uid => ?_) packet.targets
    rw [hrepresents.ofUser_eq, countP_slot hnode.distinct (hrepresents.nodup.filter _)
      (fun t ht => hknown t (List.mem_filter.1 ht).1) (hknown s hs)]
    have hiff : s ∈ roster.filter (fun t => t.uid = uid) ↔ (uid == s.uid) = true := by
      rw [List.mem_filter, decide_eq_true_eq, beq_iff_eq]
      exact ⟨fun h => h.2.symm, fun h => ⟨hs, h.symm⟩⟩
    simp only [hiff]
  -- an id of a group stands for the session once if that has joined it
  | group =>
    refine countP_flatMap_eq (fun gid => ?_) packet.targets
    rw [countP_slot hnode.distinct (hcoherent.nodup_members gid)
      (fun t ht => hcoherent.known_of_mem ht) (hknown s hs)]
    simp only [hcoherent.mem_iff (hknown s hs), decide_eq_true_eq]
  | all =>
    show (node.index.all.countP fun t => t.slot = s.slot) = 1
    rw [hrepresents.all_eq, countP_slot hnode.distinct hrepresents.nodup hknown (hknown s hs),
      if_pos hs]

/-! ## 4. A delivered packet -/

/-- What the delivery of a packet does to a node: every registered session that takes payloads has
its copies at the end of its queue, closed sessions keep their mailboxes as they are, and neither
the registries nor the bytes of older payloads change. -/
structure Delivered (before after : Node) (packet : Packet) : Prop where
  index : after.index = before.index
  groups : after.groups = before.groups
  bytes : ∀ h p, before.post.pool.get? h = some p → after.post.pool.bytes h = p.bytes
  taking : ∀ s ∈ before.index.all, (before.post.box s.slot).takes = true →
    ∃ handles : List Handle,
      (after.post.box s.slot).queue = (before.post.box s.slot).queue ++ handles ∧
      handles.length = before.copies packet s ∧
      ∀ h ∈ handles, after.post.pool.bytes h = packet.payload
  closed : ∀ s, before.post.isClosed s = true → after.post.box s.slot = before.post.box s.slot

theorem deliver_of_targets {packet : Packet} (h : node.targets packet ≠ []) :
    (node.deliver packet).2.1 =
      { node with post := (distribute node.post (node.targets packet) packet.payload).post } := by
  unfold deliver
  split
  · next hnil => exact absurd hnil h
  · rfl

theorem Recorded.delivered (hnode : node.Recorded known) (packet : Packet) :
    node.Delivered (node.deliver packet).2.1 packet := by
  by_cases hnone : node.targets packet = []
  · -- without targets nothing happens, and no session is named
    have hsame : (node.deliver packet).2.1 = node := by
      rw [deliver, hnone]
    rw [hsame]
    refine ⟨rfl, rfl, fun h p hp => ?_, fun s hs _ => ⟨[], ?_, ?_, ?_⟩, fun s _ => rfl⟩
    · rw [Pool.bytes_eq_map, hp]
      rfl
    · rw [List.append_nil]
    · rw [← hnode.countP_targets packet hs, hnone]
      rfl
    · exact fun h hh => absurd hh List.not_mem_nil
  · rw [deliver_of_targets hnone]
    refine ⟨rfl, rfl, fun h p hp => ?_, fun s hs htakes => ?_, fun s hclosed => ?_⟩
    -- the new payload has a handle of its own
    · have hne : h ≠ nextHandle node.post := by
        intro heq
        rw [Pool.get?, heq, nextHandle, Array.getElem?_size] at hp
        cases hp
      show (distribute _ _ _).post.pool.bytes h = _
      rw [bytes_distribute, if_neg hne, Pool.bytes_eq_map, hp]
      rfl
    · refine ⟨List.replicate (node.copies packet s) (nextHandle node.post), ?_,
        List.length_replicate, fun h hh => ?_⟩
      · show ((distribute _ _ _).post.box s.slot).queue = _
        rw [box_distribute_of_takes node.post _ _ htakes, hnode.countP_targets packet hs]
      · show (distribute _ _ _).post.pool.bytes h = _
        rw [bytes_distribute, if_pos (List.eq_of_mem_replicate hh)]
    · exact box_distribute_of_isClosed node.post _ _ hclosed

/-- A mailbox that takes payloads still does when a packet has been delivered. -/
theorem takes_deliver (packet : Packet) {slot : Nat} (h : (node.post.box slot).takes = true) :
    ((node.deliver packet).2.1.post.box slot).takes = true := by
  by_cases hnone : node.targets packet = []
  · rw [deliver, hnone]
    exact h
  · rw [deliver_of_targets hnone, box_distribute_of_takes node.post _ _ h]
    exact h

theorem Recorded.deliver (h : node.Recorded known) (packet : Packet) :
    (node.deliver packet).2.1.Recorded known := by
  have hdelivered := h.delivered packet
  obtain ⟨hdistinct, hindex, hgroups⟩ := h
  exact ⟨hdistinct, hdelivered.index ▸ hindex, hdelivered.groups ▸ hgroups⟩

end Node

end Switchboard.Gateway
