import Switchboard.Session.Mailbox

/-!
# Post — what each operation does to the mailboxes and the payloads

Every operation on a mailbox changes the box of its own slot and no other, and no operation ever
changes the bytes of a payload.
-/

namespace Switchboard.Session

/-! ## 1. Payloads -/

namespace Pool

theorem get?_create (pool : Pool) (bytes : Bytes) (h : Handle) :
    (pool.create bytes).2.get? h =
      if h = pool.payloads.size then some { bytes } else pool.get? h := by
  rw [create, get?, Array.getElem?_push]
  rfl

theorem get?_retain (pool : Pool) (h h' : Handle) :
    (pool.retain h).get? h' = if h = h' then (pool.get? h').map Payload.retain else pool.get? h' :=
  Array.getElem?_modify

theorem get?_release (pool : Pool) (h h' : Handle) :
    (pool.release h).get? h' =
      if h = h' then (pool.get? h').map fun p => p.release?.getD p else pool.get? h' :=
  Array.getElem?_modify

theorem bytes_release? (p : Payload) : (p.release?.getD p).bytes = p.bytes := by
  obtain ⟨bytes, handles, released⟩ := p
  match handles with
  | 0 => rfl
  | 1 => rfl
  | n + 2 => rfl

theorem released_release? {p : Payload} (h : p.released = true) :
    (p.release?.getD p).released = true := by
  obtain ⟨bytes, handles, released⟩ := p
  match handles with
  | 0 => exact h
  | 1 => rfl
  | n + 2 => exact h

theorem bytes_eq_map (pool : Pool) (h : Handle) :
    pool.bytes h = ((pool.get? h).map Payload.bytes).getD [] := by
  rw [bytes]
  cases pool.get? h <;> rfl

@[simp] theorem bytes_retain (pool : Pool) (h h' : Handle) :
    (pool.retain h).bytes h' = pool.bytes h' := by
  rw [bytes_eq_map, bytes_eq_map, get?_retain]
  by_cases hh : h = h'
  · rw [if_pos hh, Option.map_map]
    rfl
  · rw [if_neg hh]

@[simp] theorem bytes_release (pool : Pool) (h h' : Handle) :
    (pool.release h).bytes h' = pool.bytes h' := by
  rw [bytes_eq_map, bytes_eq_map, get?_release]
  by_cases hh : h = h'
  · have hbytes : Payload.bytes ∘ (fun p => p.release?.getD p) = Payload.bytes :=
      funext bytes_release?
    rw [if_pos hh, Option.map_map, hbytes]
  · rw [if_neg hh]

@[simp] theorem size_retain (pool : Pool) (h : Handle) :
    (pool.retain h).payloads.size = pool.payloads.size :=
  Array.size_modify

@[simp] theorem size_release (pool : Pool) (h : Handle) :
    (pool.release h).payloads.size = pool.payloads.size :=
  Array.size_modify

end Pool

/-! ## 2. Mailboxes -/

theorem Mailbox.receiving_of_takes {m : Mailbox} (h : m.takes = true) : m.receiving = true := by
  simp only [takes, Bool.and_eq_true] at h
  exact h.1.2

theorem Mailbox.takes_eq (m : Mailbox) : m.takes = (!m.isClosed && !m.refusing) := by
  rw [takes, isClosed, Bool.not_or, Bool.not_not]

namespace Post

theorem box_openBox (post : Post) (refusing : Bool) (slot : Nat) :
    (post.openBox refusing).2.box slot =
      if slot = post.boxes.size then { refusing } else post.box slot := by
  simp only [openBox, box, Array.getElem?_push]
  split <;> rfl

theorem size_openBox (post : Post) (refusing : Bool) :
    (post.openBox refusing).2.boxes.size = post.boxes.size + 1 :=
  Array.size_push _

/-- A slot that was given out holds the changed box. -/
theorem box_modify_self {post : Post} {slot : Nat} (h : slot < post.boxes.size) (pool : Pool)
    (f : Mailbox → Mailbox) :
    (Post.mk pool (post.boxes.modify slot f)).box slot = f (post.box slot) := by
  simp only [box, Array.getElem?_modify, if_true, Array.getElem?_eq_getElem h]
  rfl

theorem box_modify_of_ne (post : Post) {slot slot' : Nat} (h : slot' ≠ slot) (pool : Pool)
    (f : Mailbox → Mailbox) :
    (Post.mk pool (post.boxes.modify slot f)).box slot' = post.box slot' := by
  simp [box, Array.getElem?_modify, Ne.symm h]

theorem modify_of_le {post : Post} {slot : Nat} (h : post.boxes.size ≤ slot)
    (f : Mailbox → Mailbox) : post.boxes.modify slot f = post.boxes := by
  refine Array.toList_inj.1 (Array.toList_modify.trans (List.modify_eq_self ?_))
  rwa [Array.length_toList]

theorem box_of_le {post : Post} {slot : Nat} (h : post.boxes.size ≤ slot) :
    post.box slot = { receiving := false } := by
  rw [box, Array.getElem?_eq_none h]
  rfl

theorem lt_size_of_receiving {post : Post} {slot : Nat}
    (h : (post.box slot).receiving = true) : slot < post.boxes.size := by
  refine Nat.lt_of_not_le fun hle => ?_
  rw [box_of_le hle] at h
  cases h

/-- Only slots that were given out have anything queued. -/
theorem lt_size_of_queue {post : Post} {slot : Nat} (h : (post.box slot).queue ≠ []) :
    slot < post.boxes.size := by
  refine Nat.lt_of_not_le fun hle => ?_
  rw [box_of_le hle] at h
  exact h rfl

theorem receive_of_cons {post : Post} {slot : Nat} {handle : Handle} {rest : List Handle}
    (h : (post.box slot).queue = handle :: rest) :
    post.receive slot =
      (some handle, ⟨post.pool, post.boxes.modify slot fun m => { m with queue := rest }⟩) := by
  rw [receive, h]

theorem receive_of_nil {post : Post} {slot : Nat} (h : (post.box slot).queue = []) :
    post.receive slot = (none, post) := by
  rw [receive, h]

@[simp] theorem size_close (post : Post) (s : SessionRef) :
    (post.close s).boxes.size = post.boxes.size :=
  Array.size_modify

theorem box_close_self {post : Post} {s : SessionRef} (h : s.slot < post.boxes.size) :
    (post.close s).box s.slot = { post.box s.slot with cancelled := true } :=
  box_modify_self h _ _

theorem box_close_of_ne (post : Post) {s : SessionRef} {slot : Nat} (h : slot ≠ s.slot) :
    (post.close s).box slot = post.box slot :=
  box_modify_of_ne post h _ _

/-- Closing a session marks its mailbox, if it has one, and touches no other. -/
theorem box_close_cases (post : Post) (s : SessionRef) (slot : Nat) :
    (post.close s).box slot = post.box slot ∨
      (post.close s).box slot = { post.box slot with cancelled := true } := by
  by_cases hslot : slot = s.slot
  · by_cases hsize : s.slot < post.boxes.size
    · exact .inr (hslot ▸ box_close_self hsize)
    · rw [close, modify_of_le (Nat.le_of_not_lt hsize)]
      exact .inl rfl
  · exact .inl (box_close_of_ne post hslot)

theorem isClosed_close (post : Post) (s t : SessionRef) :
    (post.close s).isClosed t = true ↔ post.isClosed t = true ∨ t.slot = s.slot := by
  by_cases hslot : t.slot = s.slot
  · refine iff_of_true ?_ (.inr hslot)
    by_cases hsize : s.slot < post.boxes.size
    · rw [isClosed, hslot, box_close_self hsize]
      rfl
    -- a slot that was never given out receives nothing
    · have hbox : (post.close s).box s.slot = { receiving := false } :=
        box_of_le (by simpa using hsize)
      rw [isClosed, hslot, hbox]
      rfl
  · rw [isClosed, box_close_of_ne post hslot, isClosed, or_iff_left hslot]

theorem isClosed_foldl_close (sessions : List SessionRef) (post : Post) (t : SessionRef) :
    (sessions.foldl close post).isClosed t = true ↔
      post.isClosed t = true ∨ ∃ s ∈ sessions, t.slot = s.slot := by
  induction sessions generalizing post with
  | nil => simp
  | cons s sessions ih =>
    rw [List.foldl_cons, ih, isClosed_close, or_assoc]
    simp only [List.mem_cons, exists_eq_or_imp]

@[simp] theorem size_dropReceiver (post : Post) (slot : Nat) :
    (post.dropReceiver slot).boxes.size = post.boxes.size :=
  Array.size_modify

theorem box_dropReceiver_self {post : Post} {slot : Nat} (h : slot < post.boxes.size) :
    (post.dropReceiver slot).box slot = { post.box slot with queue := [], receiving := false } :=
  box_modify_self h _ _

theorem box_dropReceiver_of_ne (post : Post) {slot slot' : Nat} (h : slot' ≠ slot) :
    (post.dropReceiver slot).box slot' = post.box slot' :=
  box_modify_of_ne post h _ _

theorem send_of_takes {post : Post} {s : SessionRef} (h : (post.box s.slot).takes = true)
    (handle : Handle) :
    post.send s handle = (.ok (), ⟨post.pool.retain handle, post.boxes.modify s.slot fun m =>
      { m with queue := m.queue ++ [handle] }⟩) := by
  have htakes : (Post.box { post with pool := post.pool.retain handle } s.slot).takes = true := h
  rw [send, deliver, if_pos htakes]

theorem send_of_not_takes {post : Post} {s : SessionRef} (h : ¬ (post.box s.slot).takes = true)
    (handle : Handle) :
    post.send s handle =
      (.error (.closed s.id), ⟨(post.pool.retain handle).release handle, post.boxes⟩) := by
  have htakes : ¬ (Post.box { post with pool := post.pool.retain handle } s.slot).takes = true := h
  rw [send, deliver, if_neg htakes]

end Post

end Switchboard.Session
