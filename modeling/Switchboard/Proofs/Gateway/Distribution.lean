import Switchboard.Proofs.Gateway.Delivery
import Switchboard.Proofs.Session.Counting

/-!
# Distribution — the copies of a payload, and its count

Targets are served one after another. A mailbox that takes payloads gets one copy for each time that
its session is named, one that is closed is passed over, and one that is open and refuses is closed
at the first try. All the while the payload has one handle for each copy and one in the hand, so
when the hand gives its own back the count is the number of copies.
-/

/-! ## 1. Mailboxes -/

namespace Switchboard.Session.Mailbox

/-- An open mailbox that fails every delivery. -/
def Refuses (m : Mailbox) : Prop := m.isClosed = false ∧ m.takes = false

theorem takes_or_isClosed_or_refuses (m : Mailbox) :
    m.takes = true ∨ m.isClosed = true ∨ m.Refuses := by
  cases htakes : m.takes <;> cases hclosed : m.isClosed <;> simp [Refuses, htakes, hclosed]

theorem takes_of_isClosed {m : Mailbox} (h : m.isClosed = true) : m.takes = false := by
  simp [takes_eq, h]

end Switchboard.Session.Mailbox

namespace Switchboard.Gateway

open Session Wire
open List (Perm)

/-! ## 2. One target -/

namespace Delivery

variable {h : Handle} {d : Delivery} {s : SessionRef}

theorem step_of_refuses (hrefuses : (d.post.box s.slot).Refuses) :
    step h d s =
      { d with
        post := Post.close { d.post with pool := (d.post.pool.retain h).release h } s
        log := d.log ++
          [failure s!"failed to deliver to {s.describe}: {(SendFault.closed s.id).message}"] } := by
  have hopen : d.post.isClosed s = false := hrefuses.1
  have htakes : ¬ (d.post.box s.slot).takes = true := by simp [hrefuses.2]
  rw [step, hopen, Post.send_of_not_takes htakes]
  rfl

/-- Being served does not change who takes payloads. -/
theorem takes_step (slot : Nat) :
    ((step h d s).post.box slot).takes = (d.post.box slot).takes := by
  by_cases hslot : slot = s.slot
  · subst hslot
    rcases (d.post.box s.slot).takes_or_isClosed_or_refuses with htakes | hclosed | hrefuses
    · rw [box_step_of_takes htakes]
      rfl
    · rw [box_step_of_isClosed hclosed]
    · rw [step_of_refuses hrefuses, hrefuses.2]
      rcases Post.box_close_cases { d.post with pool := (d.post.pool.retain h).release h } s s.slot
        with hbox | hbox
      · rw [hbox]
        exact hrefuses.2
      · rw [hbox]
        rfl
  · rw [box_step_of_ne hslot]

theorem count_step :
    (step h d s).count = d.count + if (d.post.box s.slot).takes then 1 else 0 := by
  rcases (d.post.box s.slot).takes_or_isClosed_or_refuses with htakes | hclosed | hrefuses
  · rw [step_of_takes htakes, if_pos htakes]
  · rw [step_of_isClosed hclosed, Mailbox.takes_of_isClosed hclosed]
    rfl
  · rw [step_of_refuses hrefuses, hrefuses.2]
    rfl

/-- A session is closed by failing to take its copy, and by nothing else. -/
theorem box_step_of_refuses {slot : Nat} (hrefuses : (d.post.box slot).Refuses) :
    (step h d s).post.box slot =
      if s.slot = slot then { d.post.box slot with cancelled := true } else d.post.box slot := by
  split
  · next hslot =>
    subst hslot
    -- a slot that was never given out is closed
    have hlt : s.slot < d.post.boxes.size := by
      by_contra hge
      have hnone := hrefuses.1
      rw [Post.box_of_le (Nat.le_of_not_lt hge)] at hnone
      cases hnone
    rw [step_of_refuses hrefuses]
    have hlt' : s.slot < ({ d.post with
        pool := (d.post.pool.retain h).release h } : Post).boxes.size := hlt
    exact Post.box_close_self hlt'
  · next hslot => exact box_step_of_ne (Ne.symm hslot)

/-! ## 3. All targets -/

theorem count_foldl (targets : List SessionRef) :
    (targets.foldl (step h) d).count =
      d.count + targets.countP fun t => (d.post.box t.slot).takes := by
  induction targets generalizing d with
  | nil => rfl
  | cons t targets ih =>
    rw [List.foldl_cons, ih, count_step, List.countP_cons]
    simp only [takes_step]
    omega

theorem box_foldl_of_refuses (targets : List SessionRef) {slot : Nat}
    (hrefuses : (d.post.box slot).Refuses) :
    (targets.foldl (step h) d).post.box slot =
      if ∃ t ∈ targets, t.slot = slot then { d.post.box slot with cancelled := true }
      else d.post.box slot := by
  -- up to the first time that it is named the mailbox stays as it is, and after that, too
  induction targets generalizing d with
  | nil => simp
  | cons t targets ih =>
    have hbox := box_step_of_refuses (h := h) (s := t) hrefuses
    rw [List.foldl_cons]
    by_cases hslot : t.slot = slot
    · rw [if_pos hslot] at hbox
      have hclosed : ((step h d t).post.box slot).isClosed = true := by
        rw [hbox]
        rfl
      rw [box_foldl_of_isClosed targets hclosed, hbox, if_pos ⟨t, List.mem_cons_self, hslot⟩]
    · rw [if_neg hslot] at hbox
      rw [ih (hbox ▸ hrefuses), hbox]
      simp [hslot]

theorem isClosed_foldl_of_named {targets : List SessionRef} {t : SessionRef} (ht : t ∈ targets)
    (hfails : (d.post.box t.slot).takes = false) :
    ((targets.foldl (step h) d).post.box t.slot).isClosed = true := by
  rcases (d.post.box t.slot).takes_or_isClosed_or_refuses with htakes | hclosed | hrefuses
  · rw [htakes] at hfails
    cases hfails
  · rw [box_foldl_of_isClosed targets hclosed]
    exact hclosed
  · rw [box_foldl_of_refuses targets hrefuses, if_pos ⟨t, ht, rfl⟩]
    rfl

/-! ## 4. The count of the payload -/

/-- The pool while a new payload is on its way: it has a handle for each of `n` copies and the one
in the hand. -/
def poolWith (pool : Pool) (bytes : Bytes) (n : Nat) : Pool :=
  { pool with payloads := pool.payloads.push ⟨bytes, n + 1, false⟩ }

theorem modify_push {α : Type} (xs : Array α) (x : α) (f : α → α) :
    (xs.push x).modify xs.size f = xs.push (f x) := by
  ext i hi
  · simp
  · simp only [Array.getElem_modify, Array.getElem_push]
    grind

theorem retain_poolWith (pool : Pool) (bytes : Bytes) (n : Nat) :
    (poolWith pool bytes n).retain pool.payloads.size = poolWith pool bytes (n + 1) := by
  simp only [Pool.retain, poolWith, modify_push]
  rfl

theorem get?_poolWith (pool : Pool) (bytes : Bytes) (n : Nat) :
    (poolWith pool bytes n).get? pool.payloads.size = some ⟨bytes, n + 1, false⟩ := by
  simp [Pool.get?, poolWith]

theorem release_poolWith (pool : Pool) (bytes : Bytes) (n : Nat) :
    (poolWith pool bytes n).release pool.payloads.size =
      { pool with payloads := pool.payloads.push ⟨bytes, n, decide (n = 0)⟩ } := by
  rw [Pool.release, get?_poolWith]
  simp only [poolWith, modify_push]
  cases n <;> rfl

theorem pool_foldl {pool : Pool} {bytes : Bytes} (targets : List SessionRef)
    (hpool : d.post.pool = poolWith pool bytes d.count) :
    (targets.foldl (step pool.payloads.size) d).post.pool =
      poolWith pool bytes (targets.foldl (step pool.payloads.size) d).count := by
  induction targets generalizing d with
  | nil => exact hpool
  | cons t targets ih =>
    refine ih ?_
    rcases (d.post.box t.slot).takes_or_isClosed_or_refuses with htakes | hclosed | hrefuses
    · rw [step_of_takes htakes]
      show d.post.pool.retain _ = poolWith pool bytes (d.count + 1)
      rw [hpool, retain_poolWith]
    · rw [step_of_isClosed hclosed]
      exact hpool
    -- the handle that was made for a copy goes back with it
    · rw [step_of_refuses hrefuses]
      show (d.post.pool.retain _).release _ = poolWith pool bytes d.count
      rw [hpool]
      exact Pool.release_retain (get?_poolWith pool bytes d.count) (Nat.succ_ne_zero _)

theorem queued_foldl (targets : List SessionRef) :
    Perm (targets.foldl (step h) d).post.queued
      (List.replicate (targets.countP fun t => (d.post.box t.slot).takes) h ++ d.post.queued) := by
  induction targets generalizing d with
  | nil => exact .refl _
  | cons t targets ih =>
    rw [List.foldl_cons, List.countP_cons]
    refine ih.trans ?_
    simp only [takes_step]
    rcases (d.post.box t.slot).takes_or_isClosed_or_refuses with htakes | hclosed | hrefuses
    -- the copy of this target comes before what was queued, and so do those of the others
    · have hpush := Post.queued_push (Mailbox.receiving_of_takes htakes) (d.post.pool.retain h) h
      rw [step_of_takes htakes, if_pos htakes, List.replicate_succ, List.cons_append]
      exact (hpush.symm.append_left _).trans List.perm_middle
    · rw [step_of_isClosed hclosed, Mailbox.takes_of_isClosed hclosed]
      exact .refl _
    · have hqueued := d.post.queued_modify_of_waiting t.slot ((d.post.pool.retain h).release h)
        (f := fun m => { m with cancelled := true }) fun _ => rfl
      rw [step_of_refuses hrefuses, hrefuses.2]
      exact .of_eq (congrArg (_ ++ ·) hqueued)

end Delivery

/-! ## 5. A distributed payload -/

/-- What comes of a payload whose bytes are queued on every target. -/
structure Distributed (before : Post) (targets : List SessionRef) (bytes : Bytes) (d : Delivery) :
    Prop where
  /-- A mailbox that takes payloads has a copy more for each time that its session is named, behind
  what it had. -/
  taken : ∀ slot, (before.box slot).takes = true →
    d.post.box slot =
      { before.box slot with
        queue := (before.box slot).queue ++
          List.replicate (targets.countP fun t => t.slot = slot) (nextHandle before) }
  /-- A closed session is left as it is. -/
  closed : ∀ slot, (before.box slot).isClosed = true → d.post.box slot = before.box slot
  /-- One that is open and fails is closed if it is named, and gets nothing. -/
  refused : ∀ slot, (before.box slot).Refuses →
    d.post.box slot =
      if ∃ t ∈ targets, t.slot = slot then { before.box slot with cancelled := true }
      else before.box slot
  /-- A target that is closed, or has failed before, is passed over. -/
  skipped : ∀ first s rest, targets = first ++ s :: rest →
    (before.isClosed s = true ∨
      (before.box s.slot).takes = false ∧ ∃ t ∈ first, t.slot = s.slot) →
    distribute before (first ++ rest) bytes = d
  /-- Whoever takes payloads gets the same in whatever order, with the others named or not. -/
  fair : ∀ others : List SessionRef,
    Perm (others.filter fun t => (before.box t.slot).takes)
      (targets.filter fun t => (before.box t.slot).takes) →
    (distribute before others bytes).count = d.count ∧
      ∀ slot, (before.box slot).takes = true →
        (distribute before others bytes).post.box slot = d.post.box slot
  /-- The number that is told is that of the copies queued, and of the handles on the payload. -/
  counted : d.count = d.post.queued.count (nextHandle before)
  count_eq : d.count = targets.countP fun t => (before.box t.slot).takes
  pool_eq : d.post.pool =
    { before.pool with
      payloads := before.pool.payloads.push ⟨bytes, d.count, decide (d.count = 0)⟩ }

section

variable (post : Post) (targets : List SessionRef) (bytes : Bytes)

/-- The delivery before its first target: the payload is made, with the handle in the hand. -/
def undelivered (post : Post) (bytes : Bytes) : Delivery :=
  { post := { post with pool := Delivery.poolWith post.pool bytes 0 } }

theorem distribute_eq :
    distribute post targets bytes =
      let d := targets.foldl (Delivery.step (nextHandle post)) (undelivered post bytes)
      { d with post := { d.post with pool := d.post.pool.release (nextHandle post) } } :=
  rfl

theorem count_distribute :
    (distribute post targets bytes).count = targets.countP fun t => (post.box t.slot).takes := by
  rw [distribute_eq]
  exact (Delivery.count_foldl targets).trans (Nat.zero_add _)

theorem box_distribute_of_refuses {slot : Nat} (h : (post.box slot).Refuses) :
    (distribute post targets bytes).post.box slot =
      if ∃ t ∈ targets, t.slot = slot then { post.box slot with cancelled := true }
      else post.box slot :=
  Delivery.box_foldl_of_refuses (d := undelivered post bytes) targets h

theorem pool_distribute :
    (distribute post targets bytes).post.pool =
      { post.pool with
        payloads := post.pool.payloads.push
          ⟨bytes, (distribute post targets bytes).count,
            decide ((distribute post targets bytes).count = 0)⟩ } := by
  have hstart : (undelivered post bytes).post.pool =
      Delivery.poolWith post.pool bytes (undelivered post bytes).count := rfl
  have hpool := Delivery.pool_foldl targets hstart
  rw [distribute_eq]
  show Pool.release (targets.foldl (Delivery.step post.pool.payloads.size) _).post.pool _ = _
  rw [hpool]
  exact Delivery.release_poolWith _ _ _

theorem queued_distribute :
    Perm (distribute post targets bytes).post.queued
      (List.replicate (distribute post targets bytes).count (nextHandle post) ++ post.queued) := by
  rw [count_distribute]
  exact Delivery.queued_foldl (d := undelivered post bytes) targets

theorem distribute_skip {first rest : List SessionRef} {s : SessionRef}
    (h : post.isClosed s = true ∨
      (post.box s.slot).takes = false ∧ ∃ t ∈ first, t.slot = s.slot) :
    distribute post (first ++ s :: rest) bytes = distribute post (first ++ rest) bytes := by
  have hclosed : (first.foldl (Delivery.step (nextHandle post))
      (undelivered post bytes)).post.isClosed s = true := by
    rcases h with hclosed | ⟨hfails, t, ht, hslot⟩
    · have hbox : ((undelivered post bytes).post.box s.slot).isClosed = true := hclosed
      rw [Post.isClosed, Delivery.box_foldl_of_isClosed first hbox]
      exact hbox
    · rw [Post.isClosed, ← hslot]
      exact Delivery.isClosed_foldl_of_named ht (by rw [hslot]; exact hfails)
  rw [distribute_eq, distribute_eq, List.foldl_append, List.foldl_append, List.foldl_cons,
    Delivery.step_of_isClosed hclosed]

end

/-- Copies are queued only of payloads that have been made. -/
def AllMade (post : Post) : Prop := ∀ h ∈ post.queued, h < post.pool.payloads.size

theorem distributed {post : Post} (hmade : AllMade post) (targets : List SessionRef)
    (bytes : Bytes) :
    Distributed post targets bytes (distribute post targets bytes) where
  taken slot h := box_distribute_of_takes post targets bytes h
  closed slot h := box_distribute_of_isClosed post targets bytes h
  refused slot h := box_distribute_of_refuses post targets bytes h
  skipped first s rest heq h := by rw [heq, distribute_skip post bytes h]
  fair others hperm := by
    refine ⟨?_, fun slot h => ?_⟩
    · simp only [count_distribute, List.countP_eq_length_filter]
      exact hperm.length_eq
    · -- a session that takes payloads is named as often among those that do as among all
      have hcount : ∀ ts : List SessionRef,
          (ts.filter fun t => (post.box t.slot).takes).countP (fun t => t.slot = slot) =
            ts.countP fun t => t.slot = slot := by
        intro ts
        rw [List.countP_filter]
        refine List.countP_congr fun t _ => ?_
        by_cases hslot : t.slot = slot <;> simp [hslot, h]
      rw [box_distribute_of_takes post _ _ h, box_distribute_of_takes post _ _ h, ← hcount others,
        ← hcount targets, hperm.countP_eq]
  counted := by
    have hnew : post.queued.count (nextHandle post) = 0 :=
      List.count_eq_zero.2 fun hin => Nat.lt_irrefl _ (hmade _ hin)
    rw [(queued_distribute post targets bytes).count_eq, List.count_append,
      List.count_replicate_self, hnew, Nat.add_zero]
  count_eq := count_distribute post targets bytes
  pool_eq := pool_distribute post targets bytes

/-- Bytes are queued on any list of targets exactly as often as it names a session that takes them,
whoever else it names, and the payload has as many handles as copies. A packet does this to the
sessions that it is for, and leaves the registries of its node alone. -/
theorem copies_exact {node : Node} (hmade : AllMade node.post) :
    (∀ targets bytes,
      Distributed node.post targets bytes (distribute node.post targets bytes)) ∧
    ∀ packet : Packet,
      (node.targets packet = [] → node.deliver packet = (0, node, [])) ∧
      (node.targets packet ≠ [] → ∃ d,
        Distributed node.post (node.targets packet) packet.payload d ∧
        node.deliver packet = (d.count, { node with post := d.post }, d.log)) := by
  refine ⟨distributed hmade, fun packet => ⟨fun hnone => ?_, fun hsome => ?_⟩⟩
  · rw [Node.deliver, hnone]
  · refine ⟨_, distributed hmade _ _, ?_⟩
    unfold Node.deliver
    split
    · next hnone => exact absurd hnone hsome
    · rfl

/-- Four sessions: one is open, one is closed, one has lost its receiver, and one refuses. -/
def mixedNode : Node where
  post :=
    { pool := { payloads := #[⟨[1], 1, false⟩] }
      boxes := #[{ queue := [0] }, { cancelled := true }, { receiving := false },
        { refusing := true }] }

/-- All four, two of them twice. -/
def mixedTargets : List SessionRef :=
  [3, 0, 1, 3, 0, 2].map fun slot => ⟨slot, slot.toUInt64, 100, "token"⟩

theorem copies_exact_mixed :
    AllMade mixedNode.post ∧
    let d := distribute mixedNode.post mixedTargets [7, 7]
    d.post.box 0 = { queue := [0, 1, 1] } ∧
    d.post.box 1 = { cancelled := true } ∧
    d.post.box 3 = { refusing := true, cancelled := true } ∧
    d.count = 2 ∧ d.post.queued.count 1 = 2 ∧
    d.post.pool.payloads = #[⟨[1], 1, false⟩, ⟨[7, 7], 2, false⟩] := by
  have hmade : AllMade mixedNode.post := by
    unfold AllMade
    decide
  have hd := (copies_exact hmade).1 mixedTargets [7, 7]
  have hcount : (distribute mixedNode.post mixedTargets [7, 7]).count = 2 :=
    hd.count_eq.trans (by decide)
  refine ⟨hmade, (hd.taken 0 (by decide)).trans (by decide), hd.closed 1 (by decide),
    (hd.refused 3 ⟨by decide, by decide⟩).trans (by decide), hcount,
    hd.counted.symm.trans hcount, ?_⟩
  have hpool := hd.pool_eq
  rw [hcount] at hpool
  exact congrArg Pool.payloads hpool

end Switchboard.Gateway
