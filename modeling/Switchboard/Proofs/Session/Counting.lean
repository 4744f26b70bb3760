import Mathlib.Data.List.Induction
import Mathlib.Data.List.Perm.Basic
import Switchboard.Proofs.Session.Post
import Switchboard.Session.Custody

/-!
# Counting — the count of a payload is the number of its handles

A handle is held under a name or waits in a mailbox whose receiver is there. `Pool.Counts` says that
a pool counts exactly the handles of a list; making, retaining and giving back keep it, the list
growing or shrinking by the one handle. Every operation on a custody is made of these, so all counts
are exact after any of them.
-/

namespace Switchboard.Session

open List (Perm)

/-! ## 1. One payload -/

namespace Payload

/-- A payload with as many handles out as it counts, released once there are none. -/
structure Counts (p : Payload) (live : Nat) : Prop where
  handles : p.handles = live
  released : p.released = true ↔ live = 0

theorem Counts.retain {p : Payload} {live : Nat} (h : p.Counts live) (hlive : live ≠ 0) :
    p.retain.Counts (live + 1) where
  handles := congrArg (· + 1) h.handles
  released := by
    have hreleased : ¬ p.released = true := fun hr => hlive (h.released.1 hr)
    exact ⟨fun hr => absurd hr hreleased, fun hzero => nomatch hzero⟩

theorem Counts.release {p : Payload} {live : Nat} (h : p.Counts (live + 1)) :
    ∃ p', p.release? = some p' ∧ p'.Counts live := by
  obtain ⟨bytes, handles, released⟩ := p
  obtain rfl : handles = live + 1 := h.handles
  cases live with
  | zero => exact ⟨_, rfl, rfl, fun _ => rfl, fun _ => rfl⟩
  | succ n =>
    have hreleased : ¬ released = true := fun hr => nomatch h.released.1 hr
    exact ⟨_, rfl, rfl, fun hr => absurd hr hreleased, fun hzero => nomatch hzero⟩

end Payload

/-! ## 2. The payloads of a pool -/

namespace Pool

/-- The handles that are out are these, and nothing was given back too often. -/
structure Counts (pool : Pool) (live : List Handle) : Prop where
  made : ∀ h ∈ live, h < pool.payloads.size
  counted : ∀ h p, pool.get? h = some p → p.Counts (live.count h)
  faults : pool.faults = []

variable {pool : Pool} {live live' : List Handle} {h : Handle}

theorem Counts.perm (hc : pool.Counts live) (hperm : Perm live live') : pool.Counts live' where
  made h hh := hc.made h (hperm.mem_iff.2 hh)
  counted h p hp := by
    rw [← hperm.count_eq]
    exact hc.counted h p hp
  faults := hc.faults

theorem Counts.create (hc : pool.Counts live) (bytes : Bytes) :
    (pool.create bytes).2.Counts ((pool.create bytes).1 :: live) where
  made h hh := by
    show h < (pool.payloads.push _).size
    rw [Array.size_push]
    rcases List.mem_cons.1 hh with rfl | hh
    · exact Nat.lt_succ_self _
    · exact Nat.lt_succ_of_lt (hc.made h hh)
  counted h p hp := by
    -- no handle on the new payload was out before
    rw [get?_create] at hp
    show p.Counts ((pool.payloads.size :: live).count h)
    split at hp
    · next hnew =>
      have hnone : live.count pool.payloads.size = 0 :=
        List.count_eq_zero.2 fun hin => Nat.lt_irrefl _ (hc.made _ hin)
      obtain rfl := Option.some.inj hp
      rw [hnew, List.count_cons_self, hnone]
      exact ⟨rfl, by simp⟩
    · next hold =>
      rw [List.count_cons_of_ne (Ne.symm hold)]
      exact hc.counted h p hp
  faults := hc.faults

theorem Counts.retain (hc : pool.Counts live) (hlive : h ∈ live) :
    (pool.retain h).Counts (h :: live) where
  made h' hh' := by
    rw [size_retain]
    rcases List.mem_cons.1 hh' with rfl | hh'
    · exact hc.made _ hlive
    · exact hc.made h' hh'
  counted h' p hp := by
    rw [get?_retain] at hp
    split at hp
    · next heq =>
      subst heq
      obtain ⟨q, hq, rfl⟩ := Option.map_eq_some_iff.1 hp
      rw [List.count_cons_self]
      exact (hc.counted h q hq).retain (Nat.ne_of_gt (List.count_pos_iff.2 hlive))
    · next hne =>
      rw [List.count_cons_of_ne hne]
      exact hc.counted h' p hp
  faults := hc.faults

theorem Counts.release (hc : pool.Counts (h :: live)) : (pool.release h).Counts live where
  made h' hh' := by
    rw [size_release]
    exact hc.made h' (List.mem_cons_of_mem _ hh')
  counted h' p hp := by
    rw [get?_release] at hp
    split at hp
    · next heq =>
      subst heq
      obtain ⟨q, hq, rfl⟩ := Option.map_eq_some_iff.1 hp
      have hcount := hc.counted h q hq
      rw [List.count_cons_self] at hcount
      obtain ⟨q', hq', hcounts⟩ := hcount.release
      rwa [hq']
    · next hne =>
      have hcount := hc.counted h' p hp
      rwa [List.count_cons_of_ne hne] at hcount
  faults := by
    rw [Pool.release]
    cases hp : pool.get? h with
    | none => exact hc.faults
    | some p =>
      -- one handle at least is out, the one that is given back
      have hcount := hc.counted h p hp
      rw [List.count_cons_self] at hcount
      obtain ⟨p', hp', -⟩ := hcount.release
      simp [hp', hc.faults]

theorem Counts.releaseAll {hs : List Handle} (hc : pool.Counts (hs ++ live)) :
    (pool.releaseAll hs).Counts live := by
  induction hs generalizing pool with
  | nil => exact hc
  | cons h hs ih => exact ih hc.release

/-- A handle more that is given back at once leaves no trace. -/
theorem release_retain {p : Payload} (hp : pool.get? h = some p) (hhandles : p.handles ≠ 0) :
    (pool.retain h).release h = pool := by
  have hback : p.retain.release? = some p := by
    obtain ⟨bytes, handles, released⟩ := p
    obtain ⟨n, rfl⟩ := Nat.exists_eq_succ_of_ne_zero hhandles
    rfl
  have hget : (pool.retain h).get? h = some p.retain := by
    rw [get?_retain, if_pos rfl, hp]
    rfl
  have hpayloads : ((pool.retain h).release h).payloads = pool.payloads := by
    refine Array.ext_getElem? fun h' => ?_
    show ((pool.retain h).release h).get? h' = pool.get? h'
    rw [get?_release]
    split
    · next heq => rw [← heq, hget, hp, Option.map_some, hback, Option.getD_some]
    · next hne => rw [get?_retain, if_neg hne]
  have hfaults : ((pool.retain h).release h).faults = pool.faults := by
    rw [release, hget]
    simp [hback, retain]
  exact congr (congrArg Pool.mk hpayloads) hfaults

/-- The same payloads later, and maybe more: their bytes stay, and what is released stays so. -/
def Later (pool pool' : Pool) : Prop :=
  ∀ h p, pool.get? h = some p → ∃ p', pool'.get? h = some p' ∧ p'.bytes = p.bytes ∧
    (p.released = true → p'.released = true)

theorem Later.refl (pool : Pool) : pool.Later pool := fun _ p hp => ⟨p, hp, rfl, id⟩

theorem Later.trans {pool' pool'' : Pool} (h : pool.Later pool') (h' : pool'.Later pool'') :
    pool.Later pool'' := by
  intro handle p hp
  obtain ⟨p', hp', hbytes, hreleased⟩ := h handle p hp
  obtain ⟨p'', hp'', hbytes', hreleased'⟩ := h' handle p' hp'
  exact ⟨p'', hp'', hbytes'.trans hbytes, fun hr => hreleased' (hreleased hr)⟩

theorem later_create (pool : Pool) (bytes : Bytes) : pool.Later (pool.create bytes).2 := by
  intro h p hp
  have hlt : h < pool.payloads.size := (Array.getElem?_eq_some_iff.1 hp).1
  refine ⟨p, ?_, rfl, id⟩
  rw [get?_create, if_neg (Nat.ne_of_lt hlt)]
  exact hp

theorem later_retain (pool : Pool) (h : Handle) : pool.Later (pool.retain h) := by
  intro h' p hp
  rw [get?_retain, hp]
  split
  · exact ⟨_, rfl, rfl, id⟩
  · exact ⟨p, rfl, rfl, id⟩

theorem later_release (pool : Pool) (h : Handle) : pool.Later (pool.release h) := by
  intro h' p hp
  rw [get?_release, hp]
  split
  · exact ⟨_, rfl, bytes_release? p, released_release?⟩
  · exact ⟨p, rfl, rfl, id⟩

theorem later_releaseAll (pool : Pool) (hs : List Handle) : pool.Later (pool.releaseAll hs) := by
  induction hs generalizing pool with
  | nil => exact .refl pool
  | cons h hs ih => exact (pool.later_release h).trans (ih _)

end Pool

/-! ## 3. The handles of a custody -/

/-- The handles in a mailbox whose receiver can still take them. -/
def Mailbox.waiting (m : Mailbox) : List Handle := if m.receiving then m.queue else []

/-- A mailbox of a session: it does not refuse, and without a receiver nothing is left in it. -/
structure Mailbox.Plain (m : Mailbox) : Prop where
  willing : m.refusing = false
  emptied : m.receiving = false → m.queue = []

theorem Mailbox.Plain.waiting_eq {m : Mailbox} (h : m.Plain) : m.waiting = m.queue := by
  rw [waiting]
  split
  · rfl
  · next hgone => exact (h.emptied (Bool.eq_false_iff.2 hgone)).symm

theorem Mailbox.Plain.receiving_of_queue {m : Mailbox} (h : m.Plain) (hqueue : m.queue ≠ []) :
    m.receiving = true := by
  by_contra hgone
  exact hqueue (h.emptied (Bool.eq_false_iff.2 hgone))

/-- The handles in all mailboxes. -/
def Post.queued (post : Post) : List Handle := post.boxes.toList.flatMap Mailbox.waiting

/-- The handles held under names and those in mailboxes. -/
def Custody.handles (c : Custody) : List Handle := c.held.values ++ c.post.queued

namespace Post

variable {post : Post} {slot : Nat}

/-- The handles in all mailboxes but one. -/
def queuedBeside (post : Post) (slot : Nat) : List Handle :=
  (post.boxes.toList.take slot ++ post.boxes.toList.drop (slot + 1)).flatMap Mailbox.waiting

theorem queued_modify (h : slot < post.boxes.size) (pool : Pool) (f : Mailbox → Mailbox) :
    Perm (Post.mk pool (post.boxes.modify slot f)).queued
      ((f (post.box slot)).waiting ++ post.queuedBeside slot) := by
  have hlt : slot < post.boxes.toList.length := by rwa [Array.length_toList]
  have hbox : post.boxes.toList[slot] = post.box slot := by
    rw [Array.getElem_toList, box, Array.getElem?_eq_getElem h]
    rfl
  rw [queued, Array.toList_modify, List.modify_eq_take_cons_drop hlt, hbox, queuedBeside,
    List.flatMap_append, List.flatMap_append, List.flatMap_cons]
  exact List.perm_append_comm_assoc _ _ _

theorem queued_perm (h : slot < post.boxes.size) :
    Perm post.queued ((post.box slot).waiting ++ post.queuedBeside slot) := by
  have hsame : post.boxes.modify slot id = post.boxes :=
    Array.toList_inj.1 (Array.toList_modify.trans (List.modify_id slot _))
  have hperm := queued_modify h post.pool id
  rwa [hsame] at hperm

theorem queued_push (h : (post.box slot).receiving = true) (pool : Pool) (handle : Handle) :
    Perm (handle :: post.queued) (Post.mk pool
      (post.boxes.modify slot fun m => { m with queue := m.queue ++ [handle] })).queued := by
  have hlt := lt_size_of_receiving h
  refine List.Perm.trans ?_ (queued_modify hlt pool _).symm
  rw [Mailbox.waiting, if_pos h, List.append_assoc]
  refine List.Perm.trans ((queued_perm hlt).cons handle) ?_
  rw [Mailbox.waiting, if_pos h]
  exact List.perm_middle.symm

theorem queued_pop {handle : Handle} {rest : List Handle} (h : (post.box slot).receiving = true)
    (hqueue : (post.box slot).queue = handle :: rest) (pool : Pool) :
    Perm post.queued (handle ::
      (Post.mk pool (post.boxes.modify slot fun m => { m with queue := rest })).queued) := by
  have hlt := lt_size_of_receiving h
  have hafter := queued_modify hlt pool fun m => { m with queue := rest }
  rw [Mailbox.waiting, if_pos h] at hafter
  refine (queued_perm hlt).trans ?_
  rw [Mailbox.waiting, if_pos h, hqueue]
  exact hafter.symm.cons handle

/-- A change that keeps what waits in a mailbox keeps it in all. -/
theorem queued_modify_of_waiting (post : Post) (slot : Nat) (pool : Pool) {f : Mailbox → Mailbox}
    (hf : ∀ m, (f m).waiting = m.waiting) :
    (Post.mk pool (post.boxes.modify slot f)).queued = post.queued := by
  have hall : ∀ (boxes : List Mailbox) (i : Nat),
      (boxes.modify i f).flatMap Mailbox.waiting = boxes.flatMap Mailbox.waiting := by
    intro boxes
    induction boxes with
    | nil => intro i; cases i <;> rfl
    | cons m boxes ih =>
      intro i
      cases i with
      | zero => simp [hf]
      | succ i => simp [ih]
  rw [queued, Array.toList_modify, hall, queued]

/-- All mailboxes of a post are plain. -/
def Plain (post : Post) : Prop := ∀ slot, (post.box slot).Plain

theorem Plain.modify (h : post.Plain) (pool : Pool) {f : Mailbox → Mailbox}
    (hf : (f (post.box slot)).Plain) : (Post.mk pool (post.boxes.modify slot f)).Plain := by
  intro slot'
  by_cases hslot : slot' = slot
  · subst hslot
    by_cases hlt : slot' < post.boxes.size
    · rw [box_modify_self hlt]
      exact hf
    · rw [modify_of_le (Nat.le_of_not_lt hlt)]
      exact h slot'
  · rw [box_modify_of_ne post hslot]
    exact h slot'

/-- What goes with a receiver is what its mailbox held. -/
theorem Plain.queued_dropReceiver (h : post.Plain) (slot : Nat) :
    Perm post.queued ((post.box slot).queue ++ (post.dropReceiver slot).queued) := by
  by_cases hlt : slot < post.boxes.size
  · have hafter : Perm (post.dropReceiver slot).queued (post.queuedBeside slot) :=
      queued_modify hlt _ _
    refine (queued_perm hlt).trans ?_
    rw [(h slot).waiting_eq]
    exact hafter.symm.append_left _
  · -- a slot that was never given out has no mailbox to lose
    rw [queued, queued, dropReceiver, box_of_le (Nat.le_of_not_lt hlt),
      modify_of_le (Nat.le_of_not_lt hlt)]
    exact List.Perm.refl _

theorem Plain.openBox (h : post.Plain) : (post.openBox false).2.Plain := by
  intro slot
  rw [box_openBox]
  split
  · exact ⟨rfl, fun _ => rfl⟩
  · exact h slot

end Post

namespace Custody

/-- The count of every payload is the number of its handles: those in a custody and those in the
hands of the operation under way. -/
structure Exact (c : Custody) (inHand : List Handle) : Prop where
  counts : c.post.pool.Counts (inHand ++ c.handles)
  plain : c.post.Plain

variable {c : Custody} {inHand : List Handle} {h : Handle}

theorem exact_empty : ({} : Custody).Exact [] where
  counts :=
    { made := fun _ hh => absurd hh List.not_mem_nil
      counted := fun _ _ hp => nomatch hp
      faults := rfl }
  plain _ := ⟨rfl, fun _ => rfl⟩

theorem handles_close (c : Custody) (s : SessionRef) : (c.close s).handles = c.handles := by
  have hqueued : (c.post.close s).queued = c.post.queued :=
    c.post.queued_modify_of_waiting s.slot c.post.pool fun _ => rfl
  exact congrArg (c.held.values ++ ·) hqueued

theorem get?_held_drop (c : Custody) (name : String) : (c.drop name).held.get? name = none := by
  rw [drop]
  cases hname : c.held.get? name with
  | none => exact hname
  | some h => simp

/-- Handles that go from the hand into the mailboxes, or the other way round. -/
theorem perm_moved {moved queued queued' : List Handle} (inHand held : List Handle)
    (h : Perm (moved ++ queued) queued') :
    Perm (moved ++ (inHand ++ (held ++ queued))) (inHand ++ (held ++ queued')) := by
  refine (List.perm_append_comm_assoc moved inHand _).trans (List.Perm.append_left inHand ?_)
  exact (List.perm_append_comm_assoc moved held _).trans (h.append_left _)

namespace Exact

theorem create (hc : c.Exact inHand) (bytes : Bytes) :
    { c with post := { c.post with pool := (c.post.pool.create bytes).2 } }.Exact
      ((c.post.pool.create bytes).1 :: inHand) :=
  ⟨hc.counts.create bytes, hc.plain⟩

theorem retain (hc : c.Exact inHand) (hheld : h ∈ c.handles) :
    { c with post := { c.post with pool := c.post.pool.retain h } }.Exact (h :: inHand) :=
  ⟨hc.counts.retain (List.mem_append_right _ hheld), hc.plain⟩

theorem release (hc : c.Exact (h :: inHand)) :
    { c with post := { c.post with pool := c.post.pool.release h } }.Exact inHand :=
  ⟨hc.counts.release, hc.plain⟩

/-- A queued handle passes from the hand into the mailbox, and a refused one is given back. -/
theorem deliver (hc : c.Exact (h :: inHand)) (s : SessionRef) :
    { c with post := (c.post.deliver s h).2 }.Exact inHand := by
  rw [Post.deliver]
  split
  · next htakes =>
    have hreceiving : (c.post.box s.slot).receiving = true := Mailbox.receiving_of_takes htakes
    have hpush : Perm ([h] ++ c.post.queued) _ := Post.queued_push hreceiving c.post.pool h
    refine ⟨hc.counts.perm (perm_moved inHand c.held.values hpush), hc.plain.modify _ ?_⟩
    exact ⟨(hc.plain s.slot).willing, fun hgone => absurd hreceiving (by simpa using hgone)⟩
  · exact hc.release

/-- The next handle of a mailbox comes into the hand. -/
theorem receive (hc : c.Exact inHand) {slot : Nat} {rest : List Handle}
    (hqueue : (c.post.box slot).queue = h :: rest) :
    { c with post := (c.post.receive slot).2 }.Exact (h :: inHand) := by
  have hreceiving : (c.post.box slot).receiving = true :=
    (hc.plain slot).receiving_of_queue (hqueue ▸ List.cons_ne_nil h rest)
  have hpop : Perm c.post.queued ([h] ++ _) := Post.queued_pop hreceiving hqueue c.post.pool
  rw [Post.receive_of_cons hqueue]
  refine ⟨hc.counts.perm (perm_moved inHand c.held.values hpop.symm).symm, hc.plain.modify _ ?_⟩
  exact ⟨(hc.plain slot).willing, fun hgone => absurd hreceiving (by simpa using hgone)⟩

theorem openSession (hc : c.Exact inHand) (id : UInt64) : (c.openSession id).2.Exact inHand := by
  have hqueued : (c.post.openBox false).2.queued = c.post.queued := by
    simp [Post.openBox, Post.queued, Mailbox.waiting]
  refine ⟨?_, hc.plain.openBox⟩
  show c.post.pool.Counts (inHand ++ (c.held.values ++ (c.post.openBox false).2.queued))
  rw [hqueued]
  exact hc.counts

/-- What was queued stays queued when the session is closed. -/
theorem close (hc : c.Exact inHand) (s : SessionRef) : (c.close s).Exact inHand := by
  refine ⟨?_, hc.plain.modify _ ⟨(hc.plain s.slot).willing, (hc.plain s.slot).emptied⟩⟩
  show c.post.pool.Counts (inHand ++ (c.close s).handles)
  rw [handles_close]
  exact hc.counts

/-- All that was queued is given back with the receiver. -/
theorem dropReceiver (hc : c.Exact inHand) (slot : Nat) : (c.dropReceiver slot).Exact inHand := by
  have hdropped := (hc.plain.queued_dropReceiver slot).symm
  refine ⟨?_, hc.plain.modify _ ⟨(hc.plain slot).willing, fun _ => rfl⟩⟩
  exact (hc.counts.perm (perm_moved inHand c.held.values hdropped).symm).releaseAll

/-- The handle held under a name, if any, is given back. -/
theorem drop (hc : c.Exact inHand) (name : String) : (c.drop name).Exact inHand := by
  rw [Custody.drop]
  cases hname : c.held.get? name with
  | none => exact hc
  | some h =>
    have hheld : Perm (c.held.values ++ c.post.queued)
        (h :: ((c.held.erase name).values ++ c.post.queued)) :=
      (Table.values_perm_of_get? hname).append_right _
    have hcounts := hc.counts.perm ((hheld.append_left inHand).trans List.perm_middle)
    exact ⟨hcounts.release, hc.plain⟩

/-- The handle in the hand is held, and the one held under the name before is given back. -/
theorem hold (hc : c.Exact (h :: inHand)) (name : String) : (c.hold name h).Exact inHand := by
  have hdropped := hc.drop name
  refine ⟨hdropped.counts.perm ?_, hdropped.plain⟩
  show Perm _ (inHand ++ (((c.drop name).held.insert name h).values ++ (c.drop name).post.queued))
  rw [Table.values_insert_of_get?_eq_none (get?_held_drop c name), List.append_assoc]
  exact ((List.perm_middle.append_left inHand).trans List.perm_middle).symm

end Exact

/-! ## 4. Operations -/

/-- One operation on handles, on a session or on its receiver. -/
inductive Operation where
  | openSession (id : UInt64)
  | create (name : String) (bytes : Bytes)
  | retain (name new : String)
  | send (s : SessionRef) (name : String)
  | receive (slot : Nat)
  | receiveAs (slot : Nat) (name : String)
  | drop (name : String)
  | close (s : SessionRef)
  | dropReceiver (slot : Nat)
  deriving DecidableEq, Repr

def apply (c : Custody) : Operation → Custody
  | .openSession id => (c.openSession id).2
  | .create name bytes => (c.create name bytes).2
  | .retain name new => c.retain name new
  | .send s name => (c.send s name).2
  | .receive slot => (c.receive slot).2
  | .receiveAs slot name => (c.receiveAs slot name).2
  | .drop name => c.drop name
  | .close s => c.close s
  | .dropReceiver slot => c.dropReceiver slot

def after (ops : List Operation) : Custody := ops.foldl apply {}

theorem after_append (ops more : List Operation) :
    after (ops ++ more) = more.foldl apply (after ops) :=
  List.foldl_append

theorem mem_handles_of_held {name : String} (hname : c.held.get? name = some h) :
    h ∈ c.handles := by
  have hvalue : h ∈ c.held.values :=
    (Table.values_perm_of_get? hname).mem_iff.2 List.mem_cons_self
  exact List.mem_append_left _ hvalue

theorem Exact.apply (hc : c.Exact []) (op : Operation) : (c.apply op).Exact [] := by
  cases op with
  | openSession id => exact hc.openSession id
  | create name bytes => exact (hc.create bytes).hold name
  | retain name new =>
    rw [Custody.apply, Custody.retain]
    cases hname : c.held.get? name with
    | none => exact hc
    | some h => exact (hc.retain (mem_handles_of_held hname)).hold new
  | send s name =>
    rw [Custody.apply, send]
    cases hname : c.held.get? name with
    | none => exact hc
    | some h => exact (hc.retain (mem_handles_of_held hname)).deliver s
  | receive slot =>
    rw [Custody.apply, Custody.receive]
    cases hqueue : (c.post.box slot).queue with
    | nil => rwa [Post.receive_of_nil hqueue]
    | cons h rest =>
      have hreceived := hc.receive hqueue
      rw [Post.receive_of_cons hqueue] at hreceived ⊢
      exact hreceived.release
  | receiveAs slot name =>
    rw [Custody.apply, Custody.receiveAs]
    cases hqueue : (c.post.box slot).queue with
    | nil => rwa [Post.receive_of_nil hqueue]
    | cons h rest =>
      have hreceived := hc.receive hqueue
      rw [Post.receive_of_cons hqueue] at hreceived ⊢
      exact hreceived.hold name
  | drop name => exact hc.drop name
  | close s => exact hc.close s
  | dropReceiver slot => exact hc.dropReceiver slot

theorem exact_after (ops : List Operation) : (after ops).Exact [] := by
  induction ops using List.reverseRecOn with
  | nil => exact exact_empty
  | append_singleton ops op ih =>
    rw [after_append]
    exact ih.apply op

/-! ## 5. New payloads and sent ones -/

/-- A new payload has its bytes and one handle. -/
theorem Exact.get?_create (hc : c.Exact []) (name : String) (bytes : Bytes) :
    c.post.pool.get? (c.create name bytes).1 = none ∧
      (c.create name bytes).2.post.pool.get? (c.create name bytes).1 = some { bytes } := by
  have hnew : (c.post.pool.create bytes).2.get? c.post.pool.payloads.size = some { bytes } := by
    rw [Pool.get?_create, if_pos rfl]
  refine ⟨Array.getElem?_eq_none (Nat.le_refl _), ?_⟩
  show (Custody.drop { c with post := { c.post with pool := (c.post.pool.create bytes).2 } }
    name).post.pool.get? c.post.pool.payloads.size = _
  rw [Custody.drop]
  cases hname : c.held.get? name with
  | none => exact hnew
  | some h =>
    -- the handle that is given back is one of before
    have hold := hc.counts.made h (mem_handles_of_held hname)
    exact (Pool.get?_release _ _ _).trans ((if_neg (Nat.ne_of_lt hold)).trans hnew)

/-- A payload that is queued has one handle more. -/
theorem Exact.send_of_open (hc : c.Exact []) {name : String} (hname : c.held.get? name = some h)
    {s : SessionRef} (hopen : c.post.isClosed s = false) :
    (c.send s name).1 = some (.ok ()) ∧ Perm (c.send s name).2.handles (h :: c.handles) := by
  have htakes : (c.post.box s.slot).takes = true := by
    rw [Post.isClosed] at hopen
    rw [Mailbox.takes_eq, hopen, (hc.plain s.slot).willing]
    rfl
  have hpush := Post.queued_push (Mailbox.receiving_of_takes htakes) (c.post.pool.retain h) h
  rw [send, hname]
  refine ⟨congrArg (some ·.1) (Post.send_of_takes htakes h), ?_⟩
  show Perm (c.held.values ++ (c.post.send s h).2.queued) _
  rw [Post.send_of_takes htakes]
  exact (hpush.symm.append_left _).trans List.perm_middle

/-- A payload that a closed session was sent is as it was. -/
theorem Exact.send_of_closed (hc : c.Exact []) {name : String}
    (hname : c.held.get? name = some h) {s : SessionRef} (hclosed : c.post.isClosed s = true) :
    c.send s name = (some (.error (.closed s.id)), c) := by
  have hheld := mem_handles_of_held hname
  obtain ⟨p, hp⟩ : ∃ p, c.post.pool.get? h = some p :=
    ⟨_, Array.getElem?_eq_getElem (hc.counts.made h hheld)⟩
  have hhandles : p.handles ≠ 0 := by
    rw [(hc.counts.counted h p hp).handles]
    exact Nat.ne_of_gt (List.count_pos_iff.2 hheld)
  have htakes : ¬ (c.post.box s.slot).takes = true := by
    rw [Post.isClosed] at hclosed
    rw [Mailbox.takes_eq, hclosed]
    exact Bool.false_ne_true
  rw [send, hname]
  show (some (c.post.send s h).1, { c with post := (c.post.send s h).2 }) = _
  rw [Post.send_of_not_takes htakes, Pool.release_retain hp hhandles]

/-! ## 6. What stays of a payload -/

theorem later_drop (c : Custody) (name : String) : c.post.pool.Later (c.drop name).post.pool := by
  rw [drop]
  split
  · exact .refl _
  · exact Pool.later_release _ _

theorem later_send (post : Post) (s : SessionRef) (h : Handle) :
    post.pool.Later (post.send s h).2.pool := by
  rw [Post.send, Post.deliver]
  split
  · exact Pool.later_retain _ h
  · exact (Pool.later_retain _ h).trans (Pool.later_release _ h)

theorem later_hold (c : Custody) (name : String) (h : Handle) :
    c.post.pool.Later (c.hold name h).post.pool :=
  later_drop c name

theorem later_apply (c : Custody) (op : Operation) : c.post.pool.Later (c.apply op).post.pool := by
  cases op with
  | openSession id => exact .refl _
  | create name bytes =>
    have hheld := later_hold { c with post := { c.post with pool := (c.post.pool.create bytes).2 } }
      name (c.post.pool.create bytes).1
    exact (c.post.pool.later_create bytes).trans hheld
  | retain name new =>
    rw [apply, retain]
    cases c.held.get? name with
    | none => exact .refl _
    | some h =>
      have hheld := later_hold { c with post := { c.post with pool := c.post.pool.retain h } } new h
      exact (c.post.pool.later_retain h).trans hheld
  | send s name =>
    rw [apply, send]
    cases c.held.get? name with
    | none => exact .refl _
    | some h => exact later_send c.post s h
  | receive slot =>
    rw [apply, receive]
    cases hqueue : (c.post.box slot).queue with
    | nil =>
      rw [Post.receive_of_nil hqueue]
      exact .refl _
    | cons h rest =>
      rw [Post.receive_of_cons hqueue]
      exact c.post.pool.later_release h
  | receiveAs slot name =>
    rw [apply, receiveAs]
    cases hqueue : (c.post.box slot).queue with
    | nil =>
      rw [Post.receive_of_nil hqueue]
      exact .refl _
    | cons h rest =>
      have hheld := later_hold { c with post := (c.post.receive slot).2 } name h
      rw [Post.receive_of_cons hqueue] at hheld ⊢
      exact hheld
  | drop name => exact later_drop c name
  | close s => exact .refl _
  | dropReceiver slot => exact Pool.later_releaseAll _ _

theorem later_foldl (c : Custody) (ops : List Operation) :
    c.post.pool.Later (ops.foldl apply c).post.pool := by
  induction ops generalizing c with
  | nil => exact .refl _
  | cons op ops ih => exact (later_apply c op).trans (ih _)

/-! ## 7. After any operations -/

/-- After any operations the count of each payload is the number of handles that are held or wait in
a mailbox with a receiver, and it is released if and only if there are none. No handle was given
back too often, each is on a payload, and whatever comes after, the bytes of a payload stay and a
released one stays released, without handles. A new payload has one handle, and one more for every
time that it is queued; what a closed session is sent, and what was queued before the session was
closed, is as it was. -/
theorem counted_after (ops : List Operation) :
    (∀ h p, (after ops).post.pool.get? h = some p →
      p.handles = (after ops).handles.count h ∧
      (p.released = true ↔ (after ops).handles.count h = 0)) ∧
    (after ops).post.pool.faults = [] ∧
    (∀ h ∈ (after ops).handles, ((after ops).post.pool.get? h).isSome = true) ∧
    (∀ more h p, (after ops).post.pool.get? h = some p →
      ∃ p', (after (ops ++ more)).post.pool.get? h = some p' ∧ p'.bytes = p.bytes ∧
        (p.released = true → p'.released = true ∧ p'.handles = 0)) ∧
    (∀ name bytes, (after ops).post.pool.get? ((after ops).create name bytes).1 = none ∧
      ((after ops).create name bytes).2.post.pool.get? ((after ops).create name bytes).1 =
        some { bytes }) ∧
    (∀ name h, (after ops).held.get? name = some h → ∀ s,
      ((after ops).post.isClosed s = false → ((after ops).send s name).1 = some (.ok ()) ∧
        Perm ((after ops).send s name).2.handles (h :: (after ops).handles)) ∧
      ((after ops).post.isClosed s = true →
        (after ops).send s name = (some (.error (.closed s.id)), after ops))) ∧
    ∀ s, ((after ops).close s).post.pool = (after ops).post.pool ∧
      ((after ops).close s).handles = (after ops).handles := by
  have hexact := (exact_after ops).counts
  rw [List.nil_append] at hexact
  refine ⟨?counted, hexact.faults, ?made, ?later, (exact_after ops).get?_create, ?sent,
    fun s => ⟨rfl, handles_close _ s⟩⟩
  case counted =>
    intro h p hp
    obtain ⟨hhandles, hreleased⟩ := hexact.counted h p hp
    exact ⟨hhandles, hreleased⟩
  case made =>
    intro h hh
    rw [Pool.get?, Array.getElem?_eq_getElem (hexact.made h hh)]
    rfl
  case later =>
    intro more h p hp
    obtain ⟨p', hp', hbytes, hreleased⟩ := later_foldl (after ops) more h p hp
    rw [← after_append] at hp'
    refine ⟨p', hp', hbytes, fun hr => ⟨hreleased hr, ?_⟩⟩
    -- a released payload has no handles, then as now
    have hcount := (exact_after (ops ++ more)).counts.counted h p' hp'
    rw [hcount.handles, hcount.released.1 (hreleased hr)]
  case sent =>
    intro name h hname s
    exact ⟨(exact_after ops).send_of_open hname, (exact_after ops).send_of_closed hname⟩

/-- A payload that is queued twice at a session: the second time the session is closed. Then the two
handles that are held are given back. -/
def lateSend : List Operation :=
  [.openSession 1, .create "a" [1, 2, 3], .retain "a" "b", .send ⟨0, 1, 100, "tok"⟩ "a",
    .close ⟨0, 1, 100, "tok"⟩, .send ⟨0, 1, 100, "tok"⟩ "b", .drop "a", .drop "b"]

/-- One handle is left in the mailbox, and the payload is released with the receiver. -/
theorem counted_after_lateSend :
    (after lateSend).post.pool.get? 0 = some ⟨[1, 2, 3], 1, false⟩ ∧
    (after lateSend).handles.count 0 = 1 ∧ (after lateSend).post.pool.faults = [] ∧
    (after (lateSend ++ [.dropReceiver 0])).post.pool.get? 0 = some ⟨[1, 2, 3], 0, true⟩ ∧
    (after (lateSend ++ [.dropReceiver 0])).handles.count 0 = 0 ∧
    ∀ more, ∃ p, (after ((lateSend ++ [.dropReceiver 0]) ++ more)).post.pool.get? 0 = some p ∧
      p.bytes = [1, 2, 3] ∧ p.released = true ∧ p.handles = 0 := by
  have hqueued : (after lateSend).post.pool.get? 0 = some ⟨[1, 2, 3], 1, false⟩ := by decide
  have hdropped : (after (lateSend ++ [.dropReceiver 0])).post.pool.get? 0 =
      some ⟨[1, 2, 3], 0, true⟩ := by
    decide
  obtain ⟨hcounted, hfaults, -⟩ := counted_after lateSend
  obtain ⟨hcounted', -, -, hlater, -⟩ := counted_after (lateSend ++ [.dropReceiver 0])
  refine ⟨hqueued, (hcounted 0 _ hqueued).1.symm, hfaults, hdropped, ?_, fun more => ?_⟩
  · exact (hcounted' 0 _ hdropped).1.symm
  · obtain ⟨p, hp, hbytes, hreleased⟩ := hlater more 0 _ hdropped
    exact ⟨p, hp, hbytes, hreleased rfl⟩

end Custody

end Switchboard.Session
