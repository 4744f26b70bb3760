import Switchboard.Proofs.Gateway.Delivery
import Switchboard.Proofs.Gateway.Turn

/-!
# Holding — which sessions a node keeps

The tasks of the clients hold sessions in their hands. Among all sessions that were ever accepted,
the index has those that a task holds and no command has kicked, only these are in groups, and a
session that no task holds any more is closed and has nothing queued. A task that departs, a
command and a packet each keep it so.
-/

namespace Switchboard.Gateway

open Session Wire

/-- The session that the task of a client serves, by the name of the client. -/
abbrev Hands := String → Option SessionRef

namespace Hands

/-- Some task serves the session. -/
def Hold (hands : Hands) (s : SessionRef) : Prop := ∃ name, hands name = some s

/-- No two tasks serve one session. -/
def Apart (hands : Hands) : Prop := ∀ m n s, hands m = some s → hands n = some s → m = n

/-! ## 1. Hands that change for one client -/

variable {hands hands' : Hands} {name : String} {s t : SessionRef}

section Over

variable (hover : hands' name = none) (hothers : ∀ n, n ≠ name → hands' n = hands n)

include hover hothers

theorem eq_of_over {n : String} (hn : hands' n = some t) : n ≠ name ∧ hands n = some t := by
  have hne : n ≠ name := by
    rintro rfl
    rw [hover] at hn
    cases hn
  exact ⟨hne, (hothers n hne).symm.trans hn⟩

theorem Apart.of_over (h : hands.Apart) : hands'.Apart := by
  intro m n t hm hn
  exact h m n t (eq_of_over hover hothers hm).2 (eq_of_over hover hothers hn).2

/-- Once a task is over, the others still hold what they held. -/
theorem Apart.hold_iff_of_over (h : hands.Apart) (hs : hands name = some s) :
    hands'.Hold t ↔ hands.Hold t ∧ t ≠ s := by
  constructor
  · rintro ⟨n, hn⟩
    have hbefore := eq_of_over hover hothers hn
    exact ⟨⟨n, hbefore.2⟩, fun hts => hbefore.1 (h n name s (hts ▸ hbefore.2) hs)⟩
  · rintro ⟨⟨n, hn⟩, hne⟩
    have hname : n ≠ name := by
      rintro rfl
      exact hne (Option.some.inj (hn.symm.trans hs))
    exact ⟨n, (hothers n hname).trans hn⟩

end Over

section New

variable (hname : hands' name = some s) (hothers : ∀ n, n ≠ name → hands' n = hands n)

include hname hothers

theorem eq_or_eq_of_new {n : String} (hn : hands' n = some t) :
    hands n = some t ∨ (n = name ∧ t = s) := by
  by_cases hne : n = name
  · rw [hne, hname] at hn
    exact .inr ⟨hne, (Option.some.inj hn).symm⟩
  · exact .inl ((hothers n hne).symm.trans hn)

/-- A client that had no session takes one. -/
theorem hold_iff_of_new (hfree : hands name = none) :
    hands'.Hold t ↔ hands.Hold t ∨ t = s := by
  constructor
  · rintro ⟨n, hn⟩
    exact (eq_or_eq_of_new hname hothers hn).imp (fun hbefore => ⟨n, hbefore⟩) And.right
  · rintro (⟨n, hn⟩ | rfl)
    · have hne : n ≠ name := by
        rintro rfl
        rw [hfree] at hn
        cases hn
      exact ⟨n, (hothers n hne).trans hn⟩
    · exact ⟨name, hname⟩

theorem Apart.of_new (h : hands.Apart) (hnew : ¬ hands.Hold s) : hands'.Apart := by
  intro m n t hm hn
  rcases eq_or_eq_of_new hname hothers hm with hm | ⟨rfl, rfl⟩
  · rcases eq_or_eq_of_new hname hothers hn with hn | ⟨rfl, rfl⟩
    · exact h m n t hm hn
    · exact absurd ⟨m, hm⟩ hnew
  · rcases eq_or_eq_of_new hname hothers hn with hn | ⟨rfl, -⟩
    · exact absurd ⟨n, hn⟩ hnew
    · rfl

end New

end Hands

/-! ## 2. What a node keeps -/

namespace Node

/-- The node and the hands of its tasks fit the sessions that were accepted, in their order, and
those that were kicked. -/
structure Keeps (node : Node) (hands : Hands) (accepted kicked : List SessionRef) : Prop where
  slots : accepted.map SessionRef.slot = List.range node.post.boxes.size
  apart : hands.Apart
  accepted_of_hold : ∀ s, hands.Hold s → s ∈ accepted
  accepted_of_kicked : ∀ s ∈ kicked, s ∈ accepted
  orderly : node.Orderly (· ∈ accepted) node.index.all
  registered : ∀ s, s ∈ node.index.all ↔ s ∈ accepted ∧ hands.Hold s ∧ s ∉ kicked
  outside : ∀ s ∈ accepted, s ∉ node.index.all → node.groups.groupsOf s = []
  returned : ∀ s ∈ accepted, ¬ hands.Hold s →
    (node.post.box s.slot).isClosed = true ∧ (node.post.box s.slot).queue = []
  willing : ∀ slot, (node.post.box slot).isClosed = true ∨ (node.post.box slot).takes = true

/-- The node has the same to tell of a session: whether it is registered, and its groups. -/
structure SameOf (s : SessionRef) (before after : Node) : Prop where
  registered : s ∈ after.index.all ↔ s ∈ before.index.all
  groups : after.groups.groupsOf s = before.groups.groupsOf s

variable {node after : Node} {hands hands' : Hands} {accepted kicked : List SessionRef}
  {s t : SessionRef}

theorem SameOf.refl (s : SessionRef) (node : Node) : node.SameOf s node := ⟨Iff.rfl, rfl⟩

theorem SameOf.trans {middle : Node} (h : node.SameOf s middle) (h' : middle.SameOf s after) :
    node.SameOf s after :=
  ⟨h'.registered.trans h.registered, h'.groups.trans h.groups⟩

theorem Orderly.all_eq {known : SessionRef → Prop} {roster : List SessionRef}
    (h : node.Orderly known roster) : node.index.all = roster :=
  h.represents.all_eq

/-- The roster of an orderly node is what its index lists. -/
theorem Orderly.listed {known : SessionRef → Prop} {roster : List SessionRef}
    (h : node.Orderly known roster) : node.Orderly known node.index.all := by
  rw [h.all_eq]
  exact h

/-- Mailboxes that change in their queues take what they took before. -/
theorem willing_of_queue {m m' : Mailbox} (h : m.isClosed = true ∨ m.takes = true)
    (hqueue : ∃ queue, m' = { m with queue }) : m'.isClosed = true ∨ m'.takes = true := by
  obtain ⟨queue, rfl⟩ := hqueue
  exact h

namespace Keeps

theorem slot_lt (h : node.Keeps hands accepted kicked) (hs : s ∈ accepted) :
    s.slot < node.post.boxes.size := by
  have hslot : s.slot ∈ accepted.map SessionRef.slot := List.mem_map_of_mem hs
  rw [h.slots] at hslot
  exact List.mem_range.1 hslot

theorem slot_ne (h : node.Keeps hands accepted kicked) (hs : s ∈ accepted) (ht : t ∈ accepted)
    (hne : t ≠ s) : t.slot ≠ s.slot :=
  fun hslot => hne (h.orderly.distinct.eq_of_slot t s ht hs hslot)

/-! ## 3. Tasks -/

/-- A step after which every task goes on, and that at most queues something for open sessions. -/
theorem go (h : node.Keeps hands accepted kicked) (hindex : after.index = node.index)
    (hgroups : after.groups = node.groups) (hindexWriter : after.indexWriter = node.indexWriter)
    (hgroupWriter : after.groupWriter = node.groupWriter)
    (hsize : after.post.boxes.size = node.post.boxes.size)
    (hbox : ∀ slot, ∃ queue, after.post.box slot = { node.post.box slot with queue })
    (hreturned : ∀ s ∈ accepted, ¬ hands.Hold s → after.post.box s.slot = node.post.box s.slot) :
    after.Keeps hands accepted kicked where
  slots := by rw [hsize, h.slots]
  apart := h.apart
  accepted_of_hold := h.accepted_of_hold
  accepted_of_kicked := h.accepted_of_kicked
  orderly := by
    obtain ⟨hiw, hgw, hd, hr, hk, hc⟩ := h.orderly
    rw [hindex]
    exact ⟨hindexWriter.trans hiw, hgroupWriter.trans hgw, hd, hindex ▸ hr, hk, hgroups ▸ hc⟩
  registered s := by rw [hindex, h.registered]
  outside s hs hout := by
    rw [hgroups]
    exact h.outside s hs (hindex ▸ hout)
  returned s hs hheld := by
    rw [hreturned s hs hheld]
    exact h.returned s hs hheld
  willing slot := willing_of_queue (h.willing slot) (hbox slot)

/-- A task that goes on with its session touches nothing but its mailbox. -/
theorem stay (h : node.Keeps hands accepted kicked) (hs : hands.Hold s)
    (hsame : node.SameBut s.slot after) : after.Keeps hands accepted kicked := by
  refine h.go hsame.index hsame.groups hsame.indexWriter hsame.groupWriter hsame.size ?_ ?_
  · intro slot
    by_cases hslot : slot = s.slot
    · rw [hslot]
      exact hsame.own
    · exact ⟨_, hsame.box slot hslot⟩
  -- a session that nobody serves is another one, so its mailbox is another one too
  · intro t ht hreturned
    have hne : t ≠ s := fun hts => hreturned (hts ▸ hs)
    exact hsame.box t.slot (h.slot_ne (h.accepted_of_hold s hs) ht hne)

theorem all_of_departed (h : node.Keeps hands accepted kicked) (hs : s ∈ accepted)
    (hgone : node.Departed s after) :
    after.Orderly (· ∈ accepted) after.index.all ∧
      ∀ t, t ∈ after.index.all ↔ t ∈ node.index.all ∧ t ≠ s := by
  -- what the task has done to the registries is a removal and then a mutation of the groups
  have hremoved := (h.orderly.remove hs).unsubscribe hs (node.groups.groupsOf s)
  have hafter : after.Orderly (· ∈ accepted) (node.index.all.filter fun t => !t.same s) := by
    obtain ⟨hiw, hgw, hd, hr, hk, hc⟩ := hremoved
    refine ⟨hgone.indexWriter.trans hiw, hgone.groupWriter.trans hgw, hd, ?_, hk, ?_⟩
    · rw [hgone.index]
      exact hr
    · rw [hgone.groups]
      exact hc
  refine ⟨hafter.listed, fun t => ?_⟩
  rw [hafter.all_eq, List.mem_filter]
  refine and_congr_right fun ht => ?_
  have hid : t.same s = true ↔ t = s :=
    ⟨fun hsame => h.orderly.distinct.eq_of_id t s (h.orderly.known_of_mem t ht) hs
      (of_decide_eq_true hsame), fun hts => hts ▸ decide_eq_true rfl⟩
  rw [Bool.not_eq_true', ← Bool.not_eq_true, hid]

/-- The last step of a task takes its session out of everything. -/
theorem depart {name : String} (h : node.Keeps hands accepted kicked)
    (hs : hands name = some s) (hover : hands' name = none)
    (hothers : ∀ n, n ≠ name → hands' n = hands n) (hgone : node.Departed s after) :
    after.Keeps hands' accepted kicked := by
  have hknown : s ∈ accepted := h.accepted_of_hold s ⟨name, hs⟩
  obtain ⟨horderly, hall⟩ := h.all_of_departed hknown hgone
  have hhold : ∀ t, hands'.Hold t ↔ hands.Hold t ∧ t ≠ s :=
    fun t => h.apart.hold_iff_of_over hover hothers hs
  refine ⟨?_, h.apart.of_over hover hothers, ?_, h.accepted_of_kicked, horderly, ?_, ?_, ?_, ?_⟩
  · rw [hgone.size, h.slots]
  · exact fun t ht => h.accepted_of_hold t ((hhold t).1 ht).1
  -- registered are those that were so before, except the departed session
  · intro t
    rw [hall, h.registered, hhold]
    tauto
  · -- the departed session is out now, and the others that are out were so before
    intro t ht hout
    rw [hgone.groups]
    by_cases hts : t = s
    · rw [hts]
      exact node.groups.groupsOf_unsubscribe_self s
    · refine (node.groups.groupsOf_unsubscribe_of_ne (h.slot_ne ht hknown (Ne.symm hts)) _).trans ?_
      exact h.outside t ht fun hin => hout ((hall t).2 ⟨hin, hts⟩)
  · intro t ht hreturned
    by_cases hts : t = s
    · rw [hts]
      exact hgone.own (h.slot_lt hknown)
    · rw [hgone.box _ (h.slot_ne hknown ht hts)]
      exact h.returned t ht fun hheld => hreturned ((hhold t).2 ⟨hheld, hts⟩)
  · intro slot
    by_cases hslot : slot = s.slot
    · rw [hslot]
      exact .inl (hgone.own (h.slot_lt hknown)).1
    · rw [hgone.box slot hslot]
      exact h.willing slot

theorem sameOf_depart (h : node.Keeps hands accepted kicked) (hs : s ∈ accepted)
    (ht : t ∈ accepted) (hne : t ≠ s) (hgone : node.Departed s after) : node.SameOf t after := by
  refine ⟨?_, ?_⟩
  · rw [(h.all_of_departed hs hgone).2]
    exact and_iff_left hne
  · rw [hgone.groups]
    exact node.groups.groupsOf_unsubscribe_of_ne (h.slot_ne ht hs (Ne.symm hne)) _

/-! ## 4. Commands and packets -/

/-- The sessions of a user are told apart from all that are not registered. -/
theorem slot_ne_of_mem_ofUser (h : node.Keeps hands accepted kicked) {uid : Int64}
    (hs : s ∈ node.index.ofUser uid) (ht : t ∈ accepted)
    (hne : t ∉ node.index.all ∨ t.uid ≠ uid) : s.slot ≠ t.slot := by
  have hmem := h.orderly.represents.mem_ofUser.1 hs
  refine h.slot_ne ht (h.orderly.known_of_mem s hmem.1) ?_
  rintro rfl
  rcases hne with hout | huid
  · exact hout hmem.1
  · exact huid hmem.2

section Regroup

variable {change : Groups → SessionRef → Groups}

theorem regroupUser (h : node.Keeps hands accepted kicked)
    (hcoherent : ∀ g s, s ∈ accepted → g.Coherent (· ∈ accepted) →
      (change g s).Coherent (· ∈ accepted))
    (hchange : ∀ g (s t : SessionRef), s.slot ≠ t.slot → (change g s).groupsOf t = g.groupsOf t)
    (uid : Int64) :
    { node with groups := (node.index.ofUser uid).foldl change node.groups }.Keeps
      hands accepted kicked := by
  have hcoherent' : ((node.index.ofUser uid).foldl change node.groups).Coherent (· ∈ accepted) :=
    coherent_foldl hcoherent (fun s hs => h.orderly.known_of_mem_ofUser hs) h.orderly.coherent
  refine ⟨h.slots, h.apart, h.accepted_of_hold, h.accepted_of_kicked, ?_, h.registered, ?_,
    h.returned, h.willing⟩
  · obtain ⟨hiw, hgw, hd, hr, hk, hc⟩ := h.orderly
    exact ⟨hiw, hgw, hd, hr, hk, hcoherent'⟩
  -- sessions that are out are none of the user, so none of the changes is theirs
  · intro t ht hout
    refine (groupsOf_foldl_of_ne hchange ?_ node.groups).trans (h.outside t ht hout)
    exact fun s hs => h.slot_ne_of_mem_ofUser hs ht (.inl hout)

theorem sameOf_regroupUser (h : node.Keeps hands accepted kicked)
    (hchange : ∀ g (s t : SessionRef), s.slot ≠ t.slot → (change g s).groupsOf t = g.groupsOf t)
    {uid : Int64} (ht : t ∈ accepted) (huid : t.uid ≠ uid) :
    node.SameOf t { node with groups := (node.index.ofUser uid).foldl change node.groups } :=
  ⟨Iff.rfl, groupsOf_foldl_of_ne hchange
    (fun _ hs => h.slot_ne_of_mem_ofUser hs ht (.inr huid)) node.groups⟩

end Regroup

theorem willing_close {post : Post}
    (h : ∀ slot, (post.box slot).isClosed = true ∨ (post.box slot).takes = true) (s : SessionRef)
    (slot : Nat) :
    ((post.close s).box slot).isClosed = true ∨ ((post.close s).box slot).takes = true := by
  rcases post.box_close_cases s slot with hsame | hclosed
  · rw [hsame]
    exact h slot
  · rw [hclosed]
    exact .inl rfl

theorem willing_foldl_close (sessions : List SessionRef) {post : Post}
    (h : ∀ slot, (post.box slot).isClosed = true ∨ (post.box slot).takes = true) (slot : Nat) :
    ((sessions.foldl Post.close post).box slot).isClosed = true ∨
      ((sessions.foldl Post.close post).box slot).takes = true := by
  induction sessions generalizing post with
  | nil => exact h slot
  | cons s sessions ih => exact ih (willing_close h s)

theorem size_foldl_close (sessions : List SessionRef) (post : Post) :
    (sessions.foldl Post.close post).boxes.size = post.boxes.size := by
  induction sessions generalizing post with
  | nil => rfl
  | cons s sessions ih => rw [List.foldl_cons, ih, Post.size_close]

theorem box_foldl_close_of_ne {sessions : List SessionRef} {slot : Nat}
    (hne : ∀ s ∈ sessions, s.slot ≠ slot) (post : Post) :
    (sessions.foldl Post.close post).box slot = post.box slot := by
  induction sessions generalizing post with
  | nil => rfl
  | cons s sessions ih =>
    rw [List.foldl_cons, ih fun t ht => hne t (List.mem_cons_of_mem _ ht)]
    exact Post.box_close_of_ne post (hne s List.mem_cons_self).symm

theorem all_of_kick (h : node.Keeps hands accepted kicked) (uid : Int64) :
    ((Script.kick uid).run node).1.index.all = node.index.all.filter fun t => t.uid ≠ uid :=
  (h.orderly.kick uid).all_eq

/-- A kick takes all sessions of a user out of the registries, while their tasks go on to close
them. -/
theorem kick (h : node.Keeps hands accepted kicked) (uid : Int64) :
    ((Script.kick uid).run node).1.Keeps hands accepted
      (kicked ++ accepted.filter fun t => t.uid = uid) := by
  have hall := h.all_of_kick uid
  have horderly := (h.orderly.kick uid).listed
  rw [Script.run_kick h.orderly.indexWriter h.orderly.groupWriter] at hall horderly ⊢
  refine ⟨?_, h.apart, h.accepted_of_hold, ?_, horderly, ?_, ?_, ?_, ?_⟩
  · rw [size_foldl_close, h.slots]
  · intro t ht
    rcases List.mem_append.1 ht with ht | ht
    · exact h.accepted_of_kicked t ht
    · exact (List.mem_filter.1 ht).1
  -- kicked now, or kicked before, or still registered
  · intro t
    rw [hall, List.mem_filter, h.registered, List.mem_append, List.mem_filter]
    simp only [ne_eq, decide_eq_true_eq, decide_not, Bool.not_eq_true', decide_eq_false_iff_not]
    tauto
  · intro t ht hout
    rw [hall, List.mem_filter] at hout
    -- it was kicked just now, or it was out before
    by_cases hin : t ∈ node.index.all
    · have huid : t.uid = uid := by
        by_contra hne
        exact hout ⟨hin, decide_eq_true hne⟩
      exact groupsOf_foldl_unsubscribeAll h.orderly.distinct
        (fun s hs => h.orderly.known_of_mem_ofUser hs)
        (h.orderly.represents.mem_ofUser.2 ⟨hin, huid⟩) node.groups
    · refine (groupsOf_foldl_of_ne (fun g s t hne => g.groupsOf_unsubscribe_of_ne hne _) ?_
        node.groups).trans (h.outside t ht hin)
      exact fun s hs => h.slot_ne_of_mem_ofUser hs ht (.inl hin)
  · -- whoever is not registered is not closed again
    intro t ht hreturned
    have hout : t ∉ node.index.all := fun hin => hreturned ((h.registered t).1 hin).2.1
    have hbox : ((node.index.ofUser uid).foldl Post.close node.post).box t.slot =
        node.post.box t.slot :=
      box_foldl_close_of_ne (fun s hs => h.slot_ne_of_mem_ofUser hs ht (.inl hout)) node.post
    rw [hbox]
    exact h.returned t ht hreturned
  · exact willing_foldl_close _ h.willing

theorem sameOf_kick (h : node.Keeps hands accepted kicked) {uid : Int64} (ht : t ∈ accepted)
    (huid : t.uid ≠ uid) : node.SameOf t ((Script.kick uid).run node).1 := by
  refine ⟨?_, ?_⟩
  · rw [h.all_of_kick uid, List.mem_filter]
    exact and_iff_left (decide_eq_true huid)
  · rw [Script.run_kick h.orderly.indexWriter h.orderly.groupWriter]
    exact groupsOf_foldl_of_ne (fun g s t hne => g.groupsOf_unsubscribe_of_ne hne _)
      (fun s hs => h.slot_ne_of_mem_ofUser hs ht (.inr huid)) node.groups

/-- What a packet does to a mailbox: it queues something, and not where the session is closed. -/
theorem box_deliver (h : node.Keeps hands accepted kicked) (packet : Packet) (slot : Nat) :
    (∃ queue, (node.deliver packet).2.1.post.box slot = { node.post.box slot with queue }) ∧
      ((node.post.box slot).isClosed = true →
        (node.deliver packet).2.1.post.box slot = node.post.box slot) := by
  by_cases hnone : node.targets packet = []
  · rw [deliver, hnone]
    exact ⟨⟨_, rfl⟩, fun _ => rfl⟩
  · rw [deliver_of_targets hnone]
    refine ⟨?_, fun hclosed => box_distribute_of_isClosed node.post _ _ hclosed⟩
    rcases h.willing slot with hclosed | htakes
    · exact ⟨_, box_distribute_of_isClosed node.post _ _ hclosed⟩
    · exact ⟨_, box_distribute_of_takes node.post _ _ htakes⟩

theorem index_deliver (node : Node) (packet : Packet) :
    (node.deliver packet).2.1 = { node with post := (node.deliver packet).2.1.post } := by
  by_cases hnone : node.targets packet = []
  · rw [deliver, hnone]
  · rw [deliver_of_targets hnone]

theorem size_deliver (node : Node) (packet : Packet) :
    (node.deliver packet).2.1.post.boxes.size = node.post.boxes.size := by
  by_cases hnone : node.targets packet = []
  · rw [deliver, hnone]
  · rw [deliver_of_targets hnone]
    exact size_distribute node.post _ _

theorem deliver (h : node.Keeps hands accepted kicked) (packet : Packet) :
    (node.deliver packet).2.1.Keeps hands accepted kicked := by
  have hpost := index_deliver node packet
  refine h.go ?_ ?_ ?_ ?_ (size_deliver node packet) (fun slot => (h.box_deliver packet slot).1) ?_
  · rw [hpost]
  · rw [hpost]
  · rw [hpost]
  · rw [hpost]
  · exact fun s hs hreturned => (h.box_deliver packet s.slot).2 (h.returned s hs hreturned).1

theorem sameOf_deliver (s : SessionRef) (node : Node) (packet : Packet) :
    node.SameOf s (node.deliver packet).2.1 := by
  rw [index_deliver]
  exact ⟨Iff.rfl, rfl⟩

/-! ## 5. New sessions -/

section Enter

variable {name : String} {id : UInt64} {uid : Int64} {token : String} {opened : Node}

theorem fresh (h : node.Keeps hands accepted kicked)
    (hopen : node.openSession id uid token false = (s, opened)) :
    s.id = id ∧ s ∉ accepted ∧ (∀ t ∈ accepted, t.slot ≠ s.slot) ∧
      s.slot = node.post.boxes.size := by
  obtain ⟨rfl, -⟩ := Prod.mk.inj hopen
  have hslot : ∀ t ∈ accepted, t.slot ≠ node.post.boxes.size :=
    fun t ht => Nat.ne_of_lt (h.slot_lt ht)
  exact ⟨rfl, fun hs => hslot _ hs rfl, hslot, rfl⟩

theorem opened_eq (hopen : node.openSession id uid token false = (s, opened)) :
    opened = { node with post := (node.post.openBox false).2 } :=
  (congrArg Prod.snd hopen).symm

theorem orderly_opened (h : node.Keeps hands accepted kicked)
    (hopen : node.openSession id uid token false = (s, opened)) :
    opened.Orderly (· ∈ accepted) node.index.all := by
  rw [opened_eq hopen]
  exact h.orderly.withPost _

theorem box_opened (h : node.Keeps hands accepted kicked)
    (hopen : node.openSession id uid token false = (s, opened)) (ht : t ∈ accepted) :
    opened.post.box t.slot = node.post.box t.slot := by
  rw [opened_eq hopen]
  exact (Post.box_openBox _ _ _).trans (if_neg (Nat.ne_of_lt (h.slot_lt ht)))

theorem willing_opened (h : node.Keeps hands accepted kicked)
    (hopen : node.openSession id uid token false = (s, opened)) (slot : Nat) :
    (opened.post.box slot).isClosed = true ∨ (opened.post.box slot).takes = true := by
  rw [opened_eq hopen]
  show ((node.post.openBox false).2.box slot).isClosed = true ∨
    ((node.post.openBox false).2.box slot).takes = true
  rw [Post.box_openBox]
  split
  · exact .inr rfl
  · exact h.willing slot

/-- The node after a session has entered, as far as its registries go. -/
theorem orderly_entered (h : node.Keeps hands accepted kicked)
    (hopen : node.openSession id uid token false = (s, opened))
    (hid : ∀ t ∈ accepted, t.id ≠ id) (gids : List Int64) :
    ((Script.enter s gids).run opened).1.Orderly (· ∈ accepted ++ [s]) (node.index.all ++ [s]) := by
  obtain ⟨hsid, -, hslots, -⟩ := h.fresh hopen
  have hentered := (h.orderly_opened hopen).enter (fun t ht => hsid ▸ hid t ht) hslots gids
  have hknown : (fun t => t ∈ accepted ∨ t = s) = (· ∈ accepted ++ [s]) := by
    funext t
    rw [List.mem_append, List.mem_singleton]
  rwa [hknown] at hentered

theorem groupsOf_entered (h : node.Keeps hands accepted kicked)
    (hopen : node.openSession id uid token false = (s, opened)) (gids : List Int64)
    (ht : t ∈ accepted) :
    ((Script.enter s gids).run opened).1.groups.groupsOf t = node.groups.groupsOf t := by
  obtain ⟨-, -, hslots, -⟩ := h.fresh hopen
  have horderly := h.orderly_opened hopen
  have hgroups : opened.groups = node.groups := by rw [opened_eq hopen]
  rw [Script.run_enter horderly.indexWriter horderly.groupWriter]
  show (opened.groups.subscribe s gids).groupsOf t = _
  rw [hgroups]
  exact node.groups.groupsOf_subscribe_of_ne (hslots t ht).symm gids

theorem post_entered (h : node.Keeps hands accepted kicked)
    (hopen : node.openSession id uid token false = (s, opened)) (gids : List Int64) :
    ((Script.enter s gids).run opened).1.post = opened.post := by
  have horderly := h.orderly_opened hopen
  rw [Script.run_enter horderly.indexWriter horderly.groupWriter]

/-- An accepted session enters the registries, and the task of a client that had none takes it
in hand. -/
theorem enter (h : node.Keeps hands accepted kicked)
    (hopen : node.openSession id uid token false = (s, opened))
    (hid : ∀ t ∈ accepted, t.id ≠ id) (gids : List Int64) (hfree : hands name = none)
    (hname : hands' name = some s) (hothers : ∀ n, n ≠ name → hands' n = hands n) :
    ((Script.enter s gids).run opened).1.Keeps hands' (accepted ++ [s]) kicked := by
  obtain ⟨-, hnew, -, hslot⟩ := h.fresh hopen
  have hnothold : ¬ hands.Hold s := fun hs => hnew (h.accepted_of_hold s hs)
  have hnotkicked : s ∉ kicked := fun hs => hnew (h.accepted_of_kicked s hs)
  have hentered := h.orderly_entered hopen hid gids
  have hpost := h.post_entered hopen gids
  have hhold : ∀ t, hands'.Hold t ↔ hands.Hold t ∨ t = s :=
    fun t => Hands.hold_iff_of_new hname hothers hfree
  -- whoever is not the new session was accepted before
  have hold : ∀ t ∈ accepted ++ [s], t ≠ s → t ∈ accepted := fun t ht hne =>
    (List.mem_append.1 ht).resolve_right fun hts => hne (List.mem_singleton.1 hts)
  refine ⟨?_, h.apart.of_new hname hothers hnothold, ?_, ?_, hentered.listed, ?_, ?_, ?_, ?_⟩
  -- slots are given out in the order of the sessions
  · rw [List.map_append, h.slots, hpost, opened_eq hopen]
    show _ = List.range (node.post.openBox false).2.boxes.size
    rw [Post.size_openBox, List.range_succ, List.map_singleton, hslot]
  · intro t ht
    rw [List.mem_append, List.mem_singleton]
    exact ((hhold t).1 ht).imp_left (h.accepted_of_hold t)
  · exact fun t ht => List.mem_append_left _ (h.accepted_of_kicked t ht)
  · intro t
    rw [hentered.all_eq, List.mem_append, List.mem_append, List.mem_singleton, h.registered, hhold]
    constructor
    · rintro (⟨ht, hheld, hkick⟩ | rfl)
      · exact ⟨.inl ht, .inl hheld, hkick⟩
      · exact ⟨.inr rfl, .inr rfl, hnotkicked⟩
    · rintro ⟨-, hheld | rfl, hkick⟩
      · exact .inl ⟨h.accepted_of_hold t hheld, hheld, hkick⟩
      · exact .inr rfl
  · intro t ht hout
    rw [hentered.all_eq, List.mem_append, List.mem_singleton, not_or] at hout
    have hin := hold t ht hout.2
    rw [h.groupsOf_entered hopen gids hin]
    exact h.outside t hin hout.1
  -- the mailboxes of the sessions before have not changed
  · intro t ht hreturned
    rw [hhold, not_or] at hreturned
    have hin := hold t ht hreturned.2
    rw [hpost, h.box_opened hopen hin]
    exact h.returned t hin hreturned.1
  · rw [hpost]
    exact h.willing_opened hopen

theorem sameOf_enter (h : node.Keeps hands accepted kicked)
    (hopen : node.openSession id uid token false = (s, opened))
    (hid : ∀ t ∈ accepted, t.id ≠ id) (gids : List Int64) (ht : t ∈ accepted) :
    node.SameOf t ((Script.enter s gids).run opened).1 := by
  have hne : t ≠ s := fun hts => (h.fresh hopen).2.1 (hts ▸ ht)
  refine ⟨?_, h.groupsOf_entered hopen gids ht⟩
  rw [(h.orderly_entered hopen hid gids).all_eq, List.mem_append, List.mem_singleton]
  exact or_iff_left hne

theorem box_enter (h : node.Keeps hands accepted kicked)
    (hopen : node.openSession id uid token false = (s, opened)) (gids : List Int64)
    (ht : t ∈ accepted) :
    ((Script.enter s gids).run opened).1.post.box t.slot = node.post.box t.slot := by
  rw [h.post_entered hopen gids, h.box_opened hopen ht]

end Enter

end Keeps

theorem keeps_empty : ({} : Node).Keeps (fun _ => none) [] [] where
  slots := rfl
  apart := fun _ _ _ h => nomatch h
  accepted_of_hold _ h := nomatch h
  accepted_of_kicked _ h := nomatch h
  orderly := orderly_empty ⟨fun _ _ h _ _ => absurd h List.not_mem_nil,
    fun _ _ h _ _ => absurd h List.not_mem_nil⟩
  registered _ := ⟨fun h => absurd h List.not_mem_nil, fun h => absurd h.1 List.not_mem_nil⟩
  outside _ h := nomatch h
  returned _ h := nomatch h
  willing _ := .inl rfl

end Node

end Switchboard.Gateway
