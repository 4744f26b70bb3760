import Switchboard.Gateway.Script
import Switchboard.Proofs.Session.Membership
import Switchboard.Proofs.Session.Post

/-!
# Orderly — the registries of a node under the scripts of its tasks

A node is orderly when its writers run, its index is a view of a roster, and the two sides of its
groups agree. Each script, carried out in one go, comes to a few changes of the registries, which
are written out here, and leaves an orderly node orderly.
-/

namespace Switchboard.Gateway

open Session

variable {node : Node}

/-! ## 1. Scripts carried out in one go -/

theorem Node.mutate_of_writer (h : node.indexWriter = true) (op : IndexChange) :
    node.mutate op =
      ((node.index.apply op).1, { node with index := (node.index.apply op).2 }, []) := by
  rw [mutate, if_pos h]

theorem Node.regroup_of_writer (h : node.groupWriter = true) (op : GroupChange) :
    node.regroup op = ({ node with groups := node.groups.apply op }, []) := by
  rw [regroup, if_pos h]

namespace Script

theorem run_find (node : Node) (uid : Int64) (next : List SessionRef → Script) :
    (find uid next).run node = (next (node.index.ofUser uid)).run node := rfl

theorem run_close (node : Node) (s : SessionRef) (next : Script) :
    (close s next).run node = next.run { node with post := node.post.close s } := rfl

theorem run_regroup (h : node.groupWriter = true) (op : GroupChange) (next : Script) :
    (regroup op next).run node = next.run { node with groups := node.groups.apply op } := by
  show ((next.run (node.regroup op).1).1,
    (node.regroup op).2 ++ (next.run (node.regroup op).1).2) = _
  rw [Node.regroup_of_writer h]
  rfl

theorem run_mutate (h : node.indexWriter = true) (op : IndexChange)
    (next : List SessionRef → Script) :
    (mutate op next).run node =
      (next (node.index.apply op).1).run { node with index := (node.index.apply op).2 } := by
  show (((next (node.mutate op).1).run (node.mutate op).2.1).1,
    (node.mutate op).2.2 ++ ((next (node.mutate op).1).run (node.mutate op).2.1).2) = _
  rw [Node.mutate_of_writer h]
  rfl

theorem run_subscribe (h : node.groupWriter = true) (s : SessionRef) (gids : List Int64)
    (next : Script) :
    (subscribe s gids next).run node =
      next.run { node with groups := node.groups.subscribe s gids } := by
  rw [subscribe]
  split
  · next hnil => rw [List.isEmpty_iff.1 hnil]; rfl
  · exact run_regroup h _ next

theorem run_unsubscribe (h : node.groupWriter = true) (s : SessionRef) (gids : List Int64)
    (next : Script) :
    (unsubscribe s gids next).run node =
      next.run { node with groups := node.groups.unsubscribe s gids } := by
  rw [unsubscribe]
  split
  · next hnil => rw [List.isEmpty_iff.1 hnil]; rfl
  · exact run_regroup h _ next

theorem run_unsubscribeAll (h : node.groupWriter = true) (s : SessionRef) (next : Script) :
    (unsubscribeAll s next).run node =
      next.run { node with groups := node.groups.unsubscribeAll s } :=
  run_unsubscribe h s _ next

/-- A connection enters with its groups and then in the index. -/
theorem run_enter (hindex : node.indexWriter = true) (hgroups : node.groupWriter = true)
    (s : SessionRef) (gids : List Int64) :
    (enter s gids).run node =
      ({ node with groups := node.groups.subscribe s gids, index := node.index.add s }, []) := by
  rw [enter, run_subscribe hgroups]
  have hmove : ({ node with groups := node.groups.subscribe s gids } : Node).indexWriter = true :=
    hindex
  exact run_mutate hmove (.add s) fun _ => .done

/-- A connection closes, leaves the index, and then its groups. -/
theorem run_leave (hindex : node.indexWriter = true) (hgroups : node.groupWriter = true)
    (s : SessionRef) :
    (leave s).run node =
      ({ node with
        post := node.post.close s
        index := node.index.remove s
        groups := node.groups.unsubscribeAll s }, []) := by
  rw [leave, run_close]
  have hclosed : ({ node with post := node.post.close s } : Node).indexWriter = true := hindex
  have hremoved : ({ node with
      post := node.post.close s
      index := node.index.remove s } : Node).groupWriter = true := hgroups
  exact (run_mutate hclosed (.remove s) _).trans (run_unsubscribeAll hremoved s .done)

theorem run_subscribeUser (h : node.groupWriter = true) (uid : Int64) (gids : List Int64) :
    (subscribeUser uid gids).run node =
      ({ node with
        groups := (node.index.ofUser uid).foldl (fun g s => g.subscribe s gids) node.groups },
        []) := by
  rw [subscribeUser, run_find]
  -- on what the look has found
  generalize node.index.ofUser uid = sessions
  induction sessions generalizing node with
  | nil => rfl
  | cons s sessions ih => exact (run_subscribe h s gids _).trans (ih h)

theorem run_unsubscribeUser (h : node.groupWriter = true) (uid : Int64) (gids : List Int64) :
    (unsubscribeUser uid gids).run node =
      ({ node with
        groups := (node.index.ofUser uid).foldl (fun g s => g.unsubscribe s gids) node.groups },
        []) := by
  rw [unsubscribeUser, run_find]
  generalize node.index.ofUser uid = sessions
  induction sessions generalizing node with
  | nil => rfl
  | cons s sessions ih => exact (run_unsubscribe h s gids _).trans (ih h)

theorem run_kick (hindex : node.indexWriter = true) (hgroups : node.groupWriter = true)
    (uid : Int64) :
    (kick uid).run node =
      ({ node with
        post := (node.index.ofUser uid).foldl Post.close node.post
        index := (node.index.detachUser uid).2
        groups := (node.index.ofUser uid).foldl Groups.unsubscribeAll node.groups }, []) := by
  -- what happens to each of the detached sessions
  have heach : ∀ (sessions : List SessionRef) (node : Node), node.groupWriter = true →
      Script.run (sessions.foldr (fun s next => unsubscribeAll s (.close s next)) .done) node =
        ({ node with
          post := sessions.foldl Post.close node.post
          groups := sessions.foldl Groups.unsubscribeAll node.groups }, []) := by
    intro sessions
    induction sessions with
    | nil => intro node _; rfl
    | cons s sessions ih =>
      intro node h
      rw [List.foldr_cons, run_unsubscribeAll h, run_close]
      exact ih _ h
  exact (run_mutate hindex (.detachUser uid) _).trans (heach _ _ hgroups)

end Script

/-! ## 2. The same change for several sessions -/

section Each

variable {known : SessionRef → Prop} {change : Groups → SessionRef → Groups}

/-- A change for known sessions keeps both sides of the groups in agreement. -/
theorem coherent_foldl
    (hchange : ∀ g s, known s → g.Coherent known → (change g s).Coherent known)
    {sessions : List SessionRef} (hknown : ∀ s ∈ sessions, known s) {g : Groups}
    (h : g.Coherent known) : (sessions.foldl change g).Coherent known := by
  induction sessions generalizing g with
  | nil => exact h
  | cons s sessions ih =>
    exact ih (fun t ht => hknown t (List.mem_cons_of_mem _ ht))
      (hchange g s (hknown s List.mem_cons_self) h)

theorem groupsOf_foldl_of_ne
    (hchange : ∀ g (s t : SessionRef), s.slot ≠ t.slot → (change g s).groupsOf t = g.groupsOf t)
    {sessions : List SessionRef} {t : SessionRef} (hne : ∀ s ∈ sessions, s.slot ≠ t.slot)
    (g : Groups) : (sessions.foldl change g).groupsOf t = g.groupsOf t := by
  induction sessions generalizing g with
  | nil => rfl
  | cons s sessions ih =>
    rw [List.foldl_cons, ih (fun u hu => hne u (List.mem_cons_of_mem _ hu)),
      hchange g s t (hne s List.mem_cons_self)]

/-- Sessions that leave everything one after another are in nothing at the end. -/
theorem groupsOf_foldl_unsubscribeAll (hd : Distinct known) {sessions : List SessionRef}
    (hknown : ∀ s ∈ sessions, known s) {t : SessionRef} (ht : t ∈ sessions) (g : Groups) :
    (sessions.foldl Groups.unsubscribeAll g).groupsOf t = [] := by
  induction sessions generalizing g with
  | nil => exact absurd ht List.not_mem_nil
  | cons s sessions ih =>
    have hrest : ∀ u ∈ sessions, known u := fun u hu => hknown u (List.mem_cons_of_mem _ hu)
    by_cases hin : t ∈ sessions
    · exact ih hrest hin _
    · -- it leaves first, and no later mutation is about its slot
      obtain rfl : t = s := (List.mem_cons.1 ht).resolve_right hin
      have hne : ∀ u ∈ sessions, u.slot ≠ t.slot := fun u hu hslot =>
        hin (hd.eq_of_slot u t (hrest u hu) (hknown t ht) hslot ▸ hu)
      exact (groupsOf_foldl_of_ne (fun g s t hst => g.groupsOf_unsubscribe_of_ne hst _) hne _).trans
        (g.groupsOf_unsubscribe_self t)

end Each

/-! ## 3. Orderly nodes -/

namespace Node

/-- The writers run, the index is a view of the roster, and the two sides of the groups agree. Only
known sessions are registered anywhere. -/
structure Orderly (node : Node) (known : SessionRef → Prop) (roster : List SessionRef) : Prop where
  indexWriter : node.indexWriter = true
  groupWriter : node.groupWriter = true
  distinct : Distinct known
  represents : node.index.Represents roster
  known_of_mem : ∀ t ∈ roster, known t
  coherent : node.groups.Coherent known

variable {known : SessionRef → Prop} {roster : List SessionRef}

theorem orderly_empty (hd : Distinct known) :
    ({} : Node).Orderly known [] where
  indexWriter := rfl
  groupWriter := rfl
  distinct := hd
  represents := Index.represents_empty
  known_of_mem _ ht := absurd ht List.not_mem_nil
  coherent := Groups.coherent_empty known

namespace Orderly

/-- Mailboxes and payloads do not matter to the order of a node. -/
theorem withPost (h : node.Orderly known roster) (post : Post) :
    { node with post }.Orderly known roster :=
  ⟨h.indexWriter, h.groupWriter, h.distinct, h.represents, h.known_of_mem, h.coherent⟩

theorem known_of_mem_ofUser (h : node.Orderly known roster) {uid : Int64} {t : SessionRef}
    (ht : t ∈ node.index.ofUser uid) : known t :=
  h.known_of_mem t (h.represents.mem_ofUser.1 ht).1

theorem subscribe (h : node.Orderly known roster) {s : SessionRef} (hs : known s)
    (gids : List Int64) :
    { node with groups := node.groups.subscribe s gids }.Orderly known roster :=
  ⟨h.indexWriter, h.groupWriter, h.distinct, h.represents, h.known_of_mem,
    h.coherent.subscribe h.distinct hs gids⟩

theorem unsubscribe (h : node.Orderly known roster) {s : SessionRef} (hs : known s)
    (gids : List Int64) :
    { node with groups := node.groups.unsubscribe s gids }.Orderly known roster :=
  ⟨h.indexWriter, h.groupWriter, h.distinct, h.represents, h.known_of_mem,
    h.coherent.unsubscribe h.distinct hs gids⟩

theorem remove (h : node.Orderly known roster) {s : SessionRef} (hs : known s) :
    { node with index := node.index.remove s }.Orderly known (roster.filter fun t => !t.same s) :=
  ⟨h.indexWriter, h.groupWriter, h.distinct,
    h.represents.remove fun t ht => h.distinct.eq_of_id t s (h.known_of_mem t ht) hs,
    fun t ht => h.known_of_mem t (List.mem_filter.1 ht).1, h.coherent⟩

/-- A session that is new by id and slot enters at the end of the roster. -/
theorem enter (h : node.Orderly known roster) {s : SessionRef}
    (hid : ∀ t, known t → t.id ≠ s.id) (hslot : ∀ t, known t → t.slot ≠ s.slot)
    (gids : List Int64) :
    ((Script.enter s gids).run node).1.Orderly (fun t => known t ∨ t = s) (roster ++ [s]) := by
  rw [Script.run_enter h.indexWriter h.groupWriter]
  have hd : Distinct fun t => known t ∨ t = s := by
    constructor
    · rintro t u (ht | rfl) (hu | rfl) htu
      · exact h.distinct.eq_of_id t u ht hu htu
      · exact absurd htu (hid t ht)
      · exact absurd htu.symm (hid u hu)
      · rfl
    · rintro t u (ht | rfl) (hu | rfl) htu
      · exact h.distinct.eq_of_slot t u ht hu htu
      · exact absurd htu (hslot t ht)
      · exact absurd htu.symm (hslot u hu)
      · rfl
  -- no session of the roster has its id, so the index takes it
  have hnew : roster.any (·.same s) = false := by
    rw [List.any_eq_false]
    exact fun t ht hsame => hid t (h.known_of_mem t ht) (of_decide_eq_true hsame)
  refine ⟨h.indexWriter, h.groupWriter, hd, ?_, ?_, ?_⟩
  · have hadd := h.represents.add s
    rwa [IndexChange.enrol, hnew, if_neg Bool.false_ne_true] at hadd
  · intro t ht
    rcases List.mem_append.1 ht with ht | ht
    · exact .inl (h.known_of_mem t ht)
    · exact .inr (List.mem_singleton.1 ht)
  · have hmore : node.groups.Coherent fun t => known t ∨ t = s :=
      h.coherent.extend (fun t ht => .inl ht) fun t ht => by
        rcases ht with ht | rfl
        · exact .inl ht
        · exact .inr hslot
    exact hmore.subscribe hd (.inr rfl) gids

theorem leave (h : node.Orderly known roster) {s : SessionRef} (hs : known s) :
    ((Script.leave s).run node).1.Orderly known (roster.filter fun t => !t.same s) := by
  rw [Script.run_leave h.indexWriter h.groupWriter]
  exact ((h.withPost (node.post.close s)).remove hs).unsubscribe hs _

theorem subscribeUser (h : node.Orderly known roster) (uid : Int64) (gids : List Int64) :
    ((Script.subscribeUser uid gids).run node).1.Orderly known roster := by
  rw [Script.run_subscribeUser h.groupWriter]
  refine ⟨h.indexWriter, h.groupWriter, h.distinct, h.represents, h.known_of_mem, ?_⟩
  exact coherent_foldl (fun g s hs hg => hg.subscribe h.distinct hs gids)
    (fun s hs => h.known_of_mem_ofUser hs) h.coherent

theorem unsubscribeUser (h : node.Orderly known roster) (uid : Int64) (gids : List Int64) :
    ((Script.unsubscribeUser uid gids).run node).1.Orderly known roster := by
  rw [Script.run_unsubscribeUser h.groupWriter]
  refine ⟨h.indexWriter, h.groupWriter, h.distinct, h.represents, h.known_of_mem, ?_⟩
  exact coherent_foldl (fun g s hs hg => hg.unsubscribe h.distinct hs gids)
    (fun s hs => h.known_of_mem_ofUser hs) h.coherent

theorem kick (h : node.Orderly known roster) (uid : Int64) :
    ((Script.kick uid).run node).1.Orderly known (roster.filter fun t => t.uid ≠ uid) := by
  rw [Script.run_kick h.indexWriter h.groupWriter]
  refine ⟨h.indexWriter, h.groupWriter, h.distinct, h.represents.detachUser uid, ?_, ?_⟩
  · exact fun t ht => h.known_of_mem t (List.mem_filter.1 ht).1
  · exact coherent_foldl (fun g s hs hg => hg.unsubscribe h.distinct hs _)
      (fun s hs => h.known_of_mem_ofUser hs) h.coherent

end Orderly

/-! ## 4. Registries by their histories -/

/-- The registries are what mutations have made of empty ones, and every session that a mutation was
about is known. -/
structure Recorded (node : Node) (known : SessionRef → Prop) : Prop where
  distinct : Distinct known
  index : ∃ ops, node.index = Index.after ops ∧ ∀ s ∈ ops.flatMap IndexChange.named, known s
  groups : ∃ ops : List GroupChange,
    node.groups = ops.foldl Groups.apply {} ∧ ∀ op ∈ ops, known op.session

namespace Recorded

theorem represents (h : node.Recorded known) :
    ∃ roster, node.index.Represents roster ∧ ∀ t ∈ roster, known t := by
  obtain ⟨ops, hindex, hnamed⟩ := h.index
  refine ⟨rosterOf ops, ?_, fun t ht => hnamed t (Index.mem_rosterOf ht)⟩
  rw [hindex]
  exact Index.represents_after ops fun s hs t ht =>
    h.distinct.eq_of_id s t (hnamed s hs) (hnamed t ht)

theorem coherent (h : node.Recorded known) : node.groups.Coherent known := by
  obtain ⟨ops, hgroups, hknown⟩ := h.groups
  rw [hgroups]
  have hall : ∀ (ops : List GroupChange) (g : Groups), (∀ op ∈ ops, known op.session) →
      g.Coherent known → (ops.foldl Groups.apply g).Coherent known := by
    intro ops
    induction ops with
    | nil => exact fun g _ hg => hg
    | cons op ops ih =>
      intro g hops hg
      exact ih _ (fun op' hop' => hops op' (List.mem_cons_of_mem _ hop'))
        (hg.apply h.distinct (hops op List.mem_cons_self))
  exact hall ops {} hknown (Groups.coherent_empty known)

/-- While both writers run, a node with a history is orderly. -/
theorem orderly (h : node.Recorded known) (hindex : node.indexWriter = true)
    (hgroups : node.groupWriter = true) : ∃ roster, node.Orderly known roster := by
  obtain ⟨roster, hrepresents, hknown⟩ := h.represents
  exact ⟨roster, hindex, hgroups, h.distinct, hrepresents, hknown, h.coherent⟩

end Recorded

end Node

end Switchboard.Gateway
