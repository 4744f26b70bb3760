import Mathlib.Tactic.Tauto
import Switchboard.Proofs.Session.Roster
import Switchboard.Session.Groups

/-!
# Membership — both sides of the group relation

Buckets hold the sessions of a group, and each session has the set of its groups. `Coherent` says
that the two sides tell the same, among sessions that ids and slots keep apart; every mutation
keeps it, and touches only the pairs of its own session and groups.
-/

namespace Switchboard.Session

/-- Neither ids nor slots confuse the sessions of a population. -/
structure Distinct (known : SessionRef → Prop) : Prop where
  eq_of_id : ∀ s t, known s → known t → s.id = t.id → s = t
  eq_of_slot : ∀ s t, known s → known t → s.slot = t.slot → s = t

/-- The session that a mutation is about. -/
def GroupChange.session : GroupChange → SessionRef
  | .subscribe s _ | .unsubscribe s _ => s

namespace Groups

/-! ## 1. One pair at a time -/

theorem members_subscribeOne (g : Groups) (s : SessionRef) (gid gid' : Int64) :
    (g.subscribeOne s gid).members gid' =
      if gid = gid' then
        if (g.members gid').any (·.same s) then g.members gid' else g.members gid' ++ [s]
      else g.members gid' := by
  show ((g.buckets.insert gid _).get? gid').getD [] = _
  rw [Table.get?_insert]
  split
  · next h => rw [h, Option.getD_some]
  · rfl

theorem groupsOf_eq_of_slot (g : Groups) {s t : SessionRef} (h : s.slot = t.slot) :
    g.groupsOf s = g.groupsOf t := by
  rw [groupsOf, groupsOf, h]

theorem groupsOf_subscribeOne (g : Groups) (s t : SessionRef) (gid : Int64) :
    (g.subscribeOne s gid).groupsOf t =
      if s.slot = t.slot then
        if gid ∈ g.groupsOf t then g.groupsOf t else g.groupsOf t ++ [gid]
      else g.groupsOf t := by
  show ((g.joined.insert s.slot _).get? t.slot).getD [] = _
  rw [Table.get?_insert]
  split
  · next h => rw [Option.getD_some, g.groupsOf_eq_of_slot h]
  · rfl

theorem members_unsubscribeOne (g : Groups) (s : SessionRef) (gid gid' : Int64) :
    (g.unsubscribeOne s gid).members gid' =
      if gid = gid' then (g.members gid').filter fun t => !t.same s else g.members gid' := by
  show ((if _ then _ else _ : Table Int64 (List SessionRef)).get? gid').getD [] = _
  rw [get?_rebucket]
  split
  · next h => rw [getD_bucketOf, h]
  · rfl

theorem groupsOf_unsubscribeOne (g : Groups) (s t : SessionRef) (gid : Int64) :
    (g.unsubscribeOne s gid).groupsOf t =
      if s.slot = t.slot then (g.groupsOf t).filter (· ≠ gid) else g.groupsOf t := by
  show ((g.joined.modify s.slot _).get? t.slot).getD [] = _
  rw [Table.get?_modify]
  split
  · rw [groupsOf, Table.getD]
    cases g.joined.get? t.slot <;> rfl
  · rfl

theorem mem_groupsOf_subscribeOne (g : Groups) (s t : SessionRef) (gid gid' : Int64) :
    gid' ∈ (g.subscribeOne s gid).groupsOf t ↔
      gid' ∈ g.groupsOf t ∨ (s.slot = t.slot ∧ gid' = gid) := by
  rw [groupsOf_subscribeOne]
  split
  · next hslot =>
    split
    · next hin => exact ⟨.inl, fun h => h.elim id fun h => h.2 ▸ hin⟩
    · simp [hslot]
  · next hslot => simp [hslot]

theorem mem_groupsOf_unsubscribeOne (g : Groups) (s t : SessionRef) (gid gid' : Int64) :
    gid' ∈ (g.unsubscribeOne s gid).groupsOf t ↔
      gid' ∈ g.groupsOf t ∧ ¬ (s.slot = t.slot ∧ gid' = gid) := by
  rw [groupsOf_unsubscribeOne]
  split
  · next hslot => simp [hslot]
  · next hslot => simp [hslot]

theorem mem_members_unsubscribeOne (g : Groups) (s t : SessionRef) (gid gid' : Int64) :
    t ∈ (g.unsubscribeOne s gid).members gid' ↔
      t ∈ g.members gid' ∧ ¬ (t.id = s.id ∧ gid' = gid) := by
  rw [members_unsubscribeOne]
  split
  · next hgid => simp [SessionRef.same, hgid]
  · next hgid => simp [Ne.symm hgid]

/-! ## 2. The two sides agree -/

/-- The buckets and the sets of groups hold the same pairs, each once and only of known sessions.
No bucket is empty, and a slot that no known session has is in no group. -/
structure Coherent (g : Groups) (known : SessionRef → Prop) : Prop where
  known_of_mem : ∀ {s gid}, s ∈ g.members gid → known s
  mem_iff : ∀ {s}, known s → ∀ gid, s ∈ g.members gid ↔ gid ∈ g.groupsOf s
  nodup_members : ∀ gid, (g.members gid).Nodup
  nodup_groupsOf : ∀ s, (g.groupsOf s).Nodup
  bucket : ∀ gid, g.buckets.get? gid = bucketOf (g.members gid)
  unknown : ∀ s, (∀ t, known t → t.slot ≠ s.slot) → g.groupsOf s = []

variable {g : Groups} {known : SessionRef → Prop}

theorem coherent_empty (known : SessionRef → Prop) : ({} : Groups).Coherent known where
  known_of_mem h := absurd h List.not_mem_nil
  mem_iff _ _ := ⟨fun h => absurd h List.not_mem_nil, fun h => absurd h List.not_mem_nil⟩
  nodup_members _ := List.nodup_nil
  nodup_groupsOf _ := List.nodup_nil
  bucket _ := rfl
  unknown _ _ := rfl

/-- A bucket has a session's id only through that session. -/
theorem Coherent.any_same (h : g.Coherent known) (hd : Distinct known) {s : SessionRef}
    (hs : known s) (gid : Int64) : (g.members gid).any (·.same s) = true ↔ s ∈ g.members gid := by
  rw [List.any_eq_true]
  constructor
  · rintro ⟨t, ht, hsame⟩
    exact hd.eq_of_id t s (h.known_of_mem ht) hs (of_decide_eq_true hsame) ▸ ht
  · exact fun hmem => ⟨s, hmem, decide_eq_true rfl⟩

theorem Coherent.mem_members_subscribeOne (h : g.Coherent known) (hd : Distinct known)
    {s : SessionRef} (hs : known s) (t : SessionRef) (gid gid' : Int64) :
    t ∈ (g.subscribeOne s gid).members gid' ↔ t ∈ g.members gid' ∨ (t = s ∧ gid' = gid) := by
  rw [members_subscribeOne]
  split
  · next hgid =>
    subst hgid
    split
    · next hany =>
      have hin := (h.any_same hd hs gid).1 hany
      exact ⟨.inl, fun ht => ht.elim id fun ht => ht.1 ▸ hin⟩
    · simp
  · next hgid => simp [Ne.symm hgid]

theorem Coherent.subscribeOne (h : g.Coherent known) (hd : Distinct known) {s : SessionRef}
    (hs : known s) (gid : Int64) : (g.subscribeOne s gid).Coherent known where
  known_of_mem {t gid'} ht := by
    rw [members_subscribeOne] at ht
    split at ht
    · split at ht
      · exact h.known_of_mem ht
      · rcases List.mem_append.1 ht with ht | ht
        · exact h.known_of_mem ht
        · exact List.mem_singleton.1 ht ▸ hs
    · exact h.known_of_mem ht
  mem_iff {t} ht gid' := by
    -- buckets go by ids and sets of groups by slots, and both mean the session
    have hslot : s.slot = t.slot ↔ t = s :=
      ⟨fun hslot => (hd.eq_of_slot s t hs ht hslot).symm, fun hts => hts ▸ rfl⟩
    rw [h.mem_members_subscribeOne hd hs, mem_groupsOf_subscribeOne, h.mem_iff ht, hslot]
  nodup_members gid' := by
    rw [members_subscribeOne]
    split
    · split
      · exact h.nodup_members gid'
      -- the session is not in the bucket under its own id, so not at all
      · next hnew =>
        refine (h.nodup_members gid').append (List.nodup_singleton s) ?_
        rw [List.disjoint_singleton]
        exact fun hin => hnew ((h.any_same hd hs gid').2 hin)
    · exact h.nodup_members gid'
  nodup_groupsOf t := by
    rw [groupsOf_subscribeOne]
    split
    · split
      · exact h.nodup_groupsOf t
      · next hnew =>
        exact (h.nodup_groupsOf t).append (List.nodup_singleton gid)
          (List.disjoint_singleton.2 hnew)
    · exact h.nodup_groupsOf t
  bucket gid' := by
    rw [members_subscribeOne]
    simp only [Groups.subscribeOne, Table.get?_insert]
    split
    · -- a bucket that has a session already is not empty, and one that gets a session is not either
      next hgid =>
      subst hgid
      split
      · next hany =>
        have hsome : (g.members gid).isEmpty = false := by
          rw [List.any_eq_true] at hany
          obtain ⟨t, ht, -⟩ := hany
          exact List.isEmpty_eq_false_iff_exists_mem.2 ⟨t, ht⟩
        simp [bucketOf, hsome]
      · simp [bucketOf]
    · exact h.bucket gid'
  unknown t ht := by
    rw [groupsOf_subscribeOne, if_neg (ht s hs)]
    exact h.unknown t ht

theorem Coherent.unsubscribeOne (h : g.Coherent known) (hd : Distinct known) {s : SessionRef}
    (hs : known s) (gid : Int64) : (g.unsubscribeOne s gid).Coherent known where
  known_of_mem {t gid'} ht := by
    rw [members_unsubscribeOne] at ht
    split at ht
    · exact h.known_of_mem (List.mem_filter.1 ht).1
    · exact h.known_of_mem ht
  mem_iff {t} ht gid' := by
    -- the bucket loses an id and the set of groups a slot, which is one session
    have hid : t.id = s.id ↔ s.slot = t.slot :=
      ⟨fun hid => hd.eq_of_id t s ht hs hid ▸ rfl, fun hslot => hd.eq_of_slot s t hs ht hslot ▸ rfl⟩
    rw [mem_members_unsubscribeOne, mem_groupsOf_unsubscribeOne, h.mem_iff ht, hid]
  nodup_members gid' := by
    rw [members_unsubscribeOne]
    split
    · exact (h.nodup_members gid').filter _
    · exact h.nodup_members gid'
  nodup_groupsOf t := by
    rw [groupsOf_unsubscribeOne]
    split
    · exact (h.nodup_groupsOf t).filter _
    · exact h.nodup_groupsOf t
  bucket gid' := by
    rw [members_unsubscribeOne]
    simp only [Groups.unsubscribeOne]
    rw [get?_rebucket]
    split
    · next hgid => subst hgid; rfl
    · exact h.bucket gid'
  unknown t ht := by
    rw [groupsOf_unsubscribeOne, if_neg (ht s hs)]
    exact h.unknown t ht

/-! ## 3. Whole mutations -/

theorem Coherent.subscribe (h : g.Coherent known) (hd : Distinct known) {s : SessionRef}
    (hs : known s) (gids : List Int64) : (g.subscribe s gids).Coherent known := by
  induction gids generalizing g with
  | nil => exact h
  | cons gid gids ih => exact ih (h.subscribeOne hd hs gid)

theorem Coherent.unsubscribe (h : g.Coherent known) (hd : Distinct known) {s : SessionRef}
    (hs : known s) (gids : List Int64) : (g.unsubscribe s gids).Coherent known := by
  induction gids generalizing g with
  | nil => exact h
  | cons gid gids ih => exact ih (h.unsubscribeOne hd hs gid)

theorem Coherent.apply (h : g.Coherent known) (hd : Distinct known) {op : GroupChange}
    (hop : known op.session) : (g.apply op).Coherent known := by
  cases op with
  | subscribe s gids => exact h.subscribe hd hop gids
  | unsubscribe s gids => exact h.unsubscribe hd hop gids

/-- More sessions may be known, as long as their slots are new. -/
theorem Coherent.extend (h : g.Coherent known) {more : SessionRef → Prop}
    (hsub : ∀ s, known s → more s)
    (hnew : ∀ s, more s → known s ∨ ∀ t, known t → t.slot ≠ s.slot) : g.Coherent more where
  known_of_mem hmem := hsub _ (h.known_of_mem hmem)
  mem_iff {s} hs gid := by
    by_cases hold : known s
    · exact h.mem_iff hold gid
    -- a session that was not known has joined nothing under its slot
    · have hfresh := (hnew s hs).resolve_left hold
      rw [h.unknown s hfresh]
      exact ⟨fun hmem => absurd (h.known_of_mem hmem) hold,
        fun hmem => absurd hmem List.not_mem_nil⟩
  nodup_members := h.nodup_members
  nodup_groupsOf := h.nodup_groupsOf
  bucket := h.bucket
  unknown s hs := h.unknown s fun t ht => hs t (hsub t ht)

theorem mem_groupsOf_subscribe (g : Groups) (s t : SessionRef) (gids : List Int64) (gid : Int64) :
    gid ∈ (g.subscribe s gids).groupsOf t ↔
      gid ∈ g.groupsOf t ∨ (s.slot = t.slot ∧ gid ∈ gids) := by
  induction gids generalizing g with
  | nil => simp [Groups.subscribe]
  | cons gid' gids ih =>
    rw [Groups.subscribe, List.foldl_cons, ← Groups.subscribe, ih, mem_groupsOf_subscribeOne,
      List.mem_cons]
    tauto

theorem mem_groupsOf_unsubscribe (g : Groups) (s t : SessionRef) (gids : List Int64)
    (gid : Int64) :
    gid ∈ (g.unsubscribe s gids).groupsOf t ↔
      gid ∈ g.groupsOf t ∧ ¬ (s.slot = t.slot ∧ gid ∈ gids) := by
  induction gids generalizing g with
  | nil => simp [Groups.unsubscribe]
  | cons gid' gids ih =>
    rw [Groups.unsubscribe, List.foldl_cons, ← Groups.unsubscribe, ih, mem_groupsOf_unsubscribeOne,
      List.mem_cons]
    tauto

/-- A mutation of one session leaves the groups of every other slot as they are. -/
theorem groupsOf_subscribe_of_ne (g : Groups) {s t : SessionRef} (hne : s.slot ≠ t.slot)
    (gids : List Int64) : (g.subscribe s gids).groupsOf t = g.groupsOf t := by
  induction gids generalizing g with
  | nil => rfl
  | cons gid gids ih =>
    rw [Groups.subscribe, List.foldl_cons, ← Groups.subscribe, ih, groupsOf_subscribeOne,
      if_neg hne]

theorem groupsOf_unsubscribe_of_ne (g : Groups) {s t : SessionRef} (hne : s.slot ≠ t.slot)
    (gids : List Int64) : (g.unsubscribe s gids).groupsOf t = g.groupsOf t := by
  induction gids generalizing g with
  | nil => rfl
  | cons gid gids ih =>
    rw [Groups.unsubscribe, List.foldl_cons, ← Groups.unsubscribe, ih, groupsOf_unsubscribeOne,
      if_neg hne]

/-- Leaving what it is in leaves a session in nothing. -/
theorem groupsOf_unsubscribe_self (g : Groups) (s : SessionRef) :
    (g.unsubscribe s (g.groupsOf s)).groupsOf s = [] := by
  refine List.eq_nil_iff_forall_not_mem.2 fun gid hgid => ?_
  rw [mem_groupsOf_unsubscribe] at hgid
  exact hgid.2 ⟨rfl, hgid.1⟩

/-! ## 4. Mutations that change nothing -/

theorem Coherent.subscribeOne_of_mem (h : g.Coherent known) (hd : Distinct known) {s : SessionRef}
    (hs : known s) {gid : Int64} (hin : gid ∈ g.groupsOf s) : g.subscribeOne s gid = g := by
  have hmember : s ∈ g.members gid := (h.mem_iff hs gid).2 hin
  have hany : (g.members gid).any (·.same s) = true := (h.any_same hd hs gid).2 hmember
  have hbucket : g.buckets.get? gid = some (g.members gid) := by
    rw [h.bucket, bucketOf, if_neg]
    simpa using List.ne_nil_of_mem hmember
  -- a session that is in a group has its set of groups in the table
  have hjoined : g.joined.get? s.slot = some (g.groupsOf s) := by
    rw [groupsOf, Table.getD] at hin ⊢
    cases hget : g.joined.get? s.slot with
    | none => simp [hget] at hin
    | some gids => rfl
  rw [Groups.subscribeOne, if_pos hany, if_pos hin, Table.insert_of_get? hbucket,
    Table.insert_of_get? hjoined]

theorem Coherent.unsubscribeOne_of_not_mem (h : g.Coherent known) (hd : Distinct known)
    {s : SessionRef} (hs : known s) {gid : Int64} (hout : gid ∉ g.groupsOf s) :
    g.unsubscribeOne s gid = g := by
  have hkept : ((g.members gid).filter fun t => !t.same s) = g.members gid := by
    refine List.filter_eq_self.2 fun t ht => ?_
    by_contra hsame
    refine hout ((h.mem_iff hs gid).1 ((h.any_same hd hs gid).1 ?_))
    exact List.any_eq_true.2 ⟨t, ht, by simpa using hsame⟩
  have hbuckets : (if (g.members gid).isEmpty then g.buckets.erase gid
      else g.buckets.insert gid (g.members gid)) = g.buckets := by
    have hbucket := h.bucket gid
    rw [bucketOf] at hbucket
    split
    · next hnil => exact Table.erase_of_get?_eq_none (hbucket.trans (if_pos hnil))
    · next hsome => exact Table.insert_of_get? (hbucket.trans (if_neg hsome))
  have hjoined : (g.joined.modify s.slot fun gids => gids.filter (· ≠ gid)) = g.joined := by
    refine Table.modify_of_get? fun gids hgids => List.filter_eq_self.2 fun gid' hgid' => ?_
    have hnot : gid ∉ gids := by simpa [groupsOf, Table.getD, hgids] using hout
    simpa using ne_of_mem_of_not_mem hgid' hnot
  simp only [Groups.unsubscribeOne, hkept, hbuckets, hjoined]

/-- Joining what is joined already changes nothing. -/
theorem Coherent.subscribe_of_subset (h : g.Coherent known) (hd : Distinct known) {s : SessionRef}
    (hs : known s) {gids : List Int64} (hin : ∀ gid ∈ gids, gid ∈ g.groupsOf s) :
    g.subscribe s gids = g := by
  induction gids with
  | nil => rfl
  | cons gid gids ih =>
    rw [Groups.subscribe, List.foldl_cons, ← Groups.subscribe,
      h.subscribeOne_of_mem hd hs (hin gid List.mem_cons_self)]
    exact ih fun gid' hgid' => hin gid' (List.mem_cons_of_mem _ hgid')

/-- Leaving what is not joined changes nothing. -/
theorem Coherent.unsubscribe_of_disjoint (h : g.Coherent known) (hd : Distinct known)
    {s : SessionRef} (hs : known s) {gids : List Int64} (hout : ∀ gid ∈ gids, gid ∉ g.groupsOf s) :
    g.unsubscribe s gids = g := by
  induction gids with
  | nil => rfl
  | cons gid gids ih =>
    rw [Groups.unsubscribe, List.foldl_cons, ← Groups.unsubscribe,
      h.unsubscribeOne_of_not_mem hd hs (hout gid List.mem_cons_self)]
    exact ih fun gid' hgid' => hout gid' (List.mem_cons_of_mem _ hgid')

end Groups

end Switchboard.Session
