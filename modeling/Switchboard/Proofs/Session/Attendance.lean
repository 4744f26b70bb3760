import Mathlib.Data.List.Induction
import Mathlib.Data.Set.Card
import Switchboard.Proofs.Session.Membership

/-!
# Attendance — the groups of all sessions over a history of calls

Calls to the groups come one after another, and each hands one mutation to the writer. After any
history the two sides of the relation agree, every bucket has its sessions in the order in which
they joined, and of the groups that a call lists only the set matters.
-/

namespace Switchboard.Session

/-! ## 1. Calls -/

/-- A call to the groups: a mutation that names its groups, or a session that leaves all of its
own. -/
inductive GroupCall where
  | change (op : GroupChange)
  | leave (s : SessionRef)
  deriving DecidableEq, Repr

/-- The groups that a mutation lists. -/
def GroupChange.gids : GroupChange → List Int64
  | .subscribe _ gids | .unsubscribe _ gids => gids

def GroupChange.joins : GroupChange → Bool
  | .subscribe _ _ => true
  | .unsubscribe _ _ => false

/-- The same mutation, but for order and repetitions of its groups. -/
def GroupChange.SameAs (op op' : GroupChange) : Prop :=
  op.session = op'.session ∧ op.joins = op'.joins ∧ ∀ gid, gid ∈ op.gids ↔ gid ∈ op'.gids

namespace GroupCall

def session : GroupCall → SessionRef
  | .change op => op.session
  | .leave s => s

def SameAs : GroupCall → GroupCall → Prop
  | .change op, .change op' => op.SameAs op'
  | .leave s, .leave t => s = t
  | _, _ => False

/-- What a call hands to the writer of the groups that it looks at. -/
def handed (g : Groups) : GroupCall → GroupChange
  | .change op => op
  | .leave s => .unsubscribe s (g.groupsOf s)

theorem session_handed (g : Groups) (c : GroupCall) : (c.handed g).session = c.session := by
  cases c <;> rfl

end GroupCall

namespace Groups

def call (g : Groups) (c : GroupCall) : Groups := g.apply (c.handed g)

def after (calls : List GroupCall) : Groups := calls.foldl call {}

theorem after_concat (calls : List GroupCall) (c : GroupCall) :
    after (calls ++ [c]) = (after calls).call c := by
  rw [after, List.foldl_append]
  rfl

/-! ## 2. The buckets after a mutation -/

theorem members_subscribe (g : Groups) (s : SessionRef) (gids : List Int64) (gid : Int64) :
    (g.subscribe s gids).members gid =
      if gid ∈ gids ∧ ¬ (g.members gid).any (·.same s) then g.members gid ++ [s]
      else g.members gid := by
  induction gids generalizing g with
  | nil => simp [Groups.subscribe]
  | cons gid' gids ih =>
    rw [Groups.subscribe, List.foldl_cons, ← Groups.subscribe, ih, members_subscribeOne]
    by_cases hgid : gid' = gid
    · subst hgid
      rw [if_pos rfl]
      by_cases hany : (g.members gid').any (·.same s) = true
      · rw [if_pos hany, if_neg fun h => h.2 hany, if_neg fun h => h.2 hany]
      · -- from the first time on the session is in the bucket
        have hin : (g.members gid' ++ [s]).any (·.same s) = true := by simp [SessionRef.same]
        rw [if_neg hany, if_neg fun h => h.2 hin, if_pos ⟨List.mem_cons_self, hany⟩]
    · simp [hgid, Ne.symm hgid]

theorem members_unsubscribe (g : Groups) (s : SessionRef) (gids : List Int64) (gid : Int64) :
    (g.unsubscribe s gids).members gid =
      if gid ∈ gids then (g.members gid).filter fun t => !t.same s else g.members gid := by
  induction gids generalizing g with
  | nil => simp [Groups.unsubscribe]
  | cons gid' gids ih =>
    rw [Groups.unsubscribe, List.foldl_cons, ← Groups.unsubscribe, ih, members_unsubscribeOne]
    by_cases hgid : gid' = gid
    · simp [hgid, List.filter_filter]
    · simp [hgid, Ne.symm hgid]

variable {g : Groups} {known : SessionRef → Prop}

/-- A bucket keeps the order of those that stay, and who is new comes last. -/
theorem members_apply (h : g.Coherent known) (hd : Distinct known) {op : GroupChange}
    (hop : known op.session) (gid : Int64) :
    ∃ stay new, (g.apply op).members gid = stay ++ new ∧ List.Sublist stay (g.members gid) ∧
      (new = [] ∨ (new = [op.session] ∧ op.session ∉ g.members gid)) := by
  cases op with
  | subscribe s gids =>
    rw [Groups.apply, members_subscribe]
    split
    · next hjoin =>
      refine ⟨_, [s], rfl, List.Sublist.refl _, .inr ⟨rfl, fun hs => hjoin.2 ?_⟩⟩
      exact (h.any_same hd hop gid).2 hs
    · exact ⟨_, [], (List.append_nil _).symm, List.Sublist.refl _, .inl rfl⟩
  | unsubscribe s gids =>
    rw [Groups.apply, members_unsubscribe]
    split
    · exact ⟨_, [], (List.append_nil _).symm, List.filter_sublist, .inl rfl⟩
    · exact ⟨_, [], (List.append_nil _).symm, List.Sublist.refl _, .inl rfl⟩

/-- Of the groups that a call lists, its session is in all or in none, and nothing else changes. -/
structure Moved (op : GroupChange) (before after : Groups) : Prop where
  listed : ∀ gid ∈ op.gids, op.session ∈ after.members gid ↔ op.joins = true
  unlisted : ∀ gid ∉ op.gids, after.members gid = before.members gid ∧
    (gid ∈ after.groupsOf op.session ↔ gid ∈ before.groupsOf op.session)
  others : ∀ gid, (after.members gid).filter (· ≠ op.session) =
    (before.members gid).filter (· ≠ op.session)
  groupsOf : ∀ s, s.slot ≠ op.session.slot → after.groupsOf s = before.groupsOf s

theorem moved_apply (h : g.Coherent known) (hd : Distinct known) {op : GroupChange}
    (hop : known op.session) : Moved op g (g.apply op) := by
  cases op with
  | subscribe s gids =>
    constructor
    · intro gid hgid
      have hin : s ∈ (g.subscribe s gids).members gid := by
        rw [members_subscribe]
        split
        · exact List.mem_append_right _ List.mem_cons_self
        · next hnot =>
          by_cases hany : (g.members gid).any (·.same s) = true
          · exact (h.any_same hd hop gid).1 hany
          · exact absurd ⟨hgid, hany⟩ hnot
      exact ⟨fun _ => rfl, fun _ => hin⟩
    · intro gid hgid
      refine ⟨?_, ?_⟩
      · show (g.subscribe s gids).members gid = _
        rw [members_subscribe, if_neg fun hjoin => hgid hjoin.1]
      · show gid ∈ (g.subscribe s gids).groupsOf s ↔ _
        rw [mem_groupsOf_subscribe]
        exact ⟨fun hin => hin.resolve_right fun hin => hgid hin.2, .inl⟩
    · intro gid
      show ((g.subscribe s gids).members gid).filter (· ≠ s) = (g.members gid).filter (· ≠ s)
      rw [members_subscribe]
      split
      · simp
      · rfl
    · exact fun t ht => g.groupsOf_subscribe_of_ne (Ne.symm ht) gids
  | unsubscribe s gids =>
    constructor
    · intro gid hgid
      have hout : s ∉ (g.unsubscribe s gids).members gid := by
        rw [members_unsubscribe, if_pos (show gid ∈ gids from hgid), List.mem_filter]
        simp [SessionRef.same]
      exact ⟨fun hin => absurd hin hout, fun hjoins => absurd hjoins Bool.false_ne_true⟩
    · intro gid hgid
      refine ⟨?_, ?_⟩
      · show (g.unsubscribe s gids).members gid = _
        rw [members_unsubscribe, if_neg (show gid ∉ gids from hgid)]
      · show gid ∈ (g.unsubscribe s gids).groupsOf s ↔ _
        rw [mem_groupsOf_unsubscribe]
        exact ⟨fun hin => hin.1, fun hin => ⟨hin, fun hleft => hgid hleft.2⟩⟩
    · intro gid
      show ((g.unsubscribe s gids).members gid).filter (· ≠ s) = _
      rw [members_unsubscribe]
      split
      · -- whoever has the id of the session is the session
        rw [List.filter_filter]
        refine List.filter_congr fun t ht => ?_
        by_cases hts : t = s
        · simp [hts, GroupChange.session]
        · have hid : ¬ t.id = s.id := fun hid =>
            hts (hd.eq_of_id t s (h.known_of_mem ht) hop hid)
          simp [hts, hid, SessionRef.same, GroupChange.session]
      · rfl
    · exact fun t ht => g.groupsOf_unsubscribe_of_ne (Ne.symm ht) gids

/-! ## 3. Histories -/

variable {calls : List GroupCall}

theorem coherent_after (hd : Distinct known) (hcalls : ∀ c ∈ calls, known c.session) :
    (after calls).Coherent known := by
  induction calls using List.reverseRecOn with
  | nil => exact coherent_empty known
  | append_singleton calls c ih =>
    rw [after_concat]
    refine (ih fun c hc => hcalls c (List.mem_append_left _ hc)).apply hd ?_
    rw [GroupCall.session_handed]
    exact hcalls c (List.mem_append_right _ List.mem_cons_self)

/-- The call of that number brought the session into the group, and it has been there since. -/
def JoinedAt (calls : List GroupCall) (gid : Int64) (s : SessionRef) (n : Nat) : Prop :=
  n < calls.length ∧ s ∉ (after (calls.take n)).members gid ∧
    ∀ m, n < m → m ≤ calls.length → s ∈ (after (calls.take m)).members gid

def JoinedBefore (calls : List GroupCall) (gid : Int64) (s t : SessionRef) : Prop :=
  ∃ m n, m < n ∧ JoinedAt calls gid s m ∧ JoinedAt calls gid t n

theorem JoinedAt.concat {gid : Int64} {s : SessionRef} {n : Nat} (h : JoinedAt calls gid s n)
    {c : GroupCall} (hin : s ∈ (after (calls ++ [c])).members gid) :
    JoinedAt (calls ++ [c]) gid s n := by
  obtain ⟨hlt, hout, hsince⟩ := h
  refine ⟨?_, ?_, fun m hnm hm => ?_⟩
  · rw [List.length_append]
    exact Nat.lt_add_right _ hlt
  · rwa [List.take_append_of_le_length (Nat.le_of_lt hlt)]
  · by_cases hlast : m ≤ calls.length
    · rw [List.take_append_of_le_length hlast]
      exact hsince m hnm hlast
    · rw [List.take_of_length_le (by rw [List.length_append, List.length_singleton]; omega)]
      exact hin

/-- Who was not in the group before the last call and is now has joined by that call. -/
theorem joinedAt_last {gid : Int64} {s : SessionRef} {c : GroupCall}
    (hout : s ∉ (after calls).members gid) (hin : s ∈ (after (calls ++ [c])).members gid) :
    JoinedAt (calls ++ [c]) gid s calls.length := by
  refine ⟨?_, ?_, fun m hm _ => ?_⟩
  · rw [List.length_append]
    exact Nat.lt_succ_self _
  · rwa [List.take_append_of_le_length (Nat.le_refl _), List.take_length]
  · rwa [List.take_of_length_le (by rw [List.length_append, List.length_singleton]; omega)]

theorem exists_joinedAt {gid : Int64} {s : SessionRef} (hin : s ∈ (after calls).members gid) :
    ∃ n, JoinedAt calls gid s n := by
  induction calls using List.reverseRecOn with
  | nil => exact absurd hin List.not_mem_nil
  | append_singleton calls c ih =>
    by_cases hold : s ∈ (after calls).members gid
    · obtain ⟨n, hn⟩ := ih hold
      exact ⟨n, hn.concat hin⟩
    · exact ⟨calls.length, joinedAt_last hold hin⟩

/-- A bucket has its sessions in the order in which they joined. -/
theorem members_pairwise (hd : Distinct known) (hcalls : ∀ c ∈ calls, known c.session)
    (gid : Int64) : ((after calls).members gid).Pairwise (JoinedBefore calls gid) := by
  induction calls using List.reverseRecOn with
  | nil => exact List.Pairwise.nil
  | append_singleton calls c ih =>
    have hold : ∀ c ∈ calls, known c.session := fun c hc => hcalls c (List.mem_append_left _ hc)
    have hsession : known (c.handed (after calls)).session := by
      rw [GroupCall.session_handed]
      exact hcalls c (List.mem_append_right _ List.mem_cons_self)
    obtain ⟨stay, new, hmembers, hstay, hnew⟩ :=
      members_apply (coherent_after hd hold) hd hsession gid
    have hafter : (after (calls ++ [c])).members gid = stay ++ new := by
      rw [after_concat]
      exact hmembers
    have hin : ∀ s ∈ stay, s ∈ (after (calls ++ [c])).members gid := fun s hs =>
      hafter ▸ List.mem_append_left _ hs
    rw [hafter, List.pairwise_append]
    refine ⟨?stayed, ?joined, ?both⟩
    case stayed =>
      -- those that stay have joined when they had
      refine ((ih hold).sublist hstay).imp_of_mem ?_
      rintro s t hs ht ⟨m, n, hmn, hm, hn⟩
      exact ⟨m, n, hmn, hm.concat (hin s hs), hn.concat (hin t ht)⟩
    case joined =>
      rcases hnew with rfl | ⟨rfl, -⟩
      · exact List.Pairwise.nil
      · exact List.pairwise_singleton _ _
    case both =>
      -- and whoever is new has joined by the last call
      intro s hs t ht
      rcases hnew with rfl | ⟨rfl, hout⟩
      · exact absurd ht List.not_mem_nil
      · obtain rfl := List.mem_singleton.1 ht
        obtain ⟨n, hn⟩ := exists_joinedAt (hstay.mem hs)
        exact ⟨n, calls.length, hn.1, hn.concat (hin s hs),
          joinedAt_last hout (hafter ▸ List.mem_append_right _ ht)⟩

/-- As many buckets as there are groups with a session. -/
theorem Coherent.count_eq (h : g.Coherent known) :
    (g.count : ℕ∞) = {gid | ∃ s, s ∈ g.members gid}.encard := by
  have hkeys : {gid | ∃ s, s ∈ g.members gid} = (g.buckets.keys.toFinset : Set Int64) := by
    ext gid
    rw [List.coe_toFinset, Set.mem_ofPred_eq, Set.mem_ofPred_eq, Table.mem_keys_iff, h.bucket,
      isSome_bucketOf]
  have hnodup : g.buckets.keys.Nodup := g.buckets.nodup
  rw [hkeys, Set.encard_coe_eq_coe_finsetCard, List.toFinset_card_of_nodup hnodup, count,
    Table.size, Table.keys, List.length_map]

/-! ## 4. Calls that list the same groups -/

/-- Whoever looks at the groups cannot tell the two apart. -/
structure LooksLike (g g' : Groups) : Prop where
  members : ∀ gid, g.members gid = g'.members gid
  groupsOf : ∀ s gid, gid ∈ g.groupsOf s ↔ gid ∈ g'.groupsOf s
  count : g.count = g'.count

theorem Coherent.looksLike (h : g.Coherent known) {g' : Groups} (h' : g'.Coherent known)
    (hmembers : ∀ gid, g.members gid = g'.members gid)
    (hgroupsOf : ∀ s gid, gid ∈ g.groupsOf s ↔ gid ∈ g'.groupsOf s) : g.LooksLike g' where
  members := hmembers
  groupsOf := hgroupsOf
  count := by
    have hcount : (g.count : ℕ∞) = g'.count := by
      rw [h.count_eq, h'.count_eq]
      simp only [hmembers]
    exact_mod_cast hcount

theorem LooksLike.refl (g : Groups) : g.LooksLike g := ⟨fun _ => rfl, fun _ _ => Iff.rfl, rfl⟩

section SameGroups

variable {g' : Groups} {s : SessionRef} {gids gids' : List Int64}

theorem LooksLike.subscribe (h : g.LooksLike g') (hg : g.Coherent known) (hg' : g'.Coherent known)
    (hd : Distinct known) (hs : known s) (hgids : ∀ gid, gid ∈ gids ↔ gid ∈ gids') :
    (g.subscribe s gids).LooksLike (g'.subscribe s gids') := by
  refine (hg.subscribe hd hs gids).looksLike (hg'.subscribe hd hs gids') (fun gid => ?_)
    fun t gid => ?_
  · rw [members_subscribe, members_subscribe, h.members]
    simp only [hgids]
  · rw [mem_groupsOf_subscribe, mem_groupsOf_subscribe, h.groupsOf, hgids]

theorem LooksLike.unsubscribe (h : g.LooksLike g') (hg : g.Coherent known)
    (hg' : g'.Coherent known) (hd : Distinct known) (hs : known s)
    (hgids : ∀ gid, gid ∈ gids ↔ gid ∈ gids') :
    (g.unsubscribe s gids).LooksLike (g'.unsubscribe s gids') := by
  refine (hg.unsubscribe hd hs gids).looksLike (hg'.unsubscribe hd hs gids') (fun gid => ?_)
    fun t gid => ?_
  · rw [members_unsubscribe, members_unsubscribe, h.members]
    simp only [hgids]
  · rw [mem_groupsOf_unsubscribe, mem_groupsOf_unsubscribe, h.groupsOf, hgids]

theorem LooksLike.apply (h : g.LooksLike g') (hg : g.Coherent known) (hg' : g'.Coherent known)
    (hd : Distinct known) {op op' : GroupChange} (hop : known op.session)
    (hsame : op.SameAs op') : (g.apply op).LooksLike (g'.apply op') := by
  obtain ⟨hsession, hjoins, hgids⟩ := hsame
  cases op with
  | subscribe s gids =>
    cases op' with
    | unsubscribe => cases hjoins
    | subscribe t gids' =>
      obtain rfl : s = t := hsession
      exact h.subscribe hg hg' hd hop hgids
  | unsubscribe s gids =>
    cases op' with
    | subscribe => cases hjoins
    | unsubscribe t gids' =>
      obtain rfl : s = t := hsession
      exact h.unsubscribe hg hg' hd hop hgids

end SameGroups

/-- Calls that list the same groups hand the same to the writer. -/
theorem LooksLike.handed {g' : Groups} (h : g.LooksLike g') {c c' : GroupCall}
    (hsame : c.SameAs c') : (c.handed g).SameAs (c'.handed g') := by
  cases c with
  | change op =>
    cases c' with
    | change op' => exact hsame
    | leave => exact hsame.elim
  | leave s =>
    cases c' with
    | change => exact hsame.elim
    | leave t =>
      obtain rfl : s = t := hsame
      exact ⟨rfl, rfl, h.groupsOf s⟩

theorem looksLike_foldl {g' : Groups} (hd : Distinct known) {calls calls' : List GroupCall}
    (hsame : List.Forall₂ GroupCall.SameAs calls calls') (hcalls : ∀ c ∈ calls, known c.session)
    (h : g.LooksLike g') (hg : g.Coherent known) (hg' : g'.Coherent known) :
    (calls.foldl call g).LooksLike (calls'.foldl call g') := by
  induction hsame generalizing g g' with
  | nil => exact h
  | @cons c c' calls calls' hfirst _ ih =>
    have hhanded := h.handed hfirst
    have hop : known (c.handed g).session := by
      rw [GroupCall.session_handed]
      exact hcalls c List.mem_cons_self
    exact ih (fun c hc => hcalls c (List.mem_cons_of_mem _ hc)) (h.apply hg hg' hd hop hhanded)
      (hg.apply hd hop) (hg'.apply hd (hhanded.1 ▸ hop))

/-! ## 5. After any history -/

/-- After any calls about sessions of distinct ids, a session is in the bucket of a group, once, if
and only if the group is one of its own; each bucket is in the order of joining and none is empty.
Calls with the same groups in any order and number come to what looks the same, a session may read
its own groups in any order, a call changes nothing but the groups that it lists for its session,
and whoever leaves everything is in no bucket. -/
theorem attended_after (hd : Distinct known) (calls : List GroupCall)
    (hcalls : ∀ c ∈ calls, known c.session) :
    (∀ s, known s → ∀ gid, ((after calls).members gid).count s =
      if gid ∈ (after calls).groupsOf s then 1 else 0) ∧
    (∀ gid, ((after calls).members gid).Pairwise (JoinedBefore calls gid)) ∧
    ((after calls).count : ℕ∞) = {gid | ∃ s, s ∈ (after calls).members gid}.encard ∧
    (∀ gid, (after calls).buckets.get? gid ≠ some []) ∧
    (∀ calls', List.Forall₂ GroupCall.SameAs calls calls' →
      (after calls).LooksLike (after calls')) ∧
    (∀ s, known s → ∀ gids, (∀ gid, gid ∈ gids ↔ gid ∈ (after calls).groupsOf s) →
      ((after calls).unsubscribe s gids).LooksLike ((after calls).unsubscribeAll s)) ∧
    (∀ c, known c.session →
      Moved (c.handed (after calls)) (after calls) ((after calls).call c)) ∧
    ∀ s, known s → ∀ gid, s ∉ ((after calls).unsubscribeAll s).members gid := by
  have h := coherent_after hd hcalls
  refine ⟨?once, members_pairwise hd hcalls, h.count_eq, ?nonempty, ?sets, ?order, ?moved, ?left⟩
  case once =>
    intro s hs gid
    by_cases hin : s ∈ (after calls).members gid
    · rw [List.count_eq_one_of_mem (h.nodup_members gid) hin, if_pos ((h.mem_iff hs gid).1 hin)]
    · rw [List.count_eq_zero_of_not_mem hin, if_neg fun hgid => hin ((h.mem_iff hs gid).2 hgid)]
  case nonempty =>
    intro gid hnil
    rw [h.bucket, bucketOf] at hnil
    split at hnil
    · cases hnil
    · next hsome => exact hsome (by simpa using hnil)
  case sets =>
    exact fun calls' hsame => looksLike_foldl hd hsame hcalls (.refl _) (coherent_empty known)
      (coherent_empty known)
  case order =>
    exact fun s hs gids hgids => (LooksLike.refl _).unsubscribe h h hd hs hgids
  case moved =>
    intro c hc
    refine moved_apply h hd ?_
    rwa [GroupCall.session_handed]
  case left =>
    intro s hs gid hin
    rw [unsubscribeAll, (h.unsubscribe hd hs _).mem_iff hs, groupsOf_unsubscribe_self] at hin
    exact absurd hin List.not_mem_nil

def devices : List SessionRef := [⟨0, 1, 100, "a"⟩, ⟨1, 2, 100, "b"⟩]

/-- The first device joins some groups, leaves everything once the second one is in group 10, and
comes back to that group. -/
def comeback (gids : List Int64) : List GroupCall :=
  [.change (.subscribe ⟨0, 1, 100, "a"⟩ gids), .change (.subscribe ⟨1, 2, 100, "b"⟩ [10]),
    .leave ⟨0, 1, 100, "a"⟩, .change (.unsubscribe ⟨1, 2, 100, "b"⟩ [11]),
    .change (.subscribe ⟨0, 1, 100, "a"⟩ [10])]

/-- Whoever comes back is last, and one bucket is left, however the groups were listed at first. -/
theorem attended_after_comeback :
    Distinct (· ∈ devices) ∧ (∀ c ∈ comeback [10, 11, 10], c.session ∈ devices) ∧
    (after (comeback [10, 11, 10])).members 10 = [⟨1, 2, 100, "b"⟩, ⟨0, 1, 100, "a"⟩] ∧
    JoinedBefore (comeback [10, 11, 10]) 10 ⟨1, 2, 100, "b"⟩ ⟨0, 1, 100, "a"⟩ ∧
    {gid | ∃ s, s ∈ (after (comeback [10, 11, 10])).members gid}.encard = 1 ∧
    (after (comeback [10, 11, 10])).LooksLike (after (comeback [11, 10])) := by
  have hids : ∀ s ∈ devices, ∀ t ∈ devices, s.id = t.id → s = t := by decide
  have hslots : ∀ s ∈ devices, ∀ t ∈ devices, s.slot = t.slot → s = t := by decide
  have hd : Distinct (· ∈ devices) :=
    ⟨fun s t hs ht => hids s hs t ht, fun s t hs ht => hslots s hs t ht⟩
  have hcalls : ∀ c ∈ comeback [10, 11, 10], c.session ∈ devices := by decide
  have hsame : List.Forall₂ GroupCall.SameAs (comeback [10, 11, 10]) (comeback [11, 10]) :=
    .cons ⟨rfl, rfl, fun gid => by simp [GroupChange.gids, or_comm]⟩
      (.cons ⟨rfl, rfl, fun _ => Iff.rfl⟩ (.cons rfl (.cons ⟨rfl, rfl, fun _ => Iff.rfl⟩
        (.cons ⟨rfl, rfl, fun _ => Iff.rfl⟩ .nil))))
  obtain ⟨-, horder, hcount, -, hsets, -⟩ := attended_after hd _ hcalls
  have hmembers : (after (comeback [10, 11, 10])).members 10 =
      [⟨1, 2, 100, "b"⟩, ⟨0, 1, 100, "a"⟩] := by
    decide
  have hpair := horder 10
  rw [hmembers, List.pairwise_pair] at hpair
  exact ⟨hd, hcalls, hmembers, hpair, hcount.symm, hsets _ hsame⟩

end Groups

end Switchboard.Session
