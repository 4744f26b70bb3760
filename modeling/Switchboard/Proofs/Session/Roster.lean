import Mathlib.Data.List.Induction
import Mathlib.Data.List.Nodup
import Switchboard.Session.Index

/-!
# Roster — the index as one list of sessions

The index of a node keeps its sessions twice, by id and by user. Both sides are views of a single
list, the roster, in the order of registration: `Represents` says so, every mutation keeps it, and
all that can be asked of an index is read off the list.
-/

namespace Switchboard.Session

/-! ## 1. The roster and its mutations -/

/-- What a mutation does to the roster. -/
def IndexChange.enrol (roster : List SessionRef) : IndexChange → List SessionRef
  | .add s => if roster.any (·.same s) then roster else roster ++ [s]
  | .remove s => roster.filter fun t => !t.same s
  | .detachUser uid => roster.filter fun t => t.uid ≠ uid

/-- The sessions that a mutation is given. -/
def IndexChange.named : IndexChange → List SessionRef
  | .add s | .remove s => [s]
  | .detachUser _ => []

def rosterOf (ops : List IndexChange) : List SessionRef := ops.foldl IndexChange.enrol []

/-- Sessions of one id are one session, as the ids of a node are handed out. -/
def OnePerId (sessions : List SessionRef) : Prop :=
  ∀ s ∈ sessions, ∀ t ∈ sessions, s.id = t.id → s = t

theorem mem_enrol {roster : List SessionRef} {op : IndexChange} {t : SessionRef}
    (h : t ∈ op.enrol roster) : t ∈ roster ∨ t ∈ op.named := by
  cases op with
  | add s =>
    simp only [IndexChange.enrol] at h
    split at h
    · exact .inl h
    · simpa [IndexChange.named] using h
  | remove s => exact .inl (List.mem_filter.1 h).1
  | detachUser uid => exact .inl (List.mem_filter.1 h).1

/-! ## 2. The index as a view of the roster -/

/-- The bucket of some sessions: there is none without sessions. -/
def bucketOf (sessions : List SessionRef) : Option (List SessionRef) :=
  if sessions.isEmpty then none else some sessions

@[simp] theorem getD_bucketOf (sessions : List SessionRef) :
    (bucketOf sessions).getD [] = sessions := by
  cases sessions <;> rfl

theorem isSome_bucketOf (sessions : List SessionRef) :
    (bucketOf sessions).isSome = true ↔ ∃ s, s ∈ sessions := by
  cases sessions <;> simp [bucketOf]

/-- Keeping a table of buckets free of empty ones is one look at the new bucket. -/
theorem get?_rebucket {κ : Type} [DecidableEq κ] (t : Table κ (List SessionRef)) (k k' : κ)
    (bucket : List SessionRef) :
    (if bucket.isEmpty then t.erase k else t.insert k bucket).get? k' =
      if k = k' then bucketOf bucket else t.get? k' := by
  by_cases hempty : bucket.isEmpty <;> simp [bucketOf, hempty]

namespace Index

/-- Both sides of the index hold exactly the sessions of the roster, in its order. -/
structure Represents (x : Index) (roster : List SessionRef) : Prop where
  byId : x.byId.entries = roster.map fun s => (s.id, s)
  byUid : ∀ uid, x.byUid.get? uid = bucketOf (roster.filter fun s => s.uid = uid)

variable {x : Index} {roster : List SessionRef}

theorem represents_empty : ({} : Index).Represents [] where
  byId := rfl
  byUid _ := rfl

namespace Represents

theorem nodup_ids (h : x.Represents roster) : (roster.map SessionRef.id).Nodup := by
  have hkeys := x.byId.nodup
  rwa [h.byId, List.map_map] at hkeys

theorem nodup (h : x.Represents roster) : roster.Nodup := List.Nodup.of_map _ h.nodup_ids

theorem eq_of_id_eq (h : x.Represents roster) {s t : SessionRef} (hs : s ∈ roster)
    (ht : t ∈ roster) (hid : s.id = t.id) : s = t :=
  List.inj_on_of_nodup_map h.nodup_ids hs ht hid

theorem ofUser_eq (h : x.Represents roster) (uid : Int64) :
    x.ofUser uid = roster.filter fun s => s.uid = uid := by
  rw [ofUser, Table.getD, h.byUid, getD_bucketOf]

theorem mem_ofUser (h : x.Represents roster) {uid : Int64} {s : SessionRef} :
    s ∈ x.ofUser uid ↔ s ∈ roster ∧ s.uid = uid := by
  rw [h.ofUser_eq, List.mem_filter, decide_eq_true_eq]

theorem all_eq (h : x.Represents roster) : x.all = roster := by
  rw [all, Table.values, h.byId, List.map_map]
  exact List.map_id _

theorem size_eq (h : x.Represents roster) : x.size = roster.length := by
  rw [size, Table.size, h.byId, List.length_map]

theorem contains_byId (h : x.Represents roster) (s : SessionRef) :
    x.byId.contains s.id = roster.any (·.same s) := by
  rw [Table.contains, h.byId, List.any_map]
  rfl

theorem get?_byId (h : x.Represents roster) (id : UInt64) (s : SessionRef) :
    x.byId.get? id = some s ↔ s ∈ roster ∧ s.id = id := by
  rw [← Table.mem_entries_iff, h.byId]
  simp only [List.mem_map, Prod.mk.injEq]
  exact ⟨fun ⟨t, ht, hid, hts⟩ => hts ▸ ⟨ht, hid⟩, fun ⟨hs, hid⟩ => ⟨s, hs, hid, rfl⟩⟩

theorem contains_byUid (h : x.Represents roster) (uid : Int64) :
    x.byUid.contains uid = true ↔ ∃ s ∈ roster, s.uid = uid := by
  rw [Table.contains_eq_isSome, h.byUid, isSome_bucketOf]
  simp

/-! ## 3. Mutations keep the view -/

theorem add (h : x.Represents roster) (s : SessionRef) :
    (x.add s).Represents ((IndexChange.add s).enrol roster) := by
  simp only [Index.add, IndexChange.enrol, h.contains_byId]
  split
  · exact h
  · next hnew =>
    -- a new id goes to the end of the table, as the session does on the roster
    have hfresh : x.byId.get? s.id = none := by
      rw [← h.contains_byId, Table.contains_eq_isSome] at hnew
      simpa using hnew
    constructor
    · rw [Table.entries_insert_of_get?_eq_none hfresh, h.byId, List.map_append]
      rfl
    · intro uid
      rw [Table.get?_insert, h.ofUser_eq, h.byUid, List.filter_append]
      by_cases hu : s.uid = uid
      · subst hu
        simp [bucketOf]
      · simp [hu]

/-- A session goes by its id, but only the bucket of its own user is searched. So the roster must
not have the id under another session. -/
theorem remove (h : x.Represents roster) {s : SessionRef}
    (hs : ∀ t ∈ roster, t.id = s.id → t = s) :
    (x.remove s).Represents ((IndexChange.remove s).enrol roster) := by
  have henrol : (IndexChange.remove s).enrol roster = roster.filter fun t => !t.same s := rfl
  rw [henrol, Index.remove, h.contains_byId]
  split
  · constructor
    · show (x.byId.entries.filter fun e => e.1 ≠ s.id) = _
      rw [h.byId, List.filter_map]
      congr 1
      exact List.filter_congr fun t _ => by simp [SessionRef.same]
    · intro uid
      show (if _ then _ else _ : Table Int64 (List SessionRef)).get? uid = _
      rw [get?_rebucket, h.ofUser_eq, h.byUid, List.filter_filter, List.filter_filter]
      split
      · -- the bucket of the session's own user loses the session
        next hu =>
        subst hu
        congr 1
        exact List.filter_congr fun t _ => Bool.and_comm _ _
      · -- and no other bucket has the id
        next hu =>
        congr 1
        refine List.filter_congr fun t ht => ?_
        by_cases htu : t.uid = uid
        · have hid : ¬ t.id = s.id := fun hid => hu (hs t ht hid ▸ htu)
          simp [htu, SessionRef.same, hid]
        · simp [htu]
  · next habsent =>
    -- the id is on no entry, so there is nothing to filter out
    have hall : (roster.filter fun t => !t.same s) = roster :=
      List.filter_eq_self.2 fun t ht => by
        simpa using fun hsame => habsent (List.any_eq_true.2 ⟨t, ht, hsame⟩)
    rwa [hall]

theorem detachUser (h : x.Represents roster) (uid : Int64) :
    (x.detachUser uid).2.Represents ((IndexChange.detachUser uid).enrol roster) := by
  constructor
  · show ((x.ofUser uid).foldl (fun t s => t.erase s.id) x.byId).entries = _
    rw [← List.foldl_map (f := SessionRef.id) (g := Table.erase), Table.entries_foldl_erase,
      h.byId, List.filter_map, IndexChange.enrol]
    congr 1
    refine List.filter_congr fun t ht => ?_
    -- an id is among the detached ones only if its own session is
    have hid : t.id ∈ (x.ofUser uid).map SessionRef.id ↔ t.uid = uid := by
      rw [List.mem_map]
      constructor
      · rintro ⟨u, hu, hut⟩
        have hu := h.mem_ofUser.1 hu
        exact h.eq_of_id_eq hu.1 ht hut ▸ hu.2
      · exact fun htu => ⟨t, h.mem_ofUser.2 ⟨ht, htu⟩, rfl⟩
    simp only [Function.comp, hid, ne_eq]
  · intro u
    show (x.byUid.erase uid).get? u = _
    rw [Table.get?_erase, h.byUid, IndexChange.enrol, List.filter_filter]
    split
    · next hu => simp [hu, bucketOf]
    · next hu =>
      congr 1
      refine List.filter_congr fun t _ => ?_
      by_cases ht : t.uid = u
      · simp [ht, Ne.symm hu]
      · simp [ht]

/-- One mutation, in terms of the roster. -/
theorem apply (h : x.Represents roster) {op : IndexChange}
    (hop : ∀ s ∈ op.named, ∀ t ∈ roster, t.id = s.id → t = s) :
    (x.apply op).2.Represents (op.enrol roster) := by
  cases op with
  | add s => exact h.add s
  | remove s => exact h.remove (hop s List.mem_cons_self)
  | detachUser uid => exact h.detachUser uid

end Represents

/-! ## 4. Histories -/

def after (ops : List IndexChange) : Index := ops.foldl (fun x op => (x.apply op).2) {}

theorem mem_rosterOf {ops : List IndexChange} {s : SessionRef} (h : s ∈ rosterOf ops) :
    s ∈ ops.flatMap IndexChange.named := by
  induction ops using List.reverseRecOn with
  | nil => exact absurd h List.not_mem_nil
  | append_singleton ops op ih =>
    rw [rosterOf, List.foldl_append] at h
    rw [List.flatMap_append, List.mem_append]
    rcases mem_enrol h with h | h
    · exact .inl (ih h)
    · exact .inr (by simpa using h)

theorem represents_after (ops : List IndexChange) (h : OnePerId (ops.flatMap IndexChange.named)) :
    (after ops).Represents (rosterOf ops) := by
  -- the last mutation comes on top of a view of the roster so far
  induction ops using List.reverseRecOn with
  | nil => exact represents_empty
  | append_singleton ops op ih =>
    have hsub : ∀ s ∈ ops.flatMap IndexChange.named,
        s ∈ (ops ++ [op]).flatMap IndexChange.named := by simp +contextual
    have ih := ih fun s hs t ht => h s (hsub s hs) t (hsub t ht)
    rw [after, rosterOf, List.foldl_append, List.foldl_append]
    refine ih.apply fun s hs t ht hid => ?_
    exact h t (hsub t (mem_rosterOf ht)) s (by simp [hs]) hid

theorem add_add (x : Index) (s : SessionRef) : (x.add s).add s = x.add s := by
  have hin : (x.add s).byId.contains s.id = true := by
    rw [Index.add]
    split
    · assumption
    · simp [Table.contains_eq_isSome]
  rw [Index.add, if_pos hin]

theorem remove_of_absent (h : x.Represents roster) {s : SessionRef}
    (hs : ∀ t ∈ roster, t.id ≠ s.id) : x.remove s = x := by
  rw [Index.remove, if_neg]
  rw [h.contains_byId, List.any_eq_true]
  rintro ⟨t, ht, hsame⟩
  exact hs t ht (of_decide_eq_true hsame)

/-- A user without sessions has none to detach. -/
theorem detachUser_of_absent (h : x.Represents roster) {uid : Int64} (hnone : x.ofUser uid = []) :
    (x.detachUser uid).2 = x := by
  have hbucket : x.byUid.get? uid = none := by
    rw [h.byUid, ← h.ofUser_eq, hnone]
    rfl
  rw [detachUser, hnone, Table.erase_of_get?_eq_none hbucket]
  rfl

/-- After any history the index answers as its roster does, both of its sides agree, and a user has
a bucket only while one of the user's sessions is on the roster. -/
theorem after_refines_roster (ops : List IndexChange)
    (h : OnePerId (ops.flatMap IndexChange.named)) :
    (∀ uid, (after ops).ofUser uid = (rosterOf ops).filter fun s => s.uid = uid) ∧
    (after ops).all.Nodup ∧ (∀ s, s ∈ (after ops).all ↔ s ∈ rosterOf ops) ∧
    (after ops).size = (rosterOf ops).length ∧
    (∀ uid, ((after ops).apply (.detachUser uid)).1 = (after ops).ofUser uid) ∧
    (∀ uid, (after ops).byUid.contains uid = true ↔ ∃ s ∈ rosterOf ops, s.uid = uid) ∧
    (∀ uid, (after ops).byUid.get? uid ≠ some []) ∧
    (∀ id s, (after ops).byId.get? id = some s ↔ s ∈ (after ops).ofUser s.uid ∧ s.id = id) ∧
    (∀ s, ((after ops).add s).add s = (after ops).add s) ∧
    (∀ s, (∀ t ∈ rosterOf ops, t.id ≠ s.id) → (after ops).remove s = after ops) := by
  -- all of it is read off what the index represents
  have hrep := represents_after ops h
  refine ⟨hrep.ofUser_eq, ?nodup, ?elements, hrep.size_eq, fun _ => rfl, hrep.contains_byUid,
    ?buckets, ?agree, add_add _, fun s hs => remove_of_absent hrep hs⟩
  case nodup =>
    rw [hrep.all_eq]
    exact hrep.nodup
  case elements => simp [hrep.all_eq]
  case buckets =>
    intro uid hnil
    rw [hrep.byUid, bucketOf] at hnil
    split at hnil
    · cases hnil
    · next hsome => exact hsome (by simpa using hnil)
  case agree =>
    intro id s
    rw [hrep.get?_byId, hrep.mem_ofUser]
    simp

/-- Two devices of one user and a stranger: one device goes, the user is detached, and the device
that went comes back. -/
theorem after_refines_roster_devices :
    OnePerId (List.flatMap IndexChange.named
      [.add ⟨0, 1, 100, "a"⟩, .add ⟨1, 2, 100, "b"⟩, .add ⟨2, 3, 200, "c"⟩,
        .remove ⟨0, 1, 100, "a"⟩, .detachUser 100, .add ⟨0, 1, 100, "a"⟩]) ∧
    (after [.add ⟨0, 1, 100, "a"⟩, .add ⟨1, 2, 100, "b"⟩, .add ⟨2, 3, 200, "c"⟩,
      .remove ⟨0, 1, 100, "a"⟩, .detachUser 100, .add ⟨0, 1, 100, "a"⟩]).ofUser 100 =
        [⟨0, 1, 100, "a"⟩] ∧
    (after [.add ⟨0, 1, 100, "a"⟩, .add ⟨1, 2, 100, "b"⟩, .add ⟨2, 3, 200, "c"⟩,
      .remove ⟨0, 1, 100, "a"⟩, .detachUser 100, .add ⟨0, 1, 100, "a"⟩]).size = 2 := by
  have hids : OnePerId (List.flatMap IndexChange.named
      [.add ⟨0, 1, 100, "a"⟩, .add ⟨1, 2, 100, "b"⟩, .add ⟨2, 3, 200, "c"⟩,
        .remove ⟨0, 1, 100, "a"⟩, .detachUser 100, .add ⟨0, 1, 100, "a"⟩]) := by
    unfold OnePerId
    decide
  obtain ⟨huser, -, -, hsize, -⟩ := after_refines_roster _ hids
  exact ⟨hids, (huser 100).trans (by decide), hsize.trans (by decide)⟩

end Index

end Switchboard.Session
