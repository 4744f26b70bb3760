/-!
Finite maps as lists of entries, in the order in which their keys came. Each key has one entry, so
the number of entries is the number of keys. `get?` after each operation is stated beside it.
-/

namespace Switchboard

variable {κ α : Type}

/-- Replaces the entry of `k`, or appends one. -/
def putEntry [DecidableEq κ] (k : κ) (v : α) : List (κ × α) → List (κ × α)
  | [] => [(k, v)]
  | e :: es => if e.1 = k then (k, v) :: es else e :: putEntry k v es

theorem map_fst_putEntry [DecidableEq κ] (k : κ) (v : α) (es : List (κ × α)) :
    (putEntry k v es).map Prod.fst =
      if k ∈ es.map Prod.fst then es.map Prod.fst else es.map Prod.fst ++ [k] := by
  induction es with
  | nil => simp [putEntry]
  | cons e es ih =>
    simp only [putEntry]
    split
    · next h => simp [h]
    · next h =>
      have h' : ¬ k = e.1 := fun hk => h hk.symm
      simp only [List.map_cons, ih, List.mem_cons, h', false_or]
      split <;> simp

structure Table (κ α : Type) where
  entries : List (κ × α)
  nodup : (entries.map Prod.fst).Nodup

namespace Table

def empty : Table κ α := ⟨[], List.nodup_nil⟩

instance : Inhabited (Table κ α) := ⟨empty⟩

variable [DecidableEq κ]

def get? (t : Table κ α) (k : κ) : Option α :=
  (t.entries.find? fun e => e.1 = k).map Prod.snd

def contains (t : Table κ α) (k : κ) : Bool := t.entries.any fun e => e.1 = k

def getD (t : Table κ α) (k : κ) (default : α) : α := (t.get? k).getD default

omit [DecidableEq κ] in
def size (t : Table κ α) : Nat := t.entries.length

omit [DecidableEq κ] in
def keys (t : Table κ α) : List κ := t.entries.map Prod.fst

omit [DecidableEq κ] in
def values (t : Table κ α) : List α := t.entries.map Prod.snd

def insert (t : Table κ α) (k : κ) (v : α) : Table κ α where
  entries := putEntry k v t.entries
  nodup := by
    rw [map_fst_putEntry]
    split
    · exact t.nodup
    · next h =>
      refine List.nodup_append.2 ⟨t.nodup, by simp, ?_⟩
      intro a ha b hb hab
      simp only [List.mem_singleton] at hb
      exact h (hb ▸ hab ▸ ha)

def erase (t : Table κ α) (k : κ) : Table κ α where
  entries := t.entries.filter fun e => e.1 ≠ k
  nodup := (t.nodup.sublist (List.filter_sublist.map _))

/-- Applies `f` to the value of `k`, if there is one. -/
def modify (t : Table κ α) (k : κ) (f : α → α) : Table κ α where
  entries := t.entries.map fun e => if e.1 = k then (e.1, f e.2) else e
  nodup := by
    have : (t.entries.map fun e => if e.1 = k then (e.1, f e.2) else e).map Prod.fst =
        t.entries.map Prod.fst := by
      rw [List.map_map]
      refine List.map_congr_left fun e _ => ?_
      simp only [Function.comp]
      split <;> rfl
    rw [this]
    exact t.nodup

omit [DecidableEq κ] in
def filter (t : Table κ α) (p : κ → α → Bool) : Table κ α where
  entries := t.entries.filter fun e => p e.1 e.2
  nodup := (t.nodup.sublist (List.filter_sublist.map _))

omit [DecidableEq κ] in
def map {β : Type} (t : Table κ α) (f : κ → α → β) : Table κ β where
  entries := t.entries.map fun e => (e.1, f e.1 e.2)
  nodup := by
    have : (t.entries.map fun e => (e.1, f e.1 e.2)).map Prod.fst = t.entries.map Prod.fst := by
      rw [List.map_map]; rfl
    rw [this]
    exact t.nodup

omit [DecidableEq κ] in
@[ext] theorem ext {s t : Table κ α} (h : s.entries = t.entries) : s = t := by
  cases s; cases t; simp_all

@[simp] theorem get?_empty (k : κ) : (empty : Table κ α).get? k = none := rfl

theorem find?_putEntry (k k' : κ) (v : α) (es : List (κ × α)) :
    ((putEntry k v es).find? fun e => e.1 = k').map Prod.snd =
      if k = k' then some v else (es.find? fun e => e.1 = k').map Prod.snd := by
  induction es with
  | nil =>
    by_cases h : k = k' <;> simp [putEntry, h]
  | cons e es ih =>
    simp only [putEntry]
    split
    · next he =>
      by_cases h : k = k'
      · simp [h]
      · simp [h, he]
    · next he =>
      by_cases h' : e.1 = k'
      · have : ¬ k = k' := fun hk => he (h'.trans hk.symm)
        simp [h', this]
      · simp [h', ih]

@[simp] theorem get?_insert (t : Table κ α) (k k' : κ) (v : α) :
    (t.insert k v).get? k' = if k = k' then some v else t.get? k' :=
  find?_putEntry k k' v t.entries

@[simp] theorem get?_erase (t : Table κ α) (k k' : κ) :
    (t.erase k).get? k' = if k = k' then none else t.get? k' := by
  simp only [get?, erase, List.find?_filter]
  by_cases h : k = k'
  · subst h
    simp
  · simp only [h, if_false]
    congr 2
    funext e
    by_cases he : e.1 = k'
    · have : ¬ e.1 = k := fun hk => h (hk.symm.trans he)
      simp [he, Ne.symm (Ne.intro h)]
    · simp [he]

@[simp] theorem get?_modify (t : Table κ α) (k k' : κ) (f : α → α) :
    (t.modify k f).get? k' = if k = k' then (t.get? k').map f else t.get? k' := by
  obtain ⟨es, hes⟩ := t
  simp only [get?, modify]
  induction es with
  | nil => simp
  | cons e es ih =>
    have ih := ih (List.nodup_cons.1 hes).2
    by_cases he : e.1 = k'
    · by_cases hk : k = k'
      · simp [he, hk]
      · have : ¬ e.1 = k := fun h => hk (h.symm.trans he)
        simp [hk, he, Ne.symm (Ne.intro hk)]
    · by_cases hek : e.1 = k
      · simp_all
      · simp_all

theorem mem_entries_iff (t : Table κ α) (k : κ) (v : α) :
    (k, v) ∈ t.entries ↔ t.get? k = some v := by
  obtain ⟨es, hes⟩ := t
  simp only [get?]
  induction es with
  | nil => simp
  | cons e es ih =>
    obtain ⟨hnot, htail⟩ := List.nodup_cons.1 hes
    have ih := ih htail
    by_cases he : e.1 = k
    · subst he
      have hnone : ∀ w, (e.1, w) ∉ es := fun w hw =>
        hnot (List.mem_map.2 ⟨(e.1, w), hw, rfl⟩)
      simp only [List.mem_cons, hnone, or_false, List.find?_cons, decide_true, Option.map_some,
        Option.some.injEq]
      exact ⟨fun h => (congrArg Prod.snd h).symm, fun h => Prod.ext rfl h.symm⟩
    · have : ¬ (k, v) = e := fun h => he (congrArg Prod.fst h).symm
      simp [this, he, ih]

theorem mem_keys_iff (t : Table κ α) (k : κ) : k ∈ t.keys ↔ (t.get? k).isSome = true := by
  simp [keys, get?]

theorem contains_eq_isSome (t : Table κ α) (k : κ) : t.contains k = (t.get? k).isSome := by
  rw [Bool.eq_iff_iff]
  simp [contains, get?]

theorem entries_insert_of_get?_eq_none {t : Table κ α} {k : κ} (h : t.get? k = none) (v : α) :
    (t.insert k v).entries = t.entries ++ [(k, v)] := by
  have hnot : ∀ e ∈ t.entries, e.1 ≠ k := by
    simpa [get?] using h
  show putEntry k v t.entries = _
  clear h
  generalize t.entries = es at hnot
  induction es with
  | nil => rfl
  | cons e es ih =>
    have he := hnot e List.mem_cons_self
    rw [putEntry, if_neg he, ih fun e' he' => hnot e' (List.mem_cons_of_mem _ he')]
    rfl

theorem entries_foldl_erase (t : Table κ α) (ks : List κ) :
    (ks.foldl erase t).entries = t.entries.filter fun e => e.1 ∉ ks := by
  induction ks generalizing t with
  | nil => exact (List.filter_eq_self.2 fun _ _ => by simp).symm
  | cons k ks ih =>
    rw [List.foldl_cons, ih]
    show (t.entries.filter fun e => e.1 ≠ k).filter _ = _
    rw [List.filter_filter]
    congr 1
    funext e
    by_cases he : e.1 = k <;> simp [he]

/-- Writing what is there already changes nothing. -/
theorem insert_of_get? {t : Table κ α} {k : κ} {v : α} (h : t.get? k = some v) :
    t.insert k v = t := by
  ext1
  show putEntry k v t.entries = t.entries
  rw [get?] at h
  generalize t.entries = es at h
  induction es with
  | nil => cases h
  | cons e es ih =>
    rw [putEntry]
    by_cases he : e.1 = k
    · obtain rfl : e.2 = v := by simpa [he] using h
      rw [if_pos he, ← he]
    · rw [List.find?_cons_of_neg (by simpa using he)] at h
      rw [if_neg he, ih h]

/-- The last of two values under one key counts. -/
theorem insert_insert (t : Table κ α) (k : κ) (v w : α) :
    (t.insert k v).insert k w = t.insert k w := by
  ext1
  show putEntry k w (putEntry k v t.entries) = putEntry k w t.entries
  generalize t.entries = es
  induction es with
  | nil => simp [putEntry]
  | cons e es ih =>
    by_cases he : e.1 = k
    · simp [putEntry, he]
    · simp [putEntry, he, ih]

theorem erase_of_get?_eq_none {t : Table κ α} {k : κ} (h : t.get? k = none) : t.erase k = t := by
  ext1
  refine List.filter_eq_self.2 fun e he => ?_
  simp only [get?, Option.map_eq_none_iff, List.find?_eq_none] at h
  simpa using h e he

theorem modify_of_get? {t : Table κ α} {k : κ} {f : α → α}
    (h : ∀ v, t.get? k = some v → f v = v) : t.modify k f = t := by
  ext1
  show t.entries.map _ = t.entries
  refine (List.map_congr_left fun e he => ?_).trans t.entries.map_id
  split
  · next hk => exact Prod.ext rfl (h e.2 (hk ▸ (t.mem_entries_iff e.1 e.2).1 he))
  · rfl

theorem values_insert_of_get?_eq_none {t : Table κ α} {k : κ} (h : t.get? k = none) (v : α) :
    (t.insert k v).values = t.values ++ [v] := by
  rw [values, entries_insert_of_get?_eq_none h, List.map_append]
  rfl

theorem erase_insert (t : Table κ α) (k : κ) (v : α) : (t.insert k v).erase k = t.erase k := by
  ext1
  show (putEntry k v t.entries).filter (fun e => e.1 ≠ k) = t.entries.filter fun e => e.1 ≠ k
  generalize t.entries = es
  induction es with
  | nil => simp [putEntry]
  | cons e es ih =>
    by_cases he : e.1 = k
    · simp [putEntry, he]
    · rw [putEntry, if_neg he, List.filter_cons_of_pos (by simpa using he), ih,
        List.filter_cons_of_pos (by simpa using he)]

theorem exists_of_mem_values_erase {t : Table κ α} {k : κ} {v : α} (h : v ∈ (t.erase k).values) :
    ∃ k', k' ≠ k ∧ t.get? k' = some v := by
  obtain ⟨⟨k', v'⟩, he, rfl⟩ := List.mem_map.1 h
  obtain ⟨hmem, hne⟩ := List.mem_filter.1 he
  exact ⟨k', of_decide_eq_true hne, (t.mem_entries_iff k' v').1 hmem⟩

/-- Erasing a key takes its value away, and no other. -/
theorem values_perm_of_get? {t : Table κ α} {k : κ} {v : α} (h : t.get? k = some v) :
    t.values.Perm (v :: (t.erase k).values) := by
  obtain ⟨es, hes⟩ := t
  simp only [get?] at h
  show (es.map Prod.snd).Perm (v :: (es.filter fun e => e.1 ≠ k).map Prod.snd)
  induction es with
  | nil => cases h
  | cons e es ih =>
    obtain ⟨hnot, htail⟩ := List.nodup_cons.1 hes
    by_cases he : e.1 = k
    · subst he
      have hrest : (es.filter fun e' => e'.1 ≠ e.1) = es :=
        List.filter_eq_self.2 fun e' he' => by
          simpa using fun heq => hnot (List.mem_map.2 ⟨e', he', heq⟩)
      obtain rfl : e.2 = v := by simpa using h
      rw [List.filter_cons_of_neg (by simp), hrest]
      exact .refl _
    · rw [List.find?_cons_of_neg (by simpa using he)] at h
      rw [List.filter_cons_of_pos (by simpa using he), List.map_cons, List.map_cons]
      exact ((ih htail h).cons _).trans (.swap _ _ _)

end Table

end Switchboard
