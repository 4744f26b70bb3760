import Switchboard.Proofs.Config

/-!
# Listing — texts of fields between separators

A list may be written with anything blank between its separators, and that stands for no item. What
is read of such a text is decided field by field, and what spoils it is the leftmost field that
nothing is read of.
-/

namespace Switchboard

namespace Text

variable {sep : Char} {cs : List Char}

/-! ## 1. Splitting -/

theorem fields_eq_splitOn (sep : Char) (cs : List Char) : fields sep cs = cs.splitOn sep := by
  induction cs with
  | nil => rfl
  | cons c cs ih =>
    rw [fields, List.splitOn_cons_eq_if_modifyHead, ← ih]
    by_cases hc : c = sep
    · rw [if_pos hc, if_pos (beq_iff_eq.2 hc)]
    · rw [if_neg hc, if_neg (mt beq_iff_eq.1 hc)]
      cases hfields : fields sep cs with
      | nil => exact absurd hfields (fields_ne_nil sep cs)
      | cons f fs => rfl

theorem intercalate_fields (sep : Char) (cs : List Char) :
    [sep].intercalate (fields sep cs) = cs := by
  rw [fields_eq_splitOn, List.intercalate_splitOn]

theorem fields_intercalate {fs : List (List Char)} (hsep : ∀ f ∈ fs, sep ∉ f) (hne : fs ≠ []) :
    fields sep ([sep].intercalate fs) = fs := by
  rw [fields_eq_splitOn, List.splitOn_intercalate sep hsep hne]

theorem not_mem_of_mem_fields {f : List Char} (h : f ∈ fields sep cs) : sep ∉ f := by
  induction cs generalizing f with
  | nil =>
    rw [List.mem_singleton.1 h]
    exact List.not_mem_nil
  | cons c cs ih =>
    rw [fields] at h
    split at h
    · rcases List.mem_cons.1 h with rfl | h
      · exact List.not_mem_nil
      · exact ih h
    · next hc =>
      cases hfields : fields sep cs with
      | nil => exact absurd hfields (fields_ne_nil sep cs)
      | cons g gs =>
        rw [hfields] at h ih
        rcases List.mem_cons.1 h with rfl | h
        · exact List.not_mem_cons_of_ne_of_not_mem (Ne.symm hc) (ih List.mem_cons_self)
        · exact ih (List.mem_cons_of_mem _ h)

theorem mem_of_mem_intercalate {fs : List (List Char)} {c : Char}
    (h : c ∈ [sep].intercalate fs) : c = sep ∨ ∃ f ∈ fs, c ∈ f := by
  induction fs with
  | nil => cases h
  | cons f fs ih =>
    cases fs with
    | nil => exact .inr ⟨f, List.mem_cons_self, by simpa using h⟩
    | cons g gs =>
      rw [List.intercalate_cons_cons, List.mem_append, List.mem_append, List.mem_singleton] at h
      rcases h with (h | h) | h
      · exact .inr ⟨f, List.mem_cons_self, h⟩
      · exact .inl h
      · exact (ih h).imp_right fun ⟨f', hf', hc⟩ => ⟨f', List.mem_cons_of_mem _ hf', hc⟩

theorem splitFirst?_append {left : List Char} (h : sep ∉ left) (right : List Char) :
    splitFirst? sep (left ++ sep :: right) = some (left, right) := by
  induction left with
  | nil => exact if_pos rfl
  | cons c left ih =>
    obtain ⟨hc, hleft⟩ := not_or.1 (mt List.mem_cons.2 h)
    rw [List.cons_append, splitFirst?, if_neg (Ne.symm hc), ih hleft]
    rfl

theorem eq_of_splitFirst? {left right : List Char}
    (h : splitFirst? sep cs = some (left, right)) : cs = left ++ sep :: right ∧ sep ∉ left := by
  induction cs generalizing left with
  | nil => cases h
  | cons c cs ih =>
    rw [splitFirst?] at h
    split at h
    · next hc =>
      cases h
      exact ⟨hc ▸ rfl, List.not_mem_nil⟩
    · next hc =>
      obtain ⟨⟨l, r⟩, hsplit, hlr⟩ := Option.map_eq_some_iff.1 h
      cases hlr
      obtain ⟨rfl, hl⟩ := ih hsplit
      exact ⟨rfl, List.not_mem_cons_of_ne_of_not_mem (Ne.symm hc) hl⟩

theorem splitFirst?_eq_none_iff : splitFirst? sep cs = none ↔ sep ∉ cs := by
  induction cs with
  | nil => exact ⟨fun _ => List.not_mem_nil, fun _ => rfl⟩
  | cons c cs ih =>
    rw [splitFirst?]
    split
    · next hc => simp [hc]
    · next hc => rw [Option.map_eq_none_iff, ih, List.mem_cons, not_or, and_iff_right (Ne.symm hc)]

/-! ## 2. Lists of items -/

variable {α : Type} {W : List Char → α → Prop} {fs : List (List Char)} {xs : List α}

/-- Fields for the items in their order, with blank ones anywhere between them. -/
inductive Filled (W : List Char → α → Prop) : List (List Char) → List α → Prop
  | nil : Filled W [] []
  | blank {f : List Char} {fs : List (List Char)} {xs : List α} (hblank : IsBlank f)
      (rest : Filled W fs xs) : Filled W (f :: fs) xs
  | item {f : List Char} {x : α} {fs : List (List Char)} {xs : List α} (hitem : W f x)
      (rest : Filled W fs xs) : Filled W (f :: fs) (x :: xs)

/-- The text is written from the items, with separators between the fields. -/
def Listing (sep : Char) (W : List Char → α → Prop) (text : List Char) (xs : List α) : Prop :=
  ∃ fs, text = [sep].intercalate fs ∧ Filled W fs xs

/-- A field for an item is seen as one: it is not blank, and no separator cuts it. -/
def Whole (sep : Char) (W : List Char → α → Prop) : Prop :=
  ∀ f x, W f x → sep ∉ f ∧ ¬ IsBlank f

theorem Filled.not_mem {c : Char} (h : Filled W fs xs) (hblank : isBlank c = false)
    (hitem : ∀ f x, W f x → c ∉ f) : ∀ f ∈ fs, c ∉ f := by
  induction h with
  | nil => exact fun _ => nofun
  | blank hf _ ih =>
    refine List.forall_mem_cons.2 ⟨fun hmem => ?_, ih⟩
    rw [hf c hmem] at hblank
    cases hblank
  | item hx _ ih => exact List.forall_mem_cons.2 ⟨hitem _ _ hx, ih⟩

theorem Listing.not_mem {c : Char} {text : List Char} (h : Listing sep W text xs) (hc : c ≠ sep)
    (hblank : isBlank c = false) (hitem : ∀ f x, W f x → c ∉ f) : c ∉ text := by
  obtain ⟨fs, rfl, h⟩ := h
  intro hmem
  rcases mem_of_mem_intercalate hmem with rfl | ⟨f, hf, hcf⟩
  · exact hc rfl
  · exact h.not_mem hblank hitem f hf hcf

theorem Filled.imp {W' : List Char → α → Prop} (h : Filled W fs xs)
    (hitem : ∀ f x, W f x → W' f x) : Filled W' fs xs := by
  induction h with
  | nil => exact .nil
  | blank hf _ ih => exact .blank hf ih
  | item hx _ ih => exact .item (hitem _ _ hx) ih

theorem filled_iff (hwhole : Whole sep W) :
    Filled W fs xs ↔ List.Forall₂ W (fs.filter fun f => !f.all isBlank) xs := by
  induction fs generalizing xs with
  | nil =>
    constructor
    · intro h
      cases h
      exact .nil
    · intro h
      cases h
      exact .nil
  | cons f fs ih =>
    by_cases hblank : IsBlank f
    · rw [List.filter_cons_of_neg (by simpa using isBlank_iff_all.1 hblank), ← ih]
      constructor
      · intro h
        cases h with
        | blank _ rest => exact rest
        | item hitem => exact absurd hblank (hwhole _ _ hitem).2
      · exact .blank hblank
    · rw [List.filter_cons_of_pos (by simpa using mt isBlank_iff_all.2 hblank)]
      constructor
      · intro h
        cases h with
        | blank hf => exact absurd hf hblank
        | item hitem rest => exact .cons hitem (ih.1 rest)
      · intro h
        cases h with
        | cons hitem rest => exact .item hitem (ih.2 rest)

/-- The items are found again in the fields that are not blank. -/
theorem listing_iff {text : List Char} (hsep : isBlank sep = false) (hwhole : Whole sep W) :
    Listing sep W text xs ↔ List.Forall₂ W (Config.entries sep text) xs := by
  rw [Config.entries, ← filled_iff hwhole]
  constructor
  · rintro ⟨fs, rfl, h⟩
    by_cases hne : fs = []
    · subst hne
      exact .blank (List.forall_mem_nil _) h
    · rwa [fields_intercalate (h.not_mem hsep fun f x hx => (hwhole f x hx).1) hne]
  · intro h
    exact ⟨_, (intercalate_fields sep text).symm, h⟩

end Text

/-! ## 3. The leftmost fault -/

section Leftmost

variable {ε α β : Type} {good bad : α → Prop} {x : α} {xs ys : List α}

/-- There is a bad one, and all before it are good. -/
def Leftmost (good bad : α → Prop) (xs : List α) : Prop :=
  ∃ before x after, xs = before ++ x :: after ∧ (∀ b ∈ before, good b) ∧ bad x

theorem not_leftmost_nil : ¬ Leftmost good bad [] := by
  rintro ⟨before, x, after, h, -⟩
  exact List.append_ne_nil_of_right_ne_nil before (List.cons_ne_nil x after) h.symm

theorem leftmost_cons : Leftmost good bad (x :: xs) ↔ bad x ∨ good x ∧ Leftmost good bad xs := by
  constructor
  · rintro ⟨before, y, after, h, hbefore, hy⟩
    cases before with
    | nil =>
      obtain ⟨rfl, -⟩ := List.cons.inj h
      exact .inl hy
    | cons b before =>
      obtain ⟨rfl, rfl⟩ := List.cons.inj h
      obtain ⟨hb, hbefore⟩ := List.forall_mem_cons.1 hbefore
      exact .inr ⟨hb, before, y, after, rfl, hbefore, hy⟩
  · rintro (hx | ⟨hx, before, y, after, rfl, hbefore, hy⟩)
    · exact ⟨[], x, xs, rfl, nofun, hx⟩
    · exact ⟨x :: before, y, after, rfl, List.forall_mem_cons.2 ⟨hx, hbefore⟩, hy⟩

/-- What comes later is of no account unless all before it is good. -/
theorem leftmost_append : Leftmost good bad (xs ++ ys) ↔
    Leftmost good bad xs ∨ (∀ x ∈ xs, good x) ∧ Leftmost good bad ys := by
  induction xs with
  | nil => simp [not_leftmost_nil]
  | cons x xs ih =>
    rw [List.cons_append, leftmost_cons, leftmost_cons, ih, List.forall_mem_cons]
    tauto

theorem leftmost_map {f : β → α} {zs : List β} :
    Leftmost good bad (zs.map f) ↔ Leftmost (fun z => good (f z)) (fun z => bad (f z)) zs := by
  induction zs with
  | nil => simp only [List.map_nil, not_leftmost_nil]
  | cons z zs ih => rw [List.map_cons, leftmost_cons, leftmost_cons, ih]

theorem leftmost_exists {bad : β → α → Prop} :
    Leftmost good (fun x => ∃ y, bad y x) xs ↔ ∃ y, Leftmost good (bad y) xs := by
  constructor
  · rintro ⟨before, x, after, hxs, hbefore, y, hx⟩
    exact ⟨y, before, x, after, hxs, hbefore, hx⟩
  · rintro ⟨y, before, x, after, hxs, hbefore, hx⟩
    exact ⟨before, x, after, hxs, hbefore, y, hx⟩

theorem leftmost_and_right {q : Prop} :
    Leftmost good (fun x => bad x ∧ q) xs ↔ Leftmost good bad xs ∧ q := by
  constructor
  · rintro ⟨before, x, after, hxs, hbefore, hx, hq⟩
    exact ⟨⟨before, x, after, hxs, hbefore, hx⟩, hq⟩
  · rintro ⟨⟨before, x, after, hxs, hbefore, hx⟩, hq⟩
    exact ⟨before, x, after, hxs, hbefore, hx, hq⟩

/-- Where each is either good or bad, there is a leftmost bad one as soon as there is any. -/
theorem exists_leftmost_iff (hbad : ∀ x ∈ xs, bad x ↔ ¬ good x) :
    Leftmost good bad xs ↔ ∃ x ∈ xs, bad x := by
  induction xs with
  | nil => simp [not_leftmost_nil]
  | cons x xs ih =>
    rw [List.forall_mem_cons] at hbad
    rw [leftmost_cons, ih hbad.2, List.exists_mem_cons_iff, hbad.1]
    tauto

/-- Reading a list fails with the fault of the leftmost entry that is not read. -/
theorem mapM_eq_error_iff {f : α → Except ε β} {e : ε} :
    xs.mapM f = .error e ↔ Leftmost (fun x => ∃ y, f x = .ok y) (fun x => f x = .error e) xs := by
  induction xs with
  | nil => exact ⟨nofun, fun h => absurd h not_leftmost_nil⟩
  | cons x xs ih =>
    rw [leftmost_cons, ← ih, List.mapM_cons]
    cases hx : f x with
    | error e' => simp [bind, Except.bind]
    | ok y => cases xs.mapM f <;> simp [bind, Except.bind, pure, Except.pure]

theorem exists_mapM_iff {f : α → Except ε β} :
    (∃ ys, xs.mapM f = .ok ys) ↔ ∀ x ∈ xs, ∃ y, f x = .ok y := by
  constructor
  · rintro ⟨ys, hys⟩ x hx
    exact exists_of_forall₂ (Except.mapM_eq_ok_iff.1 hys) hx
  · intro hall
    cases hread : xs.mapM f with
    | ok ys => exact ⟨ys, rfl⟩
    | error e =>
      obtain ⟨before, x, after, rfl, -, hx⟩ := mapM_eq_error_iff.1 hread
      obtain ⟨y, hy⟩ := hall x (by simp)
      cases hx.symm.trans hy

end Leftmost

/-- A text is read when it is a listing, field by field. -/
theorem Text.mapM_entries_eq_ok_iff {ε α : Type} {sep : Char} {W : List Char → α → Prop}
    {read : List Char → Except ε α} {text : List Char} {xs : List α}
    (hsep : isBlank sep = false) (hwhole : Whole sep W)
    (hread : ∀ f, sep ∉ f → ∀ x, read f = .ok x ↔ W f x) :
    (Config.entries sep text).mapM read = .ok xs ↔ Listing sep W text xs := by
  rw [Except.mapM_eq_ok_iff, listing_iff hsep hwhole]
  have hfields : ∀ f ∈ Config.entries sep text, sep ∉ f :=
    fun f hf => not_mem_of_mem_fields (List.mem_filter.1 hf).1
  generalize Config.entries sep text = fs at hfields
  induction fs generalizing xs with
  | nil => rw [List.forall₂_nil_left_iff, List.forall₂_nil_left_iff]
  | cons f fs ih =>
    rw [List.forall_mem_cons] at hfields
    simp only [List.forall₂_cons_left_iff, hread f hfields.1, ih hfields.2]

/-! ## 4. Numerals with blanks around them -/

namespace Decimal

variable {cs text : List Char} {i : Int} {x : Int64} {c : Char}

/-- The text is a numeral of the integer, and may have blanks around it. -/
def Spelled (text : List Char) (x : Int64) : Prop :=
  ∃ numeral, Text.Padded numeral text ∧ Numeral numeral x.toInt

theorem isBlank_of_isDigit (h : c.isDigit = true) : Text.isBlank c = false := by
  have hzero : '0'.toNat = 48 := rfl
  have hnine : '9'.toNat = 57 := rfl
  rw [Char.isDigit_iff_toNat, hzero, hnine] at h
  simp only [Text.isBlank, Bool.or_eq_false_iff, Bool.and_eq_false_iff, decide_eq_false_iff_not]
  omega

theorem Numeral.isBlank (h : Numeral cs i) (hc : c ∈ cs) : Text.isBlank c = false := by
  rcases h.mark c hc with hdigit | rfl | rfl
  · exact isBlank_of_isDigit hdigit
  · rfl
  · rfl

theorem Numeral.trimmed (h : Numeral cs i) : Text.Trimmed cs :=
  ⟨fun _ hc => h.isBlank (List.mem_of_head? hc), fun _ hc => h.isBlank (List.mem_of_getLast? hc)⟩

theorem spelled_iff : Spelled text x ↔ Numeral (Text.trimChars text) x.toInt := by
  constructor
  · rintro ⟨numeral, hpadded, hnumeral⟩
    rwa [Text.trimChars_eq_iff.2 ⟨hpadded, hnumeral.trimmed⟩]
  · intro h
    exact ⟨_, Text.padded_trimChars text, h⟩

theorem readInt64_trimChars_eq_ok_iff :
    readInt64 (Text.trimChars text) = .ok x ↔ Spelled text x := by
  rw [readInt64_eq_ok_iff, spelled_iff]

/-- What spoils the text as a numeral of an integer, blanks around it aside. -/
def Misspelled (text : List Char) (fault : Fault) : Prop :=
  Spoiled 0x7fffffffffffffff (Text.trimChars text) fault

theorem readInt64_trimChars_eq_error_iff {fault : Fault} :
    readInt64 (Text.trimChars text) = .error fault ↔ Misspelled text fault :=
  readInt64_eq_error_iff

theorem exists_misspelled_iff : (∃ fault, Misspelled text fault) ↔ ∀ x, ¬ Spelled text x := by
  simp only [← readInt64_trimChars_eq_error_iff, ← readInt64_trimChars_eq_ok_iff]
  cases readInt64 (Text.trimChars text) <;> simp

/-- The character has no place in a numeral or around it. -/
def IsForeign (c : Char) : Prop :=
  Text.isBlank c = false ∧ c.isDigit = false ∧ c ≠ '+' ∧ c ≠ '-'

instance (c : Char) : Decidable (IsForeign c) := inferInstanceAs (Decidable (_ ∧ _ ∧ _ ∧ _))

theorem Spelled.not_mem (h : Spelled text x) (hc : IsForeign c) : c ∉ text := by
  obtain ⟨numeral, hpadded, hnumeral⟩ := h
  obtain ⟨hblank, hdigit, hplus, hminus⟩ := hc
  intro hmem
  rcases hpadded.mem_or_isBlank hmem with hin | hb
  · rcases hnumeral.mark c hin with hd | hp | hm
    · rw [hdigit] at hd
      cases hd
    · exact hplus hp
    · exact hminus hm
  · rw [hblank] at hb
    cases hb

theorem Spelled.not_isBlank (h : Spelled text x) : ¬ Text.IsBlank text := by
  intro hblank
  rw [spelled_iff, Text.trimChars, Text.strip_eq_nil_iff.2 hblank] at h
  exact h.ne_nil rfl

theorem whole_spelled (hc : IsForeign c) : Text.Whole c Spelled :=
  fun _ _ h => ⟨h.not_mem hc, h.not_isBlank⟩

end Decimal

end Switchboard
