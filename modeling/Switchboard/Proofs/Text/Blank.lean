import Mathlib.Data.List.DropRight
import Switchboard.Text.Blank

/-!
# Blank — what trimming and stripping leave

Trimming takes away what is blank at either end and nothing else, so a text without blanks at its
ends stays as it is, and it is found again when blanks are put around it.
-/

namespace Switchboard.Text

variable {p : Char → Bool} {cs rest : List Char}

/-! ## 1. Trimming -/

theorem dropEndWhile_eq_rdropWhile (p : Char → Bool) (cs : List Char) :
    dropEndWhile p cs = cs.rdropWhile p := rfl

/-- What is dropped at the end does not open a way to drop more at the front. -/
theorem dropWhile_dropEndWhile (h : cs.dropWhile p = cs) :
    (dropEndWhile p cs).dropWhile p = dropEndWhile p cs := by
  rw [dropEndWhile_eq_rdropWhile]
  cases hrest : cs.rdropWhile p with
  | nil => rfl
  | cons c rest =>
    -- the first character that is left was the first before
    have hhead : cs.head? = some c := by
      obtain ⟨tail, htail⟩ := cs.rdropWhile_prefix p
      rw [← htail, hrest]
      rfl
    have hc : p c = false := by
      have hkept := List.head?_dropWhile_not p cs
      rw [h, hhead] at hkept
      simpa using hkept
    rw [List.dropWhile_cons_of_neg (by simp [hc])]

theorem strip_strip (p : Char → Bool) (cs : List Char) : strip p (strip p cs) = strip p cs := by
  have hfront : (strip p cs).dropWhile p = strip p cs :=
    dropWhile_dropEndWhile (List.dropWhile_idempotent p cs)
  rw [strip, hfront]
  exact List.rdropWhile_idempotent p _

theorem trimChars_trimChars (cs : List Char) : trimChars (trimChars cs) = trimChars cs :=
  strip_strip isBlank cs

theorem strip_eq_nil_iff : strip p cs = [] ↔ ∀ c ∈ cs, p c = true := by
  rw [strip, dropEndWhile_eq_rdropWhile, List.rdropWhile_eq_nil_iff]
  constructor
  · intro h
    -- a first character that is left would not have been dropped
    rw [← List.dropWhile_eq_nil_iff]
    cases hrest : cs.dropWhile p with
    | nil => rfl
    | cons c rest =>
      have hkept := List.head?_dropWhile_not p cs
      rw [hrest] at h hkept
      have hc : p c = true := h c List.mem_cons_self
      simp [hc] at hkept
  · intro h c hc
    exact h c ((List.dropWhile_sublist p).subset hc)

theorem isBlankText_iff (s : String) : isBlankText s = true ↔ trim s = "" := by
  rw [isBlankText, List.all_eq_true, ← strip_eq_nil_iff, trim, ← String.toList_inj,
    String.toList_ofList]
  rfl

/-! ## 2. A text at the front -/

theorem stripLead?_eq_some_iff {lead : List Char} :
    stripLead? lead cs = some rest ↔ cs = lead ++ rest := by
  induction lead generalizing cs with
  | nil =>
    rw [stripLead?, Option.some.injEq]
    rfl
  | cons l lead ih =>
    cases cs with
    | nil => simp [stripLead?]
    | cons c cs =>
      rw [stripLead?, List.cons_append, List.cons.injEq]
      split
      · next hl => rw [ih, ← hl, eq_self, true_and]
      · next hl => simp [Ne.symm hl]

/-! ## 3. Blanks around a text -/

/-- There is nothing but blanks, if anything. -/
def IsBlank (cs : List Char) : Prop := ∀ c ∈ cs, isBlank c = true

theorem isBlank_iff_all : IsBlank cs ↔ cs.all isBlank = true := List.all_eq_true.symm

instance (cs : List Char) : Decidable (IsBlank cs) := decidable_of_iff _ isBlank_iff_all.symm

/-- The text is the core with nothing but blanks around it. -/
def Padded (core text : List Char) : Prop :=
  ∃ front back, text = front ++ core ++ back ∧ IsBlank front ∧ IsBlank back

/-- There is no blank at either end. -/
def Trimmed (cs : List Char) : Prop :=
  (∀ c, cs.head? = some c → isBlank c = false) ∧ ∀ c, cs.getLast? = some c → isBlank c = false

variable {core text : List Char}

theorem dropWhile_eq_self_iff : cs.dropWhile p = cs ↔ ∀ c, cs.head? = some c → p c = false := by
  cases cs with
  | nil => simp
  | cons c cs => simp [List.dropWhile_eq_self_iff]

theorem rdropWhile_eq_self_iff :
    cs.rdropWhile p = cs ↔ ∀ c, cs.getLast? = some c → p c = false := by
  rw [List.rdropWhile, ← List.reverse_inj, List.reverse_reverse, dropWhile_eq_self_iff,
    List.head?_reverse]

theorem rdropWhile_append_of_forall {back : List Char} (h : ∀ c ∈ back, p c = true) :
    (cs ++ back).rdropWhile p = cs.rdropWhile p := by
  have hback : ∀ c ∈ back.reverse, p c = true := fun c hc => h c (List.mem_reverse.1 hc)
  rw [List.rdropWhile, List.reverse_append, List.dropWhile_append_of_pos hback, List.rdropWhile]

/-- What is left after stripping the end is all but the characters that go. -/
theorem rdropWhile_eq_iff {left : List Char} :
    cs.rdropWhile p = left ↔ ∃ back, cs = left ++ back ∧ (∀ c ∈ back, p c = true) ∧
      ∀ c, left.getLast? = some c → p c = false := by
  constructor
  · rintro rfl
    have hlast := rdropWhile_eq_self_iff.1 (List.rdropWhile_idempotent p cs)
    exact ⟨cs.rtakeWhile p, List.rdropWhile_append_rtakeWhile.symm,
      fun c hc => List.mem_rtakeWhile_imp hc, hlast⟩
  · rintro ⟨back, rfl, hback, hlast⟩
    rw [rdropWhile_append_of_forall hback]
    exact rdropWhile_eq_self_iff.2 hlast

theorem strip_append_of_forall {front back : List Char} (hfront : ∀ c ∈ front, p c = true)
    (hback : ∀ c ∈ back, p c = true) : strip p (front ++ cs ++ back) = strip p cs := by
  rw [strip, strip, List.append_assoc, List.dropWhile_append_of_pos hfront, List.dropWhile_append]
  split
  · next hempty =>
    -- then the stripping at the front goes on into what stands behind
    rw [List.isEmpty_iff.1 hempty, List.dropWhile_eq_nil_iff.2 hback]
  · exact rdropWhile_append_of_forall hback

theorem trimChars_padded (h : Padded core text) : trimChars text = trimChars core := by
  obtain ⟨front, back, rfl, hfront, hback⟩ := h
  exact strip_append_of_forall hfront hback

theorem trimChars_eq_self_iff : trimChars cs = cs ↔ Trimmed cs := by
  constructor
  · intro h
    have hfront : cs.dropWhile isBlank = cs := by
      rw [← h]
      exact dropWhile_dropEndWhile (List.dropWhile_idempotent isBlank cs)
    rw [trimChars, strip, hfront] at h
    exact ⟨dropWhile_eq_self_iff.1 hfront, rdropWhile_eq_self_iff.1 h⟩
  · rintro ⟨hhead, hlast⟩
    rw [trimChars, strip, dropWhile_eq_self_iff.2 hhead]
    exact rdropWhile_eq_self_iff.2 hlast

theorem padded_trimChars (cs : List Char) : Padded (trimChars cs) cs := by
  refine ⟨cs.takeWhile isBlank, (cs.dropWhile isBlank).rtakeWhile isBlank, ?_,
    fun c hc => List.mem_takeWhile_imp hc, fun c hc => List.mem_rtakeWhile_imp hc⟩
  rw [trimChars, strip, dropEndWhile_eq_rdropWhile, List.append_assoc,
    List.rdropWhile_append_rtakeWhile, List.takeWhile_append_dropWhile]

/-- Trimming finds the core that has no blanks at its own ends. -/
theorem trimChars_eq_iff : trimChars text = core ↔ Padded core text ∧ Trimmed core := by
  constructor
  · rintro rfl
    exact ⟨padded_trimChars text, trimChars_eq_self_iff.1 (trimChars_trimChars text)⟩
  · rintro ⟨hpadded, htrimmed⟩
    rw [trimChars_padded hpadded, trimChars_eq_self_iff.2 htrimmed]

theorem Padded.subset (h : Padded core text) : core ⊆ text := by
  obtain ⟨front, back, rfl, -⟩ := h
  exact fun c hc => List.mem_append_left _ (List.mem_append_right _ hc)

theorem Padded.mem_or_isBlank (h : Padded core text) {c : Char} (hc : c ∈ text) :
    c ∈ core ∨ isBlank c = true := by
  obtain ⟨front, back, rfl, hfront, hback⟩ := h
  simp only [List.mem_append] at hc
  rcases hc with (hc | hc) | hc
  · exact .inr (hfront c hc)
  · exact .inl hc
  · exact .inr (hback c hc)

end Switchboard.Text
