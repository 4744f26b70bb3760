import Switchboard.Json.Value
import Switchboard.Proofs.Json.Grammar

/-!
# Written — a written value is read as its own outline

What the encoder writes is one of the texts of the value: the one without blanks, with escapes only
where there is no way around them.
-/

namespace Switchboard.Json

/-! ## 1. The outline of a value -/

namespace Value

mutual

def outline : Value → Outline
  | .null => .null
  | .bool b => .bool b
  | .integer i => .number (.ofInt i)
  | .string s => .string (some s)
  | .array items => .array (outlineItems items) true
  | .object members => .object (outlineMembers members) true

def outlineItems : List Value → List Outline
  | [] => []
  | v :: vs => outline v :: outlineItems vs

def outlineMembers : List (String × Value) → List (Option String × Outline)
  | [] => []
  | (k, v) :: ms => (some k, outline v) :: outlineMembers ms

end

theorem outlineItems_eq_map (vs : List Value) : outlineItems vs = vs.map outline := by
  induction vs with
  | nil => rfl
  | cons v vs ih => rw [outlineItems, ih, List.map_cons]

theorem outlineMembers_eq_map (ms : List (String × Value)) :
    outlineMembers ms = ms.map fun m => (some m.1, m.2.outline) := by
  induction ms with
  | nil => rfl
  | cons m ms ih => rw [outlineMembers, ih, List.map_cons]

end Value

/-! ## 2. Strings and numbers -/

theorem hexDigit?_digitChar : ∀ n < 16, StringDraft.hexDigit? (Nat.digitChar n) = some n := by
  decide

/-- A character is written as itself, as a short escape, or as the unit that it is. -/
theorem exists_spelled_escapeChar (c : Char) :
    ∃ piece : Piece, piece.Spelled (escapeChar c) ∧
      (piece = .char c ∨ piece = .unit c.toNat ∧ c.toNat < 0x20) := by
  unfold escapeChar
  split
  · next h => exact ⟨.char c, by subst h; exact .escape rfl, .inl rfl⟩
  split
  · next h => exact ⟨.char c, by subst h; exact .escape rfl, .inl rfl⟩
  split
  · next h => exact ⟨.char c, by subst h; exact .escape rfl, .inl rfl⟩
  split
  · next h => exact ⟨.char c, by subst h; exact .escape rfl, .inl rfl⟩
  split
  · next h => exact ⟨.char c, by subst h; exact .escape rfl, .inl rfl⟩
  split
  · next h => exact ⟨.char c, by subst h; exact .escape rfl, .inl rfl⟩
  split
  · next h => exact ⟨.char c, by subst h; exact .escape rfl, .inl rfl⟩
  split
  · next hcontrol =>
    -- four digits, of which the last two carry the code
    have hcode : ((0 * 16 + 0) * 16 + c.toNat / 16) * 16 + c.toNat % 16 = c.toNat := by omega
    have hunit := Piece.Spelled.unit (hexDigit?_digitChar 0 (by decide))
      (hexDigit?_digitChar 0 (by decide)) (hexDigit?_digitChar (c.toNat / 16) (by omega))
      (hexDigit?_digitChar (c.toNat % 16) (by omega))
    rw [hcode] at hunit
    exact ⟨.unit c.toNat, hunit, .inr ⟨rfl, hcontrol⟩⟩
  · next hquote hslash _ _ _ _ _ hcontrol =>
    exact ⟨.char c, .plain hquote hslash (Nat.le_of_not_lt hcontrol), .inl rfl⟩

theorem content_control {n : Nat} (h : n < 0x20) (ps : List Piece) :
    content (.unit n :: ps) = (content ps).map (Char.ofNat n :: ·) := by
  refine content_unit ?_ ?_ ps
  · simp only [isHigh, Bool.and_eq_false_iff, decide_eq_false_iff_not]
    omega
  · simp only [isLow, Bool.and_eq_false_iff, decide_eq_false_iff_not]
    omega

theorem exists_pieces (cs : List Char) :
    ∃ pieces : List (List Char × Piece), (∀ x ∈ pieces, x.2.Spelled x.1) ∧
      pieces.flatMap Prod.fst = cs.flatMap escapeChar ∧
      content (pieces.map Prod.snd) = some cs := by
  induction cs with
  | nil => exact ⟨[], fun _ hx => absurd hx List.not_mem_nil, rfl, rfl⟩
  | cons c cs ih =>
    obtain ⟨pieces, hspelled, htext, hcontent⟩ := ih
    obtain ⟨piece, hpiece, hcase⟩ := exists_spelled_escapeChar c
    refine ⟨(escapeChar c, piece) :: pieces, List.forall_mem_cons.2 ⟨hpiece, hspelled⟩, ?_, ?_⟩
    · rw [List.flatMap_cons, List.flatMap_cons, htext]
    · rw [List.map_cons]
      rcases hcase with rfl | ⟨rfl, hcontrol⟩
      · rw [content, hcontent]
        rfl
      · rw [content_control hcontrol, hcontent, Char.ofNat_toNat]
        rfl

theorem literal_writeString (s : String) : Literal (writeString s) (some s) := by
  obtain ⟨pieces, hspelled, htext, hcontent⟩ := exists_pieces s.toList
  have hliteral := Literal.mk hspelled
  rw [htext, hcontent, Option.map_some, String.ofList_toList] at hliteral
  exact hliteral

/-- The digits of a natural number begin with a nought only in nought itself. -/
theorem toDigits_eq_cons {n : Nat} (h : n ≠ 0) :
    ∃ d cs, Nat.toDigits 10 n = Nat.digitChar d :: cs ∧ d < 10 ∧ d ≠ 0 ∧
      ∀ c ∈ cs, c.isDigit = true := by
  -- the digits of `n` are those of `n / 10` and one more
  induction n using Nat.strongRecOn with
  | _ n ih =>
    rw [Nat.toDigits_eq_if (by decide)]
    split
    · next hlt => exact ⟨n, [], rfl, hlt, h, fun c hc => absurd hc List.not_mem_nil⟩
    · next hge =>
      obtain ⟨d, cs, heq, hd, hne, hcs⟩ := ih (n / 10) (by omega) (by omega)
      refine ⟨d, cs ++ [Nat.digitChar (n % 10)], by rw [heq]; rfl, hd, hne, fun c hc => ?_⟩
      rcases List.mem_append.1 hc with hc | hc
      · exact hcs c hc
      · rw [List.mem_singleton.1 hc, Nat.isDigit_digitChar]
        exact decide_eq_true (Nat.mod_lt _ (by decide))

theorem wholeText_printNat (n : Nat) : WholeText (Decimal.printNat n) := by
  by_cases h : n = 0
  · subst h
    exact .zero
  · obtain ⟨d, cs, heq, hd, hne, hcs⟩ := toDigits_eq_cons h
    have hfirst : ∀ d < 10, d ≠ 0 →
        (Nat.digitChar d).isDigit = true ∧ Nat.digitChar d ≠ '0' := by decide
    rw [Decimal.printNat, heq]
    exact .digits (hfirst d hd hne).1 (hfirst d hd hne).2 hcs

theorem numeral_printInt (i : Int) : Numeral (Decimal.printInt i) (.ofInt i) := by
  have hwhole := wholeText_printNat i.natAbs
  rw [Decimal.printInt]
  split
  · next hneg =>
    have hnumeral := Numeral.minus hwhole .none .none
    rw [List.append_nil, List.append_nil] at hnumeral
    rw [Number.ofInt, decide_eq_true hneg]
    exact hnumeral
  · next hpos =>
    have hnumeral := Numeral.plain hwhole .none .none
    rw [List.append_nil, List.append_nil] at hnumeral
    rw [Number.ofInt, decide_eq_false hpos]
    exact hnumeral

/-! ## 3. Values -/

namespace Value

/-- A member as it is written. -/
def member (m : String × Value) : Member := ⟨writeString m.1, some m.1, m.2.write, m.2.outline⟩

theorem writeItems_eq (vs : List Value) :
    writeItems vs = (vs.map write).flatMap (',' :: ·) ++ [']'] := by
  induction vs with
  | nil => rfl
  | cons v vs ih => rw [writeItems, ih, List.map_cons, List.flatMap_cons, List.append_assoc]

theorem writeMembers_eq (ms : List (String × Value)) :
    writeMembers ms = (ms.map fun m => (member m).text).flatMap (',' :: ·) ++ ['\x7d'] := by
  induction ms with
  | nil => rfl
  | cons m ms ih =>
    rw [writeMembers, ih, List.map_cons, List.flatMap_cons, List.append_assoc]
    simp [member, Member.text]

theorem keyText_writeString (k : String) : KeyText (writeString k) (some k) := by
  have hkey := @KeyText.mk [] _ [] _ .nil (literal_writeString k) .nil
  rwa [List.nil_append, List.append_nil] at hkey

theorem write_array (v : Value) (vs : List Value) :
    write (.array (v :: vs)) = '[' :: ([','].intercalate ((v :: vs).map write) ++ [']']) := by
  rw [write, writeItems_eq, List.map_cons, intercalate_cons, List.append_assoc]
  rfl

theorem write_object (m : String × Value) (ms : List (String × Value)) :
    write (.object (m :: ms)) =
      '\x7b' :: ([','].intercalate ((m :: ms).map fun m => (member m).text) ++ ['\x7d']) := by
  rw [write, writeMembers_eq, List.map_cons, intercalate_cons]
  simp [member, Member.text]

-- by recursion on the value, for all that it holds
mutual

theorem spells_write : ∀ v : Value, Spells v.write v.outline
  | .null => .null
  | .bool true => .yes
  | .bool false => .no
  | .integer i => .number (numeral_printInt i)
  | .string s => .string (literal_writeString s)
  | .array [] => @Spells.emptyArray [] .nil
  | .array (v :: vs) => by
    have hitems := spells_items (v :: vs)
    have harray := @Spells.array ((v :: vs).map fun v => (v.write, v.outline)) (by simp)
      (List.forall_mem_map.2 hitems)
    rw [List.map_map, List.map_map] at harray
    rw [write_array, outline, outlineItems_eq_map]
    exact harray
  | .object [] => @Spells.emptyObject [] .nil
  | .object (m :: ms) => by
    have hvalues := spells_members (m :: ms)
    have hobject := @Spells.object ((m :: ms).map member) (by simp)
      (List.forall_mem_map.2 fun m _ => keyText_writeString m.1) (List.forall_mem_map.2 hvalues)
    rw [List.map_map, List.map_map] at hobject
    rw [write_object, outline, outlineMembers_eq_map]
    exact hobject

theorem spells_items : ∀ (vs : List Value), ∀ v ∈ vs, Spells v.write v.outline
  | [] => nofun
  | v :: vs => List.forall_mem_cons.2 ⟨spells_write v, spells_items vs⟩

theorem spells_members : ∀ (ms : List (String × Value)), ∀ m ∈ ms, Spells m.2.write m.2.outline
  | [] => nofun
  | (_, v) :: ms => List.forall_mem_cons.2 ⟨spells_write v, spells_members ms⟩

end

end Value

/-- The text of a value is read as its outline, with nothing after it. -/
theorem read_text (v : Value) : Document.read (symbolsOfText v.text) = ⟨v.outline, true⟩ :=
  v.spells_write.read_text

end Switchboard.Json
