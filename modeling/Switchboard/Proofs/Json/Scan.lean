import Switchboard.Json.Number
import Switchboard.Json.Reader

/-!
# Scan — strings and numbers, and how they are read

The texts of strings and of numbers, as the grammar of the format has them. A reader between two
tokens that meets one is between two tokens again, with that one token pushed. A number has no end
of its own, so what follows it must be the end of the text, a blank, or a symbol that ends an item.
-/

namespace Switchboard.Json

/-! ## 1. Blanks, and the rest of a text -/

/-- Nothing but blanks. -/
def IsGap (cs : List Char) : Prop := ∀ c ∈ cs, isSpace c = true

theorem IsGap.nil : IsGap [] := nofun

theorem IsGap.singleton {c : Char} (h : isSpace c = true) : IsGap [c] :=
  List.forall_mem_singleton.2 h

/-- What may stand after a value: the end of the text, a blank, or the end of the item that it is
in. -/
def Delimited (rest : List Symbol) : Prop :=
  rest = [] ∨ ∃ c ∈ [',', ']', '\x7d', ' ', '\n', '\t', '\r'], rest.head? = some (some c)

theorem Delimited.nil : Delimited [] := .inl rfl

theorem Delimited.cons {c : Char} (h : c ∈ [',', ']', '\x7d', ' ', '\n', '\t', '\r'])
    (rest : List Symbol) : Delimited (some c :: rest) :=
  .inr ⟨c, h, rfl⟩

theorem isSpace_iff {c : Char} : isSpace c = true ↔ c = ' ' ∨ c = '\n' ∨ c = '\t' ∨ c = '\r' := by
  simp only [isSpace, Bool.or_eq_true, decide_eq_true_eq, or_assoc]

theorem Delimited.gap {gap : List Char} (hgap : IsGap gap) {rest : List Symbol}
    (h : Delimited rest) : Delimited (gap.map some ++ rest) := by
  cases gap with
  | nil => exact h
  | cons c gap =>
    refine .cons ?_ _
    rcases isSpace_iff.1 (hgap c List.mem_cons_self) with rfl | rfl | rfl | rfl <;> decide

def digitsOf (cs : List Char) : List Nat := cs.map fun c => c.toNat - '0'.toNat

namespace Reader

/-- The document that a reader makes of the rest of a text. -/
def read (r : Reader) (rest : List Symbol) : Document := (rest.foldl step r).finish

theorem read_cons (r : Reader) (s : Symbol) (rest : List Symbol) :
    r.read (s :: rest) = (r.step s).read rest := rfl

theorem read_gap {gap : List Char} (hgap : IsGap gap) {p : Progress} {rest : List Symbol} :
    read ⟨.gap, p⟩ (gap.map some ++ rest) = read ⟨.gap, p⟩ rest := by
  induction gap with
  | nil => rfl
  | cons c gap ih =>
    rw [← ih fun d hd => hgap d (List.mem_cons_of_mem _ hd)]
    rcases isSpace_iff.1 (hgap c List.mem_cons_self) with rfl | rfl | rfl | rfl <;> rfl

end Reader

/-! ## 2. Strings -/

/-- What a string is spelled with: characters, and units of sixteen bits. -/
inductive Piece where
  | char (c : Char)
  | unit (n : Nat)

inductive Piece.Spelled : List Char → Piece → Prop
  | plain {c : Char} (hquote : c ≠ '"') (hslash : c ≠ '\\') (hcontrol : 0x20 ≤ c.toNat) :
      Spelled [c] (.char c)
  | escape {e c : Char} (h : StringDraft.escaped? e = some c) : Spelled ['\\', e] (.char c)
  | unit {a b c d : Char} {i j k l : Nat} (ha : StringDraft.hexDigit? a = some i)
      (hb : StringDraft.hexDigit? b = some j) (hc : StringDraft.hexDigit? c = some k)
      (hd : StringDraft.hexDigit? d = some l) :
      Spelled ['\\', 'u', a, b, c, d] (.unit (((i * 16 + j) * 16 + k) * 16 + l))

/-- The first half of a pair. -/
def isHigh (n : Nat) : Bool := 0xd800 ≤ n && n ≤ 0xdbff

def isLow (n : Nat) : Bool := 0xdc00 ≤ n && n ≤ 0xdfff

/-- The characters of a string. A half without its other half names none. -/
def content : List Piece → Option (List Char)
  | [] => some []
  | .char c :: ps => (content ps).map (c :: ·)
  | .unit n :: .unit m :: ps =>
    if isHigh n then
      if isLow m then
        (content ps).map (Char.ofNat (0x10000 + (n - 0xd800) * 0x400 + (m - 0xdc00)) :: ·)
      else none
    else if isLow n then none
    else (content (.unit m :: ps)).map (Char.ofNat n :: ·)
  | .unit n :: ps =>
    if isHigh n || isLow n then none else (content ps).map (Char.ofNat n :: ·)

/-- A string between its quotes, with its content. -/
inductive Literal : List Char → Option String → Prop
  | mk {pieces : List (List Char × Piece)} (h : ∀ x ∈ pieces, Piece.Spelled x.1 x.2) :
      Literal ('"' :: pieces.flatMap Prod.fst ++ ['"'])
        ((content (pieces.map Prod.snd)).map String.ofList)

theorem isHigh_of_isLow {n : Nat} (h : isLow n = true) : isHigh n = false := by
  simp only [isLow, isHigh, Bool.and_eq_true, decide_eq_true_eq, Bool.and_eq_false_iff,
    decide_eq_false_iff_not] at h ⊢
  omega

theorem content_low {n : Nat} (h : isLow n = true) (ps : List Piece) :
    content (.unit n :: ps) = none := by
  have hhigh := isHigh_of_isLow h
  rcases ps with - | ⟨c | m, ps⟩ <;> simp [content, h, hhigh]

theorem content_unit {n : Nat} (hhigh : isHigh n = false) (hlow : isLow n = false)
    (ps : List Piece) : content (.unit n :: ps) = (content ps).map (Char.ofNat n :: ·) := by
  rcases ps with - | ⟨c | m, ps⟩ <;> simp [content, hlow, hhigh]

/-- A first half waits in vain for anything but a second half. -/
theorem content_high {n : Nat} (h : isHigh n = true) {ps : List Piece}
    (hnext : ∀ m ps', ps = .unit m :: ps' → isLow m = false) :
    content (.unit n :: ps) = none := by
  rcases ps with - | ⟨c | m, ps⟩
  · simp [content, h]
  · simp [content, h]
  · simp [content, h, hnext m ps rfl]

namespace StringDraft

def take (d : StringDraft) : Piece → StringDraft
  | .char c => d.push c
  | .unit n => d.pushUnit n

/-- The half of a pair that waits for the other. -/
def pending (d : StringDraft) : List Piece := (d.high.map Piece.unit).toList

variable {d : StringDraft}

theorem push_part (d : StringDraft) (part : StringPart) (c : Char) :
    push { d with part } c = d.push c := by
  simp only [push, settle]
  split <;> rfl

theorem pushUnit_part (d : StringDraft) (part : StringPart) (n : Nat) :
    pushUnit { d with part } n = d.pushUnit n := by
  simp only [pushUnit, push_part]
  split
  · cases d.high <;> rfl
  · split
    · simp only [settle]
      split <;> rfl
    · rfl

theorem part_take (d : StringDraft) (piece : Piece) : (d.take piece).part = .plain := by
  cases piece with
  | char c => rfl
  | unit n =>
    simp only [take, pushUnit]
    split
    · split <;> rfl
    · split <;> rfl

theorem pushUnit_low {n : Nat} (h : isLow n = true) (d : StringDraft) :
    d.pushUnit n =
      match d.high with
      | some m =>
        { d with
          part := .plain, high := none
          chars := Char.ofNat (0x10000 + (m - 0xd800) * 0x400 + (n - 0xdc00)) :: d.chars }
      | none => { d with part := .plain, readable := false } :=
  if_pos h

theorem pushUnit_high {n : Nat} (h : isHigh n = true) (hlow : isLow n = false) (d : StringDraft) :
    d.pushUnit n = { d.settle with part := .plain, high := some n } := by
  refine (if_neg ?_).trans (if_pos h)
  exact fun hl => Bool.false_ne_true (hlow.symm.trans hl)

theorem pushUnit_other {n : Nat} (h : isHigh n = false) (hlow : isLow n = false)
    (d : StringDraft) : d.pushUnit n = d.push (Char.ofNat n) := by
  refine (if_neg ?_).trans (if_neg ?_)
  · exact fun hl => Bool.false_ne_true (hlow.symm.trans hl)
  · exact fun hh => Bool.false_ne_true (h.symm.trans hh)

/-- What a draft makes of more pieces, when the half that waits goes in front of them. -/
theorem content_foldl_take (hhigh : ∀ n, d.high = some n → isHigh n = true) (ps : List Piece) :
    (ps.foldl take d).content =
      if d.readable then
        (Json.content (d.pending ++ ps)).map fun cs => .ofList (d.chars.reverse ++ cs)
      else none := by
  induction ps generalizing d with
  | nil =>
    obtain ⟨part, chars, high, readable⟩ := d
    cases high with
    | none => cases readable <;> simp [content, settle, pending, Json.content]
    | some m =>
      have hnone := @content_high _ (hhigh m rfl) [] nofun
      simp [content, settle, pending, hnone]
  | cons piece ps ih =>
    obtain ⟨part, chars, high, readable⟩ := d
    rw [List.foldl_cons]
    cases high with
    | none =>
      cases piece with
      | char c =>
        rw [ih (by simp [take, push, settle])]
        simp [take, push, settle, pending, Json.content, Function.comp_def]
      | unit n =>
        by_cases hlow : isLow n = true
        · rw [ih (by simp [take, pushUnit_low hlow])]
          simp [take, pushUnit_low hlow, pending, content_low hlow]
        by_cases hfirst : isHigh n = true
        · have hlow : isLow n = false := by simpa using hlow
          rw [ih (by simp [take, pushUnit_high hfirst hlow, hfirst])]
          simp [take, pushUnit_high hfirst hlow, pending, settle]
        · have hlow : isLow n = false := by simpa using hlow
          have hfirst : isHigh n = false := by simpa using hfirst
          rw [ih (by simp [take, pushUnit_other hfirst hlow, push, settle])]
          simp [take, pushUnit_other hfirst hlow, push, settle, pending, content_unit hfirst hlow,
            Function.comp_def]
    | some m =>
      have hm := hhigh m rfl
      cases piece with
      | char c =>
        have hnone := @content_high _ hm (.char c :: ps) nofun
        rw [ih (by simp [take, push, settle])]
        simp [take, push, settle, pending, hnone]
      | unit n =>
        by_cases hlow : isLow n = true
        · rw [ih (by simp [take, pushUnit_low hlow])]
          simp [take, pushUnit_low hlow, pending, Json.content, hm, hlow, Function.comp_def]
        have hlow : isLow n = false := by simpa using hlow
        have hnone := @content_high _ hm (.unit n :: ps) (by simp [hlow])
        by_cases hfirst : isHigh n = true
        · rw [ih (by simp [take, pushUnit_high hfirst hlow, hfirst])]
          simp [take, pushUnit_high hfirst hlow, pending, settle, hnone]
        · have hfirst : isHigh n = false := by simpa using hfirst
          rw [ih (by simp [take, pushUnit_other hfirst hlow, push, settle])]
          simp [take, pushUnit_other hfirst hlow, push, settle, pending, hnone]

end StringDraft

namespace Reader

variable {p : Progress} {rest : List Symbol}

theorem read_piece {cs : List Char} {piece : Piece} (h : piece.Spelled cs) {d : StringDraft}
    (hpart : d.part = .plain) :
    read ⟨.string d, p⟩ (cs.map some ++ rest) = read ⟨.string (d.take piece), p⟩ rest := by
  obtain ⟨part, chars, high, readable⟩ := d
  obtain rfl : part = .plain := hpart
  cases h with
  | @plain c hquote hslash hcontrol =>
    have hstep : Mode.stepString ⟨.plain, chars, high, readable⟩ (some c) =
        (.string (StringDraft.push ⟨.plain, chars, high, readable⟩ c), []) := by
      simp [Mode.stepString, hquote, hslash, Nat.not_lt.2 hcontrol]
    show read (step _ (some c)) rest = _
    rw [step, Mode.step, hstep]
    rfl
  | @escape e c hescape =>
    have hnot : e ≠ 'u' := by
      rintro rfl
      cases hescape
    have hstep : Mode.stepString ⟨.escape, chars, high, readable⟩ (some e) =
        (.string (StringDraft.push ⟨.plain, chars, high, readable⟩ c), []) := by
      simp only [Mode.stepString, if_neg hnot, hescape]
      exact congrArg (fun d => (Mode.string d, []))
        (StringDraft.push_part ⟨.plain, chars, high, readable⟩ .escape c)
    show read (step ⟨.string ⟨.escape, chars, high, readable⟩, p⟩ (some e)) rest = _
    rw [step, Mode.step, hstep]
    rfl
  | @unit a b c d i j k l ha hb hc hd =>
    -- after the letter, digit by digit
    have hdigit : ∀ {e : Char} {v m left : Nat}, StringDraft.hexDigit? e = some v → ¬ left + 2 ≤ 1 →
        step ⟨.string ⟨.unit (left + 2) m, chars, high, readable⟩, p⟩ (some e) =
          ⟨.string ⟨.unit (left + 1) (m * 16 + v), chars, high, readable⟩, p⟩ := by
      intro e v m left hv hleft
      simp only [step, Mode.step, Mode.stepString, hv, if_neg hleft]
      rfl
    have hlast : ∀ {e : Char} {v m : Nat}, StringDraft.hexDigit? e = some v →
        step ⟨.string ⟨.unit 1 m, chars, high, readable⟩, p⟩ (some e) =
          ⟨.string (StringDraft.pushUnit ⟨.plain, chars, high, readable⟩ (m * 16 + v)), p⟩ := by
      intro e v m hv
      simp only [step, Mode.step, Mode.stepString, hv, if_pos (Nat.le_refl 1)]
      exact congrArg (fun d => (⟨.string d, p⟩ : Reader))
        (StringDraft.pushUnit_part ⟨.plain, chars, high, readable⟩ (.unit 1 m) (m * 16 + v))
    show read (step (step (step (step ⟨.string ⟨.unit 4 0, chars, high, readable⟩, p⟩ (some a))
      (some b)) (some c)) (some d)) rest = _
    rw [hdigit ha (by decide), hdigit hb (by decide), hdigit hc (by decide), hlast hd, Nat.zero_mul,
      Nat.zero_add]
    rfl

theorem read_pieces {pieces : List (List Char × Piece)}
    (h : ∀ x ∈ pieces, Piece.Spelled x.1 x.2) {d : StringDraft} (hpart : d.part = .plain) :
    read ⟨.string d, p⟩ ((pieces.flatMap Prod.fst).map some ++ some '"' :: rest) =
      read ⟨.gap, p.push (.string ((pieces.map Prod.snd).foldl StringDraft.take d).content)⟩
        rest := by
  induction pieces generalizing d with
  | nil =>
    obtain ⟨part, chars, high, readable⟩ := d
    obtain rfl : part = .plain := hpart
    rfl
  | cons x pieces ih =>
    rw [List.flatMap_cons, List.map_append, List.append_assoc,
      read_piece (h x List.mem_cons_self) hpart,
      ih (fun y hy => h y (List.mem_cons_of_mem _ hy)) (d.part_take x.2)]
    rfl

theorem read_literal {cs : List Char} {s : Option String} (h : Literal cs s) :
    read ⟨.gap, p⟩ (cs.map some ++ rest) = read ⟨.gap, p.push (.string s)⟩ rest := by
  cases h with
  | @mk pieces h =>
    have hopen : read ⟨.gap, p⟩ (('"' :: pieces.flatMap Prod.fst ++ ['"']).map some ++ rest) =
        read ⟨.string {}, p⟩ ((pieces.flatMap Prod.fst).map some ++ some '"' :: rest) := by
      rw [List.map_append, List.append_assoc]
      rfl
    have hempty : ∀ n, ({} : StringDraft).high = some n → isHigh n = true := nofun
    rw [hopen, read_pieces h rfl, StringDraft.content_foldl_take hempty]
    rfl

end Reader

/-! ## 3. Numbers -/

/-- The digits before the point. Only nought itself begins with a nought. -/
inductive WholeText : List Char → Prop
  | zero : WholeText ['0']
  | digits {c : Char} {cs : List Char} (hc : c.isDigit = true) (hne : c ≠ '0')
      (hcs : ∀ d ∈ cs, d.isDigit = true) : WholeText (c :: cs)

inductive FractionText : List Char → List Nat → Prop
  | none : FractionText [] []
  | some {cs : List Char} (hne : cs ≠ []) (hcs : ∀ d ∈ cs, d.isDigit = true) :
      FractionText ('.' :: cs) (digitsOf cs)

/-- The exponent, with whether it goes down. -/
inductive ExponentText : List Char → Option (Bool × List Nat) → Prop
  | none : ExponentText [] none
  | plain {mark : Char} (hmark : mark = 'e' ∨ mark = 'E') {cs : List Char} (hne : cs ≠ [])
      (hcs : ∀ d ∈ cs, d.isDigit = true) : ExponentText (mark :: cs) (some (false, digitsOf cs))
  | up {mark : Char} (hmark : mark = 'e' ∨ mark = 'E') {cs : List Char} (hne : cs ≠ [])
      (hcs : ∀ d ∈ cs, d.isDigit = true) :
      ExponentText (mark :: '+' :: cs) (some (false, digitsOf cs))
  | down {mark : Char} (hmark : mark = 'e' ∨ mark = 'E') {cs : List Char} (hne : cs ≠ [])
      (hcs : ∀ d ∈ cs, d.isDigit = true) :
      ExponentText (mark :: '-' :: cs) (some (true, digitsOf cs))

/-- A number as it may be written. -/
inductive Numeral : List Char → Number → Prop
  | plain {whole fraction exponent : List Char} {f : List Nat} {e : Option (Bool × List Nat)}
      (hwhole : WholeText whole) (hfraction : FractionText fraction f)
      (hexponent : ExponentText exponent e) :
      Numeral (whole ++ (fraction ++ exponent)) ⟨false, digitsOf whole, f, e⟩
  | minus {whole fraction exponent : List Char} {f : List Nat} {e : Option (Bool × List Nat)}
      (hwhole : WholeText whole) (hfraction : FractionText fraction f)
      (hexponent : ExponentText exponent e) :
      Numeral ('-' :: (whole ++ (fraction ++ exponent))) ⟨true, digitsOf whole, f, e⟩

theorem exists_digitChar {c : Char} (h : c.isDigit = true) : ∃ d < 10, c = Nat.digitChar d := by
  have hrange : 48 ≤ c.toNat ∧ c.toNat ≤ 57 := by
    rw [Char.isDigit, Bool.and_eq_true, decide_eq_true_eq, decide_eq_true_eq] at h
    exact ⟨UInt32.le_iff_toNat_le.1 h.1, UInt32.le_iff_toNat_le.1 h.2⟩
  refine ⟨c.toNat - 48, by omega, Char.toNat_inj.1 ?_⟩
  rw [Nat.toNat_digitChar_of_lt_ten (by omega)]
  omega

theorem digit?_digitChar : ∀ d < 10, Decimal.digit? (Nat.digitChar d) = some d := by decide

theorem toNat_digitChar : ∀ d < 10, (Nat.digitChar d).toNat - '0'.toNat = d := by decide

/-- The parts that a number may end with. -/
theorem NumberDraft.part_of_finish? {d : NumberDraft} {n : Number} (h : d.finish? = some n) :
    d.part = .zero ∨ d.part = .whole ∨ d.part = .fraction ∨ d.part = .exponent := by
  obtain ⟨part, negative, whole, fraction, down, exponent⟩ := d
  cases part <;> simp_all [finish?]

namespace Reader

variable {p : Progress} {rest : List Symbol}

/-- Digits go one after another to where the draft takes them. -/
theorem read_digits (draft : List Nat → NumberDraft)
    (hnext : ∀ d < 10, ∀ ds, (draft ds).next? (Nat.digitChar d) = some (draft (d :: ds)))
    {cs : List Char} (hcs : ∀ c ∈ cs, c.isDigit = true) (ds : List Nat) :
    read ⟨.number (draft ds), p⟩ (cs.map some ++ rest) =
      read ⟨.number (draft ((digitsOf cs).reverse ++ ds)), p⟩ rest := by
  -- on the digits, with those before in the draft
  induction cs generalizing ds with
  | nil => rfl
  | cons c cs ih =>
    obtain ⟨d, hd, rfl⟩ := exists_digitChar (hcs c List.mem_cons_self)
    have hstep : step ⟨.number (draft ds), p⟩ (some (Nat.digitChar d)) =
        ⟨.number (draft (d :: ds)), p⟩ := by
      simp [step, Mode.step, Mode.stepNumber, hnext d hd]
    rw [List.map_cons, List.cons_append, read_cons, hstep,
      ih fun c hc => hcs c (List.mem_cons_of_mem _ hc), digitsOf, digitsOf, List.map_cons,
      toNat_digitChar d hd, List.reverse_cons, List.append_assoc]
    rfl

/-- The same after a symbol that wants at least one digit. -/
theorem read_digits_after {d : NumberDraft} (draft : List Nat → NumberDraft)
    (hfirst : ∀ n < 10, d.next? (Nat.digitChar n) = some (draft [n]))
    (hnext : ∀ n < 10, ∀ ds, (draft ds).next? (Nat.digitChar n) = some (draft (n :: ds)))
    {cs : List Char} (hne : cs ≠ []) (hcs : ∀ c ∈ cs, c.isDigit = true) :
    read ⟨.number d, p⟩ (cs.map some ++ rest) =
      read ⟨.number (draft (digitsOf cs).reverse), p⟩ rest := by
  cases cs with
  | nil => exact absurd rfl hne
  | cons c cs =>
    obtain ⟨n, hn, rfl⟩ := exists_digitChar (hcs c List.mem_cons_self)
    have hstep : step ⟨.number d, p⟩ (some (Nat.digitChar n)) = ⟨.number (draft [n]), p⟩ := by
      simp [step, Mode.step, Mode.stepNumber, hfirst n hn]
    rw [List.map_cons, List.cons_append, read_cons, hstep,
      read_digits draft hnext fun c hc => hcs c (List.mem_cons_of_mem _ hc), digitsOf, digitsOf,
      List.map_cons, toNat_digitChar n hn, List.reverse_cons]

/-- A number ends where a value may end. -/
theorem read_number_end (hrest : Delimited rest) {d : NumberDraft} {n : Number}
    (hfinish : d.finish? = some n) :
    read ⟨.number d, p⟩ rest = read ⟨.gap, p.push (.number n)⟩ rest := by
  rcases hrest with rfl | ⟨c, hc, hhead⟩
  -- the text ends, or a symbol comes that no number goes on with
  · show ((Mode.number d).finish.foldl Progress.push p).finish = _
    rw [Mode.finish, hfinish]
    rfl
  · cases rest with
    | nil => cases hhead
    | cons s rest =>
      obtain rfl : s = some c := Option.some.inj hhead
      have hstops : Decimal.digit? c = none ∧ c ≠ '.' ∧ c ≠ 'e' ∧ c ≠ 'E' := by
        simp only [List.mem_cons, List.not_mem_nil, or_false] at hc
        rcases hc with rfl | rfl | rfl | rfl | rfl | rfl | rfl <;> decide
      obtain ⟨hdigit, hpoint, hlower, hupper⟩ := hstops
      have hnext : d.next? c = none := by
        rcases NumberDraft.part_of_finish? hfinish with h | h | h | h <;>
          simp [NumberDraft.next?, h, hdigit, hpoint, hlower, hupper]
      have hsound : d.isSpoiltBy c = false := by simp [NumberDraft.isSpoiltBy, hdigit]
      rw [read_cons, read_cons]
      congr 1
      simp [step, Mode.step, Mode.stepNumber, hnext, hsound, hfinish]

/-- The digits before the point, behind a sign or without one. -/
theorem read_whole {whole : List Char} (h : WholeText whole) :
    ∃ part, (part = .zero ∨ part = .whole) ∧
      read ⟨.gap, p⟩ (whole.map some ++ rest) =
        read ⟨.number { part, whole := (digitsOf whole).reverse }, p⟩ rest ∧
      read ⟨.number { part := .sign, negative := true }, p⟩ (whole.map some ++ rest) =
        read ⟨.number { part, negative := true, whole := (digitsOf whole).reverse }, p⟩ rest := by
  cases h with
  | zero => exact ⟨.zero, .inl rfl, rfl, rfl⟩
  | @digits c cs hc hne hcs =>
    obtain ⟨d, hd, rfl⟩ := exists_digitChar hc
    have hpos : d ≠ 0 := by
      rintro rfl
      exact hne rfl
    have hdigits : (digitsOf (Nat.digitChar d :: cs)).reverse = (digitsOf cs).reverse ++ [d] := by
      rw [digitsOf, List.map_cons, toNat_digitChar d hd, List.reverse_cons]
      rfl
    have hstart : ∀ d < 10, d ≠ 0 → Mode.start (some (Nat.digitChar d)) =
        (.number { part := .whole, whole := [d] }, []) := by decide
    have hsigned : ∀ d < 10, d ≠ 0 →
        NumberDraft.next? { part := .sign, negative := true } (Nat.digitChar d) =
          some { part := .whole, negative := true, whole := [d] } := by decide
    refine ⟨.whole, .inr rfl, ?_, ?_⟩
    · have hstep : step ⟨.gap, p⟩ (some (Nat.digitChar d)) =
          ⟨.number { part := .whole, whole := [d] }, p⟩ := by
        rw [step, Mode.step, hstart d hd hpos]
        rfl
      rw [List.map_cons, List.cons_append, read_cons, hstep, hdigits]
      exact read_digits (fun ds => { part := .whole, whole := ds })
        (fun n hn ds => by simp [NumberDraft.next?, digit?_digitChar n hn]) hcs [d]
    · have hstep : step ⟨.number { part := .sign, negative := true }, p⟩
            (some (Nat.digitChar d)) =
          ⟨.number { part := .whole, negative := true, whole := [d] }, p⟩ := by
        rw [step, Mode.step, Mode.stepNumber, Option.bind_some, hsigned d hd hpos]
        rfl
      rw [List.map_cons, List.cons_append, read_cons, hstep, hdigits]
      exact read_digits (fun ds => { part := .whole, negative := true, whole := ds })
        (fun n hn ds => by simp [NumberDraft.next?, digit?_digitChar n hn]) hcs [d]

/-- The point and the digits behind it, if there are any. -/
theorem read_fraction {fraction : List Char} {f : List Nat} (h : FractionText fraction f)
    {d : NumberDraft} (hpart : d.part = .zero ∨ d.part = .whole) (hempty : d.fraction = []) :
    ∃ part, (part = .zero ∨ part = .whole ∨ part = .fraction) ∧
      read ⟨.number d, p⟩ (fraction.map some ++ rest) =
        read ⟨.number { d with part, fraction := f.reverse }, p⟩ rest := by
  obtain ⟨part, negative, whole, taken, down, exponent⟩ := d
  obtain rfl : taken = [] := hempty
  cases h with
  | none =>
    refine ⟨part, ?_, rfl⟩
    rcases hpart with h | h
    · exact .inl h
    · exact .inr (.inl h)
  | @some cs hne hcs =>
    have hpoint : step ⟨.number ⟨part, negative, whole, [], down, exponent⟩, p⟩ (some '.') =
        ⟨.number ⟨.point, negative, whole, [], down, exponent⟩, p⟩ := by
      rcases hpart with rfl | rfl <;> rfl
    refine ⟨.fraction, .inr (.inr rfl), ?_⟩
    rw [List.map_cons, List.cons_append, read_cons, hpoint]
    exact read_digits_after (fun ds => ⟨.fraction, negative, whole, ds, down, exponent⟩)
      (fun n hn => by simp [NumberDraft.next?, digit?_digitChar n hn])
      (fun n hn ds => by simp [NumberDraft.next?, digit?_digitChar n hn]) hne hcs

/-- The exponent, if there is one, and then the number ends. -/
theorem read_exponent {exponent : List Char} {e : Option (Bool × List Nat)}
    (h : ExponentText exponent e) (hrest : Delimited rest) {part : NumberPart}
    (hpart : part = .zero ∨ part = .whole ∨ part = .fraction) (negative : Bool)
    (whole fraction : List Nat) :
    read ⟨.number { part, negative, whole, fraction }, p⟩ (exponent.map some ++ rest) =
      read ⟨.gap, p.push (.number ⟨negative, whole.reverse, fraction.reverse, e⟩)⟩ rest := by
  -- the mark, and behind it or behind a sign the digits
  have hmark : ∀ mark, mark = 'e' ∨ mark = 'E' →
      step ⟨.number { part, negative, whole, fraction }, p⟩ (some mark) =
        ⟨.number { part := .exponentMark, negative, whole, fraction }, p⟩ := by
    rintro mark (rfl | rfl) <;> rcases hpart with rfl | rfl | rfl <;> rfl
  have hdigits : ∀ {start : NumberPart} {down : Bool} {cs : List Char},
      start = .exponentMark ∨ start = .exponentSign → cs ≠ [] → (∀ c ∈ cs, c.isDigit = true) →
      read ⟨.number { part := start, negative, whole, fraction, down }, p⟩ (cs.map some ++ rest) =
        read ⟨.gap, p.push (.number
          ⟨negative, whole.reverse, fraction.reverse, some (down, digitsOf cs)⟩)⟩ rest := by
    intro start down cs hstart hne hcs
    rw [read_digits_after (fun ds => ⟨.exponent, negative, whole, fraction, down, ds⟩)
      (fun n hn => by
        rcases hstart with rfl | rfl <;> simp [NumberDraft.next?, digit?_digitChar n hn])
      (fun n hn ds => by simp [NumberDraft.next?, digit?_digitChar n hn]) hne hcs]
    refine read_number_end hrest ?_
    simp [NumberDraft.finish?]
  cases h with
  | none =>
    refine read_number_end hrest ?_
    rcases hpart with rfl | rfl | rfl <;> rfl
  | plain hm hne hcs =>
    rw [List.map_cons, List.cons_append, read_cons, hmark _ hm]
    exact hdigits (.inl rfl) hne hcs
  | up hm hne hcs =>
    rw [List.map_cons, List.cons_append, read_cons, hmark _ hm]
    exact hdigits (.inr rfl) hne hcs
  | down hm hne hcs =>
    rw [List.map_cons, List.cons_append, read_cons, hmark _ hm]
    exact hdigits (.inr rfl) hne hcs

theorem read_numeral {cs : List Char} {n : Number} (h : Numeral cs n) (hrest : Delimited rest) :
    read ⟨.gap, p⟩ (cs.map some ++ rest) = read ⟨.gap, p.push (.number n)⟩ rest := by
  cases h with
  | @plain whole fraction exponent f e hwhole hfraction hexponent =>
    obtain ⟨part, hpart, hread, -⟩ := read_whole hwhole
    obtain ⟨part', hpart', hread'⟩ := read_fraction hfraction (d := { part, whole := _ }) hpart rfl
    rw [List.map_append, List.map_append, List.append_assoc, List.append_assoc, hread, hread',
      read_exponent hexponent hrest hpart', List.reverse_reverse, List.reverse_reverse]
  | @minus whole fraction exponent f e hwhole hfraction hexponent =>
    obtain ⟨part, hpart, -, hread⟩ := read_whole hwhole
    obtain ⟨part', hpart', hread'⟩ :=
      read_fraction hfraction (d := { part, negative := true, whole := _ }) hpart rfl
    rw [List.map_cons, List.map_append, List.map_append, List.cons_append, List.append_assoc,
      List.append_assoc]
    show read ⟨.number { part := .sign, negative := true }, p⟩ _ = _
    rw [hread, hread', read_exponent hexponent hrest hpart', List.reverse_reverse,
      List.reverse_reverse]

end Reader

end Switchboard.Json
