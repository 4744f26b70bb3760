import Switchboard.Proofs.Json.Scan
import Switchboard.Proofs.Text.Utf8

/-!
# Grammar — the texts of a value

Between its tokens a text may have blanks wherever it likes, and what it nests may nest further. The
grammar relates a text to the outline of its value; whoever reads the text finds just that outline.
-/

namespace Switchboard.Json

/-! ## 1. Texts -/

/-- The text of a key up to its colon. -/
inductive KeyText : List Char → Option String → Prop
  | mk {before literal after : List Char} {key : Option String} (hbefore : IsGap before)
      (hliteral : Literal literal key) (hafter : IsGap after) :
      KeyText (before ++ (literal ++ after)) key

/-- A member of an object, with its texts on both sides of the colon. -/
structure Member where
  keyText : List Char
  key : Option String
  valueText : List Char
  value : Outline

namespace Member

def text (m : Member) : List Char := m.keyText ++ ':' :: m.valueText

def entry (m : Member) : Option String × Outline := (m.key, m.value)

end Member

/-- The text spells a value with this outline. -/
inductive Spells : List Char → Outline → Prop
  | null : Spells ['n', 'u', 'l', 'l'] .null
  | yes : Spells ['t', 'r', 'u', 'e'] (.bool true)
  | no : Spells ['f', 'a', 'l', 's', 'e'] (.bool false)
  | number {cs : List Char} {n : Number} (h : Numeral cs n) : Spells cs (.number n)
  | string {cs : List Char} {s : Option String} (h : Literal cs s) : Spells cs (.string s)
  | emptyArray {gap : List Char} (h : IsGap gap) : Spells ('[' :: (gap ++ [']'])) (.array [] true)
  | array {items : List (List Char × Outline)} (hne : items ≠ [])
      (hitems : ∀ x ∈ items, Spells x.1 x.2) :
      Spells ('[' :: ([','].intercalate (items.map Prod.fst) ++ [']']))
        (.array (items.map Prod.snd) true)
  | emptyObject {gap : List Char} (h : IsGap gap) :
      Spells ('\x7b' :: (gap ++ ['\x7d'])) (.object [] true)
  | object {members : List Member} (hne : members ≠ [])
      (hkeys : ∀ m ∈ members, KeyText m.keyText m.key)
      (hvalues : ∀ m ∈ members, Spells m.valueText m.value) :
      Spells ('\x7b' :: ([','].intercalate (members.map Member.text) ++ ['\x7d']))
        (.object (members.map Member.entry) true)
  | padded {before cs after : List Char} {o : Outline} (hbefore : IsGap before)
      (h : Spells cs o) (hafter : IsGap after) : Spells (before ++ (cs ++ after)) o

theorem Spells.isWhole {cs : List Char} {o : Outline} (h : Spells cs o) : o.isWhole = true := by
  induction h with
  | padded _ _ _ ih => exact ih
  | _ => rfl

/-- The values in an object are spelled somewhere in its text, so they are whole. -/
theorem Spells.isWhole_of_mem {cs : List Char} {members : List (Option String × Outline)}
    {closed : Bool} (h : Spells cs (.object members closed)) :
    closed = true ∧ ∀ m ∈ members, m.2.isWhole = true := by
  generalize ho : Outline.object members closed = o at h
  induction h with
  | emptyObject =>
    cases ho
    exact ⟨rfl, fun _ hm => absurd hm List.not_mem_nil⟩
  | object _ _ hvalues =>
    cases ho
    refine ⟨rfl, fun m hm => ?_⟩
    obtain ⟨x, hx, rfl⟩ := List.mem_map.1 hm
    exact (hvalues x hx).isWhole
  | padded _ _ _ ih => exact ih ho
  | _ => cases ho

theorem intercalate_cons (x : List Char) (xs : List (List Char)) :
    [','].intercalate (x :: xs) = x ++ xs.flatMap (',' :: ·) := by
  induction xs generalizing x with
  | nil => simp
  | cons y ys ih =>
    rw [List.intercalate_cons_cons, ih, List.flatMap_cons, List.append_assoc, List.cons_append]
    rfl

/-! ## 2. Reading -/

/-- A value may come next. -/
def Progress.Awaits (p : Progress) (stack : List Frame) : Prop :=
  p = .within stack .value ∨ p = .within stack .itemOrEnd

theorem Progress.Awaits.push {p : Progress} {stack : List Frame} (h : p.Awaits stack)
    {t : Token} (ht : t ≠ .closeArray) : p.push t = pushValue stack t := by
  rcases h with rfl | rfl
  · rfl
  · rw [Progress.push, if_neg ht]

/-- Wherever a value may come, the text is read as this one. -/
def Reads (cs : List Char) (o : Outline) : Prop :=
  ∀ {rest : List Symbol}, Delimited rest → ∀ {stack : List Frame} {p : Progress}, p.Awaits stack →
    Reader.read ⟨.gap, p⟩ (cs.map some ++ rest) = Reader.read ⟨.gap, .place o stack⟩ rest

namespace Reader

variable {rest : List Symbol} {stack : List Frame}

theorem delimited_separated (c : Char) (hc : c ∈ [',', ']', '\x7d', ' ', '\n', '\t', '\r'])
    (texts : List (List Char)) (rest : List Symbol) :
    Delimited ((texts.flatMap (',' :: ·)).map some ++ some c :: rest) := by
  cases texts with
  | nil => exact .cons hc _
  | cons x texts => exact .cons (by decide) _

/-- The items after the first, with those before in `done`. -/
theorem read_items {items : List (List Char × Outline)} (hitems : ∀ x ∈ items, Reads x.1 x.2)
    (done : List Outline) :
    read ⟨.gap, .within (.array done :: stack) .separator⟩
        (((items.map Prod.fst).flatMap (',' :: ·)).map some ++ some ']' :: rest) =
      read ⟨.gap, .place (.array (done.reverse ++ items.map Prod.snd) true) stack⟩ rest := by
  induction items generalizing done with
  | nil =>
    rw [List.map_nil (f := Prod.snd), List.append_nil]
    rfl
  | cons x items ih =>
    rw [List.map_cons, List.flatMap_cons, List.cons_append, List.map_cons, List.map_append,
      List.cons_append, List.append_assoc]
    show read ⟨.gap, .within (.array done :: stack) .value⟩ _ = _
    rw [hitems x List.mem_cons_self (delimited_separated ']' (by decide) _ rest) (.inl rfl)]
    show read ⟨.gap, .within (.array (x.2 :: done) :: stack) .separator⟩ _ = _
    rw [ih (fun y hy => hitems y (List.mem_cons_of_mem _ hy)), List.reverse_cons, List.append_assoc]
    rfl

/-- A key is put aside until its value is there. -/
theorem read_key {cs : List Char} {key : Option String} (h : KeyText cs key)
    {expected : Expected} (hexpected : expected = .key ∨ expected = .keyOrEnd)
    (done : List (Option String × Outline)) :
    read ⟨.gap, .within (.object done none :: stack) expected⟩ (cs.map some ++ rest) =
      read ⟨.gap, .within (.object done (some key) :: stack) .colon⟩ rest := by
  cases h with
  | @mk before literal after key hbefore hliteral hafter =>
    rw [List.map_append, List.map_append, List.append_assoc, List.append_assoc, read_gap hbefore,
      read_literal hliteral, read_gap hafter]
    rcases hexpected with rfl | rfl <;> rfl

theorem read_member {m : Member} (hkey : KeyText m.keyText m.key)
    (hvalue : Reads m.valueText m.value) {expected : Expected}
    (hexpected : expected = .key ∨ expected = .keyOrEnd) (done : List (Option String × Outline))
    (hrest : Delimited rest) :
    read ⟨.gap, .within (.object done none :: stack) expected⟩ (m.text.map some ++ rest) =
      read ⟨.gap, .within (.object (m.entry :: done) none :: stack) .separator⟩ rest := by
  rw [Member.text, List.map_append, List.map_cons, List.append_assoc, List.cons_append,
    read_key hkey hexpected]
  show read ⟨.gap, .within (.object done (some m.key) :: stack) .value⟩ _ = _
  rw [hvalue hrest (.inl rfl)]
  rfl

theorem read_members {members : List Member} (hkeys : ∀ m ∈ members, KeyText m.keyText m.key)
    (hvalues : ∀ m ∈ members, Reads m.valueText m.value) (done : List (Option String × Outline)) :
    read ⟨.gap, .within (.object done none :: stack) .separator⟩
        (((members.map Member.text).flatMap (',' :: ·)).map some ++ some '\x7d' :: rest) =
      read ⟨.gap, .place (.object (done.reverse ++ members.map Member.entry) true) stack⟩ rest := by
  induction members generalizing done with
  | nil =>
    rw [List.map_nil (f := Member.entry), List.append_nil]
    rfl
  | cons m members ih =>
    rw [List.map_cons, List.flatMap_cons, List.cons_append, List.map_cons, List.map_append,
      List.cons_append, List.append_assoc]
    show read ⟨.gap, .within (.object done none :: stack) .key⟩ _ = _
    rw [read_member (hkeys m List.mem_cons_self) (hvalues m List.mem_cons_self) (.inl rfl) done
        (delimited_separated '\x7d' (by decide) _ rest),
      ih (fun y hy => hkeys y (List.mem_cons_of_mem _ hy))
        fun y hy => hvalues y (List.mem_cons_of_mem _ hy),
      List.reverse_cons, List.append_assoc]
    rfl

end Reader

/-- What the grammar spells is what is read. -/
theorem Spells.reads {cs : List Char} {o : Outline} (h : Spells cs o) : Reads cs o := by
  induction h with
  | null =>
    intro rest _ stack p hp
    show Reader.read ⟨.gap, p.push .null⟩ rest = _
    rw [hp.push (by decide)]
    rfl
  | yes =>
    intro rest _ stack p hp
    show Reader.read ⟨.gap, p.push (.bool true)⟩ rest = _
    rw [hp.push (by decide)]
    rfl
  | no =>
    intro rest _ stack p hp
    show Reader.read ⟨.gap, p.push (.bool false)⟩ rest = _
    rw [hp.push (by decide)]
    rfl
  | number h =>
    intro rest hrest stack p hp
    rw [Reader.read_numeral h hrest, hp.push Token.noConfusion]
    rfl
  | string h =>
    intro rest _ stack p hp
    rw [Reader.read_literal h, hp.push Token.noConfusion]
    rfl
  | @emptyArray gap h =>
    intro rest _ stack p hp
    rw [List.map_cons, List.map_append, List.cons_append, List.append_assoc]
    show Reader.read ⟨.gap, p.push .openArray⟩ _ = _
    rw [hp.push (by decide), Reader.read_gap h]
    rfl
  | @array items hne _ ih =>
    intro rest _ stack p hp
    obtain ⟨x, items, rfl⟩ := List.exists_cons_of_ne_nil hne
    have htext :
        ('[' :: ([','].intercalate ((x :: items).map Prod.fst) ++ [']'])).map some ++ rest =
        some '[' :: (x.1.map some ++
          (((items.map Prod.fst).flatMap (',' :: ·)).map some ++ some ']' :: rest)) := by
      simp [intercalate_cons]
    rw [htext]
    show Reader.read ⟨.gap, p.push .openArray⟩ _ = _
    rw [hp.push (by decide)]
    show Reader.read ⟨.gap, .within (.array [] :: stack) .itemOrEnd⟩ _ = _
    rw [ih x List.mem_cons_self (Reader.delimited_separated ']' (by decide) _ rest) (.inr rfl)]
    exact Reader.read_items (fun y hy => ih y (List.mem_cons_of_mem _ hy)) [x.2]
  | @emptyObject gap h =>
    intro rest _ stack p hp
    rw [List.map_cons, List.map_append, List.cons_append, List.append_assoc]
    show Reader.read ⟨.gap, p.push .openObject⟩ _ = _
    rw [hp.push (by decide), Progress.pushValue, Reader.read_gap h]
    rfl
  | @object members hne hkeys _ ih =>
    intro rest _ stack p hp
    obtain ⟨m, members, rfl⟩ := List.exists_cons_of_ne_nil hne
    have htext : ('\x7b' :: ([','].intercalate ((m :: members).map Member.text) ++
          ['\x7d'])).map some ++ rest =
        some '\x7b' :: (m.text.map some ++
          (((members.map Member.text).flatMap (',' :: ·)).map some ++ some '\x7d' :: rest)) := by
      simp [intercalate_cons]
    rw [htext]
    show Reader.read ⟨.gap, p.push .openObject⟩ _ = _
    rw [hp.push (by decide)]
    show Reader.read ⟨.gap, .within (.object [] none :: stack) .keyOrEnd⟩ _ = _
    rw [Reader.read_member (hkeys m List.mem_cons_self) (ih m List.mem_cons_self) (.inr rfl) []
      (Reader.delimited_separated '\x7d' (by decide) _ rest)]
    exact Reader.read_members (fun y hy => hkeys y (List.mem_cons_of_mem _ hy))
      (fun y hy => ih y (List.mem_cons_of_mem _ hy)) [m.entry]
  | padded hbefore _ hafter ih =>
    intro rest hrest stack p hp
    rw [List.map_append, List.map_append, List.append_assoc, List.append_assoc,
      Reader.read_gap hbefore, ih (hrest.gap hafter) hp, Reader.read_gap hafter]

/-! ## 3. Documents -/

variable {cs : List Char} {o : Outline}

/-- A text has the outline that it spells, and nothing after it. -/
theorem Spells.document (h : Spells cs o) : Document.read (cs.map some) = ⟨o, true⟩ := by
  show Reader.read ⟨.gap, .within [] .value⟩ (cs.map some) = _
  rw [← List.append_nil (cs.map some), h.reads .nil (.inl rfl)]
  rfl

theorem Spells.read_text (h : Spells cs o) :
    Document.read (symbolsOfText (.ofList cs)) = ⟨o, true⟩ := by
  rw [symbolsOfText, String.toList_ofList]
  exact h.document

/-- The same for the bytes of the text. -/
theorem Spells.read_bytes (h : Spells cs o) :
    Document.read (symbolsOfBytes (Text.Utf8.encode (.ofList cs))) = ⟨o, true⟩ := by
  rw [symbolsOfBytes, Text.Utf8.pieces_encode, List.map_map]
  exact h.document

end Switchboard.Json
