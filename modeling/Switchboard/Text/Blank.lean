/-!
White space and trimming. The blanks are the code points with the Unicode property
`White_Space`; trimming works on characters, and the `String` functions wrap it.
-/

namespace Switchboard.Text

/-- Blank characters: the `White_Space` code points, which leave out U+200B. -/
def isBlank (c : Char) : Bool :=
  let n := c.toNat
  (0x9 ≤ n && n ≤ 0xd) || n = 0x20 || n = 0x85 || n = 0xa0 || n = 0x1680 ||
    (0x2000 ≤ n && n ≤ 0x200a) || n = 0x2028 || n = 0x2029 || n = 0x202f || n = 0x205f ||
    n = 0x3000

def dropEndWhile (p : Char → Bool) (cs : List Char) : List Char :=
  (cs.reverse.dropWhile p).reverse

/-- Drops the characters at both ends that satisfy `p`. -/
def strip (p : Char → Bool) (cs : List Char) : List Char :=
  dropEndWhile p (cs.dropWhile p)

def trimChars (cs : List Char) : List Char := strip isBlank cs

def trim (s : String) : String := .ofList (trimChars s.toList)

/-- Holds of a text that trimming empties. -/
def isBlankText (s : String) : Bool := s.toList.all isBlank

/-- Splits at every `sep`; a text without one is its own single field. -/
def fields (sep : Char) : List Char → List (List Char)
  | [] => [[]]
  | c :: cs =>
    if c = sep then [] :: fields sep cs
    else
      match fields sep cs with
      -- there is always a last field, so this case is never met
      | [] => [[c]]
      | f :: fs => (c :: f) :: fs

/-- Splits at the first `sep`, which belongs to neither side. -/
def splitFirst? (sep : Char) : List Char → Option (List Char × List Char)
  | [] => none
  | c :: cs =>
    if c = sep then some ([], cs)
    else (splitFirst? sep cs).map fun (l, r) => (c :: l, r)

/-- Strips a leading `lead`, if the text starts with it. -/
def stripLead? : (lead : List Char) → List Char → Option (List Char)
  | [], cs => some cs
  | _ :: _, [] => none
  | l :: ls, c :: cs => if l = c then stripLead? ls cs else none

/-- Lower case on the letters A to Z, all else kept. -/
def lowerAscii (s : String) : String := .ofList (s.toList.map Char.toLower)

theorem fields_ne_nil (sep : Char) (cs : List Char) : fields sep cs ≠ [] := by
  cases cs with
  | nil => simp [fields]
  | cons c cs =>
    simp only [fields]
    split
    · simp
    · split <;> simp

end Switchboard.Text
