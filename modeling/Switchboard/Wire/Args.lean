/-!
Arguments of a command: texts under names, each name once, in the order of the names. Keeping them
sorted makes equal arguments equal lists, and writing them out needs no further choice.
-/

namespace Switchboard.Wire

/-- Entries with strictly ascending names. -/
def Ascending (entries : List (String × String)) : Prop :=
  entries.Pairwise fun a b => a.1 < b.1

/-- Inserts an entry; one of the same name is replaced. -/
def insertEntry (k v : String) : List (String × String) → List (String × String)
  | [] => [(k, v)]
  | (k', v') :: es =>
    if k < k' then (k, v) :: (k', v') :: es
    else if k = k' then (k, v) :: es
    else (k', v') :: insertEntry k v es

theorem mem_insertEntry {k v : String} {es : List (String × String)} {e : String × String}
    (h : e ∈ insertEntry k v es) : e = (k, v) ∨ e ∈ es := by
  induction es with
  | nil => simp_all [insertEntry]
  | cons e' es ih =>
    obtain ⟨k', v'⟩ := e'
    simp only [insertEntry] at h
    split at h
    · simpa using h
    · split at h
      · rcases List.mem_cons.1 h with h | h
        · exact .inl h
        · exact .inr (List.mem_cons_of_mem _ h)
      · rcases List.mem_cons.1 h with h | h
        · exact .inr (h ▸ List.mem_cons_self)
        · rcases ih h with h | h
          · exact .inl h
          · exact .inr (List.mem_cons_of_mem _ h)

theorem Ascending.insertEntry {es : List (String × String)} (h : Ascending es) (k v : String) :
    Ascending (insertEntry k v es) := by
  induction es with
  | nil => simp [Ascending, Wire.insertEntry]
  | cons e es ih =>
    obtain ⟨k', v'⟩ := e
    have hhead := (List.pairwise_cons.1 h).1
    have htail := (List.pairwise_cons.1 h).2
    simp only [Wire.insertEntry]
    split
    · next hlt =>
      refine List.pairwise_cons.2 ⟨?_, h⟩
      intro e he
      rcases List.mem_cons.1 he with he | he
      · exact he ▸ hlt
      · exact String.lt_trans hlt (hhead e he)
    · next hlt =>
      split
      · next heq => exact List.pairwise_cons.2 ⟨fun e he => heq ▸ hhead e he, htail⟩
      · next hne =>
        refine List.pairwise_cons.2 ⟨?_, ih htail⟩
        intro e he
        rcases mem_insertEntry he with he | he
        · subst he
          rcases String.le_total k k' with hle | hle
          · exact absurd (String.le_antisymm hle (String.not_lt.1 hlt)) hne
          · exact Decidable.byContradiction fun hnot =>
              hne (String.le_antisymm (String.not_lt.1 hnot) hle)
        · exact hhead e he

structure Args where
  entries : List (String × String)
  ascending : Ascending entries
  deriving DecidableEq, Repr

namespace Args

def empty : Args := ⟨[], List.Pairwise.nil⟩

instance : Inhabited Args := ⟨empty⟩

def insert (args : Args) (k v : String) : Args :=
  ⟨insertEntry k v args.entries, args.ascending.insertEntry k v⟩

/-- The arguments of a list of entries, of which the last wins. -/
def ofList (entries : List (String × String)) : Args :=
  entries.foldl (fun args (k, v) => args.insert k v) empty

def get? (args : Args) (k : String) : Option String := args.entries.lookup k

end Args

end Switchboard.Wire
