import Switchboard.Proofs.Gateway.Obedience
import Switchboard.Proofs.Listing

/-!
# Ids — which texts are lists of ids

The arguments of a command name groups by their ids, between commas. The list is taken as a whole,
so one part that is no id leaves none of the groups.
-/

namespace Switchboard.Gateway.Request

open Decimal (Numeral)

variable {name : String} {text : List Char} {fault : Fault}

theorem isId_iff_spelled {id : Int64} : IsId text id ↔ Decimal.Spelled text id :=
  Decimal.spelled_iff.symm

/-- An id is a numeral in the range of 64 bits. -/
theorem exists_isId_iff :
    (∃ id, IsId text id) ↔
      ∃ i : Int, Numeral (Text.trimChars text) i ∧
        -0x8000000000000000 ≤ i ∧ i ≤ 0x7fffffffffffffff := by
  constructor
  · rintro ⟨id, hid⟩
    have hlow := id.le_toInt
    have hhigh := id.toInt_lt
    exact ⟨id.toInt, hid, by omega, by omega⟩
  · rintro ⟨i, hi, hlow, hhigh⟩
    refine ⟨Int64.ofInt i, ?_⟩
    rwa [IsId, Int64.toInt_ofInt_of_le (by omega) (by omega)]

/-- The fault has the text as it stands, blanks included. -/
theorem readId_eq_error_iff :
    readId name text = .error fault ↔
      (∀ id, ¬ IsId text id) ∧ fault = .invalid name (.ofList text) := by
  have hok : ∀ id, readId name text = .ok id ↔ IsId text id := fun _ => readId_eq_ok_iff
  simp only [← hok]
  rw [readId]
  cases Decimal.readInt64 (Text.trimChars text) <;> simp [eq_comm]

theorem parts_eq (text : List Char) :
    parts text = (text.splitOn ',').filter fun part => Text.trimChars part ≠ [] := by
  rw [parts, Text.fields_eq_splitOn]
  refine List.filter_congr fun part _ => ?_
  rw [Bool.eq_iff_iff, Bool.not_eq_true', ← Bool.not_eq_true, ← Text.isBlank_iff_all,
    decide_eq_true_iff, ne_eq, Text.trimChars, Text.strip_eq_nil_iff]
  rfl

theorem readIds_eq_ok_iff {ids : List Int64} :
    readIds name text = .ok ids ↔ List.Forall₂ IsId (parts text) ids := by
  rw [readIds, Except.mapM_eq_ok_iff]
  simp only [readId_eq_ok_iff]
  rfl

theorem readIds_eq_error_iff :
    readIds name text = .error fault ↔ Leftmost (fun part => ∃ id, IsId part id)
      (fun part => (∀ id, ¬ IsId part id) ∧ fault = .invalid name (.ofList part)) (parts text) := by
  rw [readIds, mapM_eq_error_iff]
  simp only [readId_eq_ok_iff, readId_eq_error_iff]
  rfl

/-- What a list of printed ids is written from is read of it. -/
theorem readIds_of_listing {ids : List Int64}
    (h : Text.Listing ',' (fun part id => Text.Padded (Decimal.printInt64 id) part) text ids) :
    readIds name text = .ok ids := by
  have hspelled : Text.Listing ',' Decimal.Spelled text ids := by
    obtain ⟨fs, htext, hfilled⟩ := h
    exact ⟨fs, htext, hfilled.imp fun part id hpadded =>
      ⟨_, hpadded, Decimal.numeral_printInt id.toInt⟩⟩
  have hitem : ∀ part, ',' ∉ part → ∀ id, readId name part = .ok id ↔ Decimal.Spelled part id :=
    fun _ _ _ => readId_eq_ok_iff.trans isId_iff_spelled
  exact (Text.mapM_entries_eq_ok_iff rfl (Decimal.whole_spelled (by decide)) hitem).2 hspelled

/-- A list of ids is read exactly when each of its parts is the numeral of one, and a part that is
none is named in the fault. -/
theorem ids_read_or_named (name : String) (text : List Char) :
    parts text = (text.splitOn ',').filter (fun part => Text.trimChars part ≠ []) ∧
    ((∃ ids, readIds name text = .ok ids) ↔ ∀ part ∈ parts text, ∃ i : Int,
      Numeral (Text.trimChars part) i ∧ -0x8000000000000000 ≤ i ∧ i ≤ 0x7fffffffffffffff) ∧
    (∀ ids, readIds name text = .ok ids ↔
      List.Forall₂ (fun part (id : Int64) => Numeral (Text.trimChars part) id.toInt)
        (parts text) ids) ∧
    (∀ fault, readIds name text = .error fault ↔ Leftmost (fun part => ∃ id, IsId part id)
      (fun part => (∀ id, ¬ IsId part id) ∧ fault = .invalid name (.ofList part)) (parts text)) ∧
    ∀ ids, Text.Listing ',' (fun part id => Text.Padded (Decimal.printInt64 id) part) text ids →
      readIds name text = .ok ids := by
  refine ⟨parts_eq text, ?read, fun _ => readIds_eq_ok_iff, fun _ => readIds_eq_error_iff,
    fun _ => readIds_of_listing⟩
  case read =>
    have hid : ∀ part, (∃ id, readId name part = .ok id) ↔ ∃ id, IsId part id :=
      fun _ => exists_congr fun _ => readId_eq_ok_iff
    simp only [← exists_isId_iff, ← hid]
    exact exists_mapM_iff

/-- With blanks, parts that are blank, and both ends of the range. -/
def untidyIds : String := " 9223372036854775807,,\t ,-9223372036854775808 ,5,5"

theorem ids_read_or_named_untidy :
    Text.Listing ',' (fun part id => Text.Padded (Decimal.printInt64 id) part) untidyIds.toList
      [Int64.maxValue, Int64.minValue, 5, 5] ∧
    readIds "gids" untidyIds.toList = .ok [Int64.maxValue, Int64.minValue, 5, 5] ∧
    readIds "gids" "7, 1-,9223372036854775808".toList = .error (.invalid "gids" " 1-") := by
  have hlisting : Text.Listing ',' (fun part id => Text.Padded (Decimal.printInt64 id) part)
      untidyIds.toList [Int64.maxValue, Int64.minValue, 5, 5] :=
    ⟨[" 9223372036854775807".toList, [], "\t ".toList, "-9223372036854775808 ".toList,
        ['5'], ['5']],
      by decide +kernel,
      .item ⟨[' '], [], by decide +kernel, by decide, nofun⟩ <|
      .blank (by decide) <| .blank (by decide) <|
      .item ⟨[], [' '], by decide +kernel, nofun, by decide⟩ <|
      .item ⟨[], [], by decide +kernel, nofun, nofun⟩ <|
      .item ⟨[], [], by decide +kernel, nofun, nofun⟩ .nil⟩
  have hseven : IsId ['7'] 7 := Decimal.readInt64_eq_ok_iff.1 rfl
  have hno : ∀ id, ¬ IsId " 1-".toList id := by
    have hread : Decimal.readInt64 (Text.trimChars " 1-".toList) = .error .invalidDigit := rfl
    exact fun id hid => nomatch hread.symm.trans (Decimal.readInt64_eq_ok_iff.2 hid)
  obtain ⟨-, -, -, -, hprinted⟩ := ids_read_or_named "gids" untidyIds.toList
  obtain ⟨-, -, -, hnamed, -⟩ := ids_read_or_named "gids" "7, 1-,9223372036854775808".toList
  refine ⟨hlisting, hprinted _ hlisting, (hnamed _).2
    ⟨[['7']], " 1-".toList, ["9223372036854775808".toList], by decide +kernel,
      List.forall_mem_singleton.2 ⟨7, hseven⟩, hno, rfl⟩⟩

end Switchboard.Gateway.Request
