import Mathlib.Data.List.Dedup
import Switchboard.Proofs.Tables
import Switchboard.Startup

/-!
# Targets — which logic nodes a gateway dials

A gateway has one worker for each of its targets, so a target that comes twice should count once. A
variable names targets between commas, with blanks around them and slashes at their ends; what is
left of them is not free of blanks in every case. A client takes targets as they are, and strips
the slashes only when it dials.
-/

namespace Switchboard

/-! ## 1. First occurrences -/

/-- The items of a list without repetitions, in the order in which they first occur. -/
structure FirstOccurrences {α : Type} [DecidableEq α] (xs ys : List α) : Prop where
  mem : ∀ x, x ∈ ys ↔ x ∈ xs
  order : ys.Pairwise fun x y => xs.idxOf x < xs.idxOf y

theorem FirstOccurrences.nodup {α : Type} [DecidableEq α] {xs ys : List α}
    (h : FirstOccurrences xs ys) : ys.Nodup :=
  h.order.imp fun hlt heq => absurd (heq ▸ hlt) (Nat.lt_irrefl _)

namespace Link

variable {targets : List String} {target : String}

theorem distinctTargets_concat (targets : List String) (target : String) :
    distinctTargets (targets ++ [target]) =
      if target ∈ distinctTargets targets then distinctTargets targets
      else distinctTargets targets ++ [target] := by
  rw [distinctTargets, List.foldl_append]
  rfl

theorem firstOccurrences_distinctTargets (targets : List String) :
    FirstOccurrences targets (distinctTargets targets) := by
  induction targets using List.reverseRecOn with
  | nil => exact ⟨fun _ => Iff.rfl, .nil⟩
  | append_singleton targets target ih =>
    -- a target that is added does not change where the earlier ones first occur
    have hidx : ∀ t ∈ distinctTargets targets,
        (targets ++ [target]).idxOf t = targets.idxOf t :=
      fun t ht => List.idxOf_append_of_mem ((ih.mem t).1 ht)
    have horder : (distinctTargets targets).Pairwise fun s t =>
        (targets ++ [target]).idxOf s < (targets ++ [target]).idxOf t := by
      refine ih.order.imp_of_mem fun hs ht hlt => ?_
      rwa [hidx _ hs, hidx _ ht]
    rw [distinctTargets_concat]
    split
    · next hin =>
      refine ⟨fun t => ?_, horder⟩
      rw [ih.mem, List.mem_append, List.mem_singleton]
      exact ⟨.inl, fun h => h.elim id fun h => h ▸ (ih.mem target).1 hin⟩
    · next hnew =>
      refine ⟨fun t => ?_, List.pairwise_append.2 ⟨horder, List.pairwise_singleton _ _, ?_⟩⟩
      · rw [List.mem_append, List.mem_append, ih.mem]
      · intro s hs t ht
        rw [List.mem_singleton.1 ht, hidx s hs,
          List.idxOf_append_of_notMem (mt (ih.mem target).2 hnew)]
        have hlt := List.idxOf_lt_length_iff.2 ((ih.mem s).1 hs)
        omega

theorem distinctTargets_sublist (targets : List String) :
    (distinctTargets targets).Sublist targets := by
  induction targets using List.reverseRecOn with
  | nil => exact .refl _
  | append_singleton targets target ih =>
    rw [distinctTargets_concat]
    split
    · exact ih.trans (List.sublist_append_left _ _)
    · exact ih.append (.refl _)

theorem distinctTargets_of_nodup (h : targets.Nodup) : distinctTargets targets = targets := by
  induction targets using List.reverseRecOn with
  | nil => rfl
  | append_singleton targets target ih =>
    obtain ⟨hbefore, -, hapart⟩ := List.nodup_append.1 h
    have hnew : target ∉ targets :=
      fun hin => hapart target hin target List.mem_cons_self rfl
    rw [distinctTargets_concat, ih hbefore, if_neg hnew]

end Link

namespace Config

open Text (IsBlank Padded Trimmed)

/-! ## 2. What is left of a part -/

variable {part : List Char} {target : List Char} {raw : String}

/-- All but blanks around it, and then slashes at its end, is left of the part. -/
def Leaves (part target : List Char) : Prop :=
  ∃ slashes, Padded (target ++ slashes) part ∧ Trimmed (target ++ slashes) ∧
    (∀ c ∈ slashes, c = '/') ∧ target.getLast? ≠ some '/'

/-- There is nothing but slashes, if that, with blanks around them. -/
def OnlySlashes (part : List Char) : Prop :=
  ∃ slashes, Padded slashes part ∧ ∀ c ∈ slashes, c = '/'

/-- Blanks around it aside, there is a blank right before the slashes at the end. -/
def Frayed (part : List Char) : Prop :=
  ∃ body c slashes, Padded (body ++ c :: slashes) part ∧ Trimmed (body ++ c :: slashes) ∧
    Text.isBlank c = true ∧ ∀ d ∈ slashes, d = '/'

theorem linkTarget_eq_iff : linkTarget part = target ↔ Leaves part target := by
  rw [linkTarget, Text.dropEndWhile_eq_rdropWhile, Text.rdropWhile_eq_iff]
  simp only [Text.trimChars_eq_iff, decide_eq_true_eq, decide_eq_false_iff_not]
  constructor
  · rintro ⟨slashes, ⟨hpadded, htrimmed⟩, hslashes, hlast⟩
    exact ⟨slashes, hpadded, htrimmed, hslashes, fun h => hlast '/' h rfl⟩
  · rintro ⟨slashes, hpadded, htrimmed, hslashes, hlast⟩
    exact ⟨slashes, ⟨hpadded, htrimmed⟩, hslashes, fun c hc h => hlast (h ▸ hc)⟩

theorem leaves_nil_iff : Leaves part [] ↔ OnlySlashes part := by
  constructor
  · rintro ⟨slashes, hpadded, -, hslashes, -⟩
    exact ⟨slashes, hpadded, hslashes⟩
  · rintro ⟨slashes, hpadded, hslashes⟩
    have hsolid : ∀ c ∈ slashes, Text.isBlank c = false := fun c hc => hslashes c hc ▸ rfl
    exact ⟨slashes, hpadded, ⟨fun c hc => hsolid c (List.mem_of_head? hc),
      fun c hc => hsolid c (List.mem_of_getLast? hc)⟩, hslashes, nofun⟩

/-- No blank is left in front. -/
theorem Leaves.head (h : Leaves part target) {c : Char} (hc : target.head? = some c) :
    Text.isBlank c = false := by
  obtain ⟨slashes, -, ⟨hhead, -⟩, -, -⟩ := h
  refine hhead c ?_
  rw [List.head?_append, hc]
  rfl

theorem Leaves.getLast (h : Leaves part target) : target.getLast? ≠ some '/' := by
  obtain ⟨slashes, -, -, -, hlast⟩ := h
  exact hlast

/-- What is left has a blank at its end where the part is frayed. -/
theorem Leaves.trimmed_iff (h : Leaves part target) : Trimmed target ↔ ¬ Frayed part := by
  constructor
  · rintro ⟨-, hlast⟩ ⟨body, c, slashes, hpadded, htrimmed, hblank, hslashes⟩
    have hc : c ≠ '/' := fun hc => absurd (hc ▸ hblank) (by decide)
    have hleaves : Leaves part (body ++ [c]) := by
      rw [← List.singleton_append, ← List.append_assoc] at hpadded htrimmed
      exact ⟨slashes, hpadded, htrimmed, hslashes, by simpa using hc⟩
    obtain rfl : target = body ++ [c] :=
      (linkTarget_eq_iff.2 h).symm.trans (linkTarget_eq_iff.2 hleaves)
    rw [hlast c (by simp)] at hblank
    cases hblank
  · intro hfrayed
    refine ⟨fun c => h.head, fun c hc => ?_⟩
    obtain ⟨slashes, hpadded, htrimmed, hslashes, -⟩ := h
    obtain ⟨body, rfl⟩ := List.getLast?_eq_some_iff.1 hc
    rw [List.append_assoc, List.singleton_append] at hpadded htrimmed
    exact Bool.eq_false_iff.2 fun hblank =>
      hfrayed ⟨body, c, slashes, hpadded, htrimmed, hblank, hslashes⟩

/-- A text without blanks at its ends or slashes at its end stays as it is, and no other does. -/
theorem linkTarget_eq_self_iff :
    linkTarget target = target ↔ Trimmed target ∧ target.getLast? ≠ some '/' := by
  rw [linkTarget_eq_iff]
  constructor
  · rintro ⟨slashes, ⟨front, back, heq, -, -⟩, htrimmed, -, hlast⟩
    have hlength := congrArg List.length heq
    simp only [List.length_append] at hlength
    obtain rfl : slashes = [] := List.eq_nil_of_length_eq_zero (by omega)
    rw [List.append_nil] at htrimmed
    exact ⟨htrimmed, hlast⟩
  · rintro ⟨htrimmed, hlast⟩
    refine ⟨[], ?_, ?_, nofun, hlast⟩
    · exact ⟨[], [], by simp, nofun, nofun⟩
    · rwa [List.append_nil]

/-! ## 3. The targets of a variable -/

/-- The texts that the parts leave, in their order. -/
def textsOf (raw : String) : List String :=
  (Text.fields ',' raw.toList).map fun part => .ofList (linkTarget part)

theorem readTargets_eq (raw : String) :
    readTargets raw = Link.distinctTargets ((textsOf raw).filter (· ≠ "")) := by
  rw [Link.distinctTargets, List.foldl_filter, textsOf, List.foldl_map, readTargets]
  congr 1
  funext targets part
  by_cases hempty : String.ofList (linkTarget part) = "" <;> simp [hempty]

theorem firstOccurrences_readTargets (raw : String) :
    FirstOccurrences ((textsOf raw).filter (· ≠ "")) (readTargets raw) := by
  rw [readTargets_eq]
  exact Link.firstOccurrences_distinctTargets _

theorem mem_readTargets_iff {t : String} :
    t ∈ readTargets raw ↔ ∃ part ∈ Text.fields ',' raw.toList, ¬ OnlySlashes part ∧
      Leaves part t.toList := by
  rw [(firstOccurrences_readTargets raw).mem, List.mem_filter, textsOf, List.mem_map,
    decide_eq_true_eq]
  constructor
  · rintro ⟨⟨part, hpart, rfl⟩, hne⟩
    refine ⟨part, hpart, fun honly => hne ?_, linkTarget_eq_iff.1 String.toList_ofList.symm⟩
    rw [linkTarget_eq_iff.2 (leaves_nil_iff.2 honly), String.ofList_nil]
  · rintro ⟨part, hpart, honly, hleaves⟩
    refine ⟨⟨part, hpart, ?_⟩, ?_⟩
    · rw [linkTarget_eq_iff.2 hleaves, String.ofList_toList]
    · rintro rfl
      exact honly (leaves_nil_iff.1 hleaves)

theorem comma_of_mem_readTargets {t : String} (h : t ∈ readTargets raw) : ',' ∉ t.toList := by
  obtain ⟨part, hpart, -, slashes, hpadded, -⟩ := mem_readTargets_iff.1 h
  exact fun hin => Text.not_mem_of_mem_fields hpart (hpadded.subset (List.mem_append_left _ hin))

theorem textsOf_intercalate {ts : List String} (hcomma : ∀ t ∈ ts, ',' ∉ t.toList)
    (hne : ts ≠ []) :
    textsOf (",".intercalate ts) = ts.map fun t => .ofList (linkTarget t.toList) := by
  have hfields : Text.fields ',' (",".intercalate ts).toList = ts.map String.toList := by
    rw [String.toList_intercalate]
    exact Text.fields_intercalate (List.forall_mem_map.2 hcomma) (List.map_eq_nil_iff.not.2 hne)
  rw [textsOf, hfields, List.map_map]
  rfl

/-- Reading the targets again changes none exactly when none has a blank at an end. -/
theorem reread_eq_iff : readTargets (",".intercalate (readTargets raw)) = readTargets raw ↔
    ∀ t ∈ readTargets raw, Trimmed t.toList := by
  by_cases hne : readTargets raw = []
  · rw [hne]
    exact ⟨fun _ => nofun, fun _ => rfl⟩
  have htexts := textsOf_intercalate (fun _ => comma_of_mem_readTargets) hne
  constructor
  · intro h t ht
    -- as many are left, so the second reading dropped none
    have hsublist : (readTargets raw).Sublist (textsOf (",".intercalate (readTargets raw))) := by
      nth_rewrite 1 [← h]
      rw [readTargets_eq (",".intercalate (readTargets raw))]
      exact (Link.distinctTargets_sublist _).trans List.filter_sublist
    rw [htexts] at hsublist
    have hsame := hsublist.eq_of_length (List.length_map _).symm
    have hself : String.ofList (linkTarget t.toList) = t :=
      List.map_inj_left.1 (hsame.symm.trans (List.map_id _).symm) t ht
    rw [← String.toList_inj, String.toList_ofList] at hself
    exact (linkTarget_eq_self_iff.1 hself).1
  · intro h
    have hself : ∀ t ∈ readTargets raw, String.ofList (linkTarget t.toList) = t := fun t ht => by
      obtain ⟨part, -, -, slashes, -, -, -, hlast⟩ := mem_readTargets_iff.1 ht
      rw [linkTarget_eq_self_iff.2 ⟨h t ht, hlast⟩, String.ofList_toList]
    have hsolid : ∀ t ∈ readTargets raw, decide (t ≠ "") = true := fun t ht =>
      (List.mem_filter.1 ((firstOccurrences_readTargets raw).mem t |>.1 ht)).2
    rw [readTargets_eq (",".intercalate (readTargets raw)), htexts, List.map_congr_left hself,
      List.map_id', List.filter_eq_self.2 hsolid]
    exact Link.distinctTargets_of_nodup (firstOccurrences_readTargets raw).nodup

theorem forall_trimmed_iff : (∀ t ∈ readTargets raw, Trimmed t.toList) ↔
    ∀ part ∈ Text.fields ',' raw.toList, ¬ Frayed part := by
  constructor
  · intro h part hpart hfrayed
    have hleaves : Leaves part (String.ofList (linkTarget part)).toList :=
      linkTarget_eq_iff.1 String.toList_ofList.symm
    have huntrimmed := mt hleaves.trimmed_iff.1 (not_not.2 hfrayed)
    refine huntrimmed (h _ (mem_readTargets_iff.2 ⟨part, hpart, fun honly => ?_, hleaves⟩))
    -- nothing would be left, and that is without blanks
    rw [linkTarget_eq_iff.2 (leaves_nil_iff.2 honly)] at huntrimmed
    exact huntrimmed ⟨nofun, nofun⟩
  · intro h t ht
    obtain ⟨part, hpart, -, hleaves⟩ := mem_readTargets_iff.1 ht
    exact hleaves.trimmed_iff.2 (h part hpart)

/-- The targets are what is left of the parts, each where it first occurs. Two are never the same,
and none is empty, begins with a blank or ends with a slash; but one ends with a blank, and is not
the same when it is read again, exactly when some part has a blank right before its slashes. -/
theorem targets_canonical_iff (raw : String) :
    (∀ t ∈ readTargets raw, t ≠ "" ∧ ',' ∉ t.toList ∧ t.toList.getLast? ≠ some '/' ∧
      ∀ c, t.toList.head? = some c → Text.isBlank c = false) ∧
    (readTargets raw).Nodup ∧
    (∀ t, t ∈ readTargets raw ↔
      ∃ part ∈ raw.toList.splitOn ',', ¬ OnlySlashes part ∧ Leaves part t.toList) ∧
    (∃ texts, List.Forall₂ (fun part text => Leaves part text.toList)
        (raw.toList.splitOn ',') texts ∧
      FirstOccurrences (texts.filter (· ≠ "")) (readTargets raw)) ∧
    ((∀ t ∈ readTargets raw, Trimmed t.toList) ↔
      ∀ part ∈ raw.toList.splitOn ',', ¬ Frayed part) ∧
    (readTargets (",".intercalate (readTargets raw)) = readTargets raw ↔
      ∀ part ∈ raw.toList.splitOn ',', ¬ Frayed part) := by
  have hfirst := firstOccurrences_readTargets raw
  rw [← Text.fields_eq_splitOn]
  refine ⟨fun t ht => ?clean, hfirst.nodup, fun _ => mem_readTargets_iff,
    ⟨textsOf raw, ?texts, hfirst⟩, forall_trimmed_iff, reread_eq_iff.trans forall_trimmed_iff⟩
  case clean =>
    have hne : t ≠ "" := of_decide_eq_true (List.mem_filter.1 ((hfirst.mem t).1 ht)).2
    obtain ⟨part, -, -, hleaves⟩ := mem_readTargets_iff.1 ht
    exact ⟨hne, comma_of_mem_readTargets ht, hleaves.getLast, fun _ => hleaves.head⟩
  case texts =>
    rw [textsOf, List.forall₂_map_right_iff, List.forall₂_same]
    exact fun part _ => linkTarget_eq_iff.1 String.toList_ofList.symm

/-- Blanks and slashes around a node that is named twice, another node, and a part without one. -/
def untidyTargets : String := " ws://logic-1:39099//,ws://logic-2:39099, / ,ws://logic-1:39099 "

theorem targets_canonical_iff_untidy :
    "ws://logic-1:39099" ∈ readTargets untidyTargets ∧
    "ws://logic-1:39099".toList.getLast? ≠ some '/' ∧
    readTargets untidyTargets = ["ws://logic-1:39099", "ws://logic-2:39099"] ∧
    ∀ part ∈ untidyTargets.toList.splitOn ',', ¬ Frayed part := by
  obtain ⟨hclean, -, -, -, -, hreread⟩ := targets_canonical_iff untidyTargets
  have hmem : "ws://logic-1:39099" ∈ readTargets untidyTargets := by decide +kernel
  exact ⟨hmem, (hclean _ hmem).2.2.1, by decide +kernel, hreread.1 (by decide +kernel)⟩

/-- A blank is left where the slashes were, so a node counts twice, and read again only once. -/
theorem target_left_with_blank :
    readTargets "ws://logic-1:39099 /,ws://logic-1:39099" =
      ["ws://logic-1:39099 ", "ws://logic-1:39099"] ∧
    ¬ (∀ t ∈ readTargets "ws://logic-1:39099 /,ws://logic-1:39099", Text.trim t = t) ∧
    readTargets (",".intercalate (readTargets "ws://logic-1:39099 /,ws://logic-1:39099")) ≠
      readTargets "ws://logic-1:39099 /,ws://logic-1:39099" := by
  decide +kernel

end Config

end Switchboard
