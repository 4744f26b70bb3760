import Mathlib.Algebra.Group.Nat.Defs
import Mathlib.Data.List.Induction
import Switchboard.Session.Id

/-!
# Id — time-ordered ids grow whatever the clock does

An id is a time above a sequence number, so ids are in order when the pairs are. Each call takes a
later time with the number zero, or the next number of the time last used; when these are used up it
waits for a reading past that time. Hence the time of an id is the latest that was read until then.
-/

namespace Switchboard.Session.Snowflake

variable {s t : Snowflake} {now last : UInt64} {clock rest : List UInt64}

/-! ## 1. A time above a sequence number -/

/-- The time leaves room for the sequence number, which keeps to its twelve bits. -/
structure InRange (s : Snowflake) : Prop where
  timestamp : s.timestamp.toNat < 2 ^ 52
  sequence : s.sequence ≤ serialMask

theorem zero_le_mask : (0 : UInt64) ≤ serialMask := by decide

theorem InRange.toNat_sequence (h : s.InRange) : s.sequence.toNat < 2 ^ 12 := by
  have hle : s.sequence.toNat ≤ 4095 := UInt64.le_iff_toNat_le.1 h.sequence
  omega

theorem toNat_id (h : s.InRange) : s.id.toNat = s.timestamp.toNat * 2 ^ 12 + s.sequence.toNat := by
  have htime := h.timestamp
  have hshift : s.timestamp.toNat <<< 12 % 2 ^ 64 = s.timestamp.toNat <<< 12 := by
    rw [Nat.shiftLeft_eq]
    exact Nat.mod_eq_of_lt (by omega)
  show (s.timestamp <<< serialBits ||| s.sequence).toNat = _
  rw [UInt64.toNat_or, UInt64.toNat_shiftLeft]
  show s.timestamp.toNat <<< 12 % 2 ^ 64 ||| s.sequence.toNat = _
  rw [hshift, ← Nat.shiftLeft_add_eq_or_of_lt h.toNat_sequence, Nat.shiftLeft_eq]

theorem id_shiftRight (h : s.InRange) : s.id >>> serialBits = s.timestamp := by
  have hsequence := h.toNat_sequence
  apply UInt64.toNat_inj.1
  rw [UInt64.toNat_shiftRight, toNat_id h]
  show (s.timestamp.toNat * 2 ^ 12 + s.sequence.toNat) >>> 12 = _
  rw [Nat.shiftRight_eq_div_pow]
  omega

theorem id_and_mask (h : s.InRange) : s.id &&& serialMask = s.sequence := by
  have hsequence := h.toNat_sequence
  apply UInt64.toNat_inj.1
  rw [UInt64.toNat_and, toNat_id h]
  show (s.timestamp.toNat * 2 ^ 12 + s.sequence.toNat) &&& (2 ^ 12 - 1) = _
  rw [Nat.and_two_pow_sub_one_eq_mod]
  omega

/-- Times count first, and sequence numbers within one time. -/
def Before (s t : Snowflake) : Prop :=
  s.timestamp < t.timestamp ∨ s.timestamp = t.timestamp ∧ s.sequence < t.sequence

theorem Before.trans {u : Snowflake} (h : s.Before t) (h' : t.Before u) : s.Before u := by
  rcases h with hlt | ⟨heq, hlt⟩ <;> rcases h' with hlt' | ⟨heq', hlt'⟩
  · exact .inl (UInt64.lt_trans hlt hlt')
  · exact .inl (heq' ▸ hlt)
  · exact .inl (heq ▸ hlt')
  · exact .inr ⟨heq.trans heq', UInt64.lt_trans hlt hlt'⟩

theorem Before.timestamp_le (h : s.Before t) : s.timestamp ≤ t.timestamp := by
  rcases h with hlt | ⟨heq, -⟩
  · exact UInt64.le_of_lt hlt
  · exact UInt64.le_of_eq heq

theorem Before.id_lt (h : s.Before t) (hs : s.InRange) (ht : t.InRange) : s.id < t.id := by
  have hsequence := hs.toNat_sequence
  rw [UInt64.lt_iff_toNat_lt, toNat_id hs, toNat_id ht]
  rcases h with hlt | ⟨heq, hlt⟩
  · have htime := UInt64.lt_iff_toNat_lt.1 hlt
    omega
  · have htime := congrArg UInt64.toNat heq
    have hnumber := UInt64.lt_iff_toNat_lt.1 hlt
    omega

/-! ## 2. Readings -/

/-- The latest time among the readings, or `start` if none is later. -/
def latest (start : UInt64) (readings : List UInt64) : UInt64 :=
  readings.foldl (fun time now => max time (sinceEpoch now)) start

theorem latest_append (start : UInt64) (readings more : List UInt64) :
    latest start (readings ++ more) = latest (latest start readings) more :=
  List.foldl_append

theorem latest_of_le {start : UInt64} {readings : List UInt64}
    (h : ∀ now ∈ readings, sinceEpoch now ≤ start) : latest start readings = start := by
  induction readings with
  | nil => rfl
  | cons now readings ih =>
    have hnow : max start (sinceEpoch now) = start := by
      apply UInt64.toNat_inj.1
      rw [UInt64.toNat_max]
      exact Nat.max_eq_left (UInt64.le_iff_toNat_le.1 (h now List.mem_cons_self))
    rw [latest, List.foldl_cons, hnow]
    exact ih fun later hlater => h later (List.mem_cons_of_mem _ hlater)

theorem latest_of_lt {start : UInt64} (h : start < sinceEpoch now) :
    latest start [now] = sinceEpoch now := by
  apply UInt64.toNat_inj.1
  show (max start (sinceEpoch now)).toNat = _
  rw [UInt64.toNat_max]
  exact Nat.max_eq_right (Nat.le_of_lt (UInt64.lt_iff_toNat_lt.1 h))

/-- A wait skips the readings up to the time last used. -/
theorem of_awaitAfter {time : UInt64} (h : awaitAfter last clock = some (time, rest)) :
    ∃ skipped later, clock = skipped ++ later :: rest ∧ (∀ now ∈ skipped, sinceEpoch now ≤ last) ∧
      last < sinceEpoch later ∧ time = sinceEpoch later := by
  induction clock with
  | nil => cases h
  | cons now clock ih =>
    rw [awaitAfter] at h
    split at h
    · next hlater =>
      obtain ⟨rfl, rfl⟩ := Prod.mk.inj (Option.some.inj h)
      exact ⟨[], now, rfl, nofun, hlater, rfl⟩
    · next hearly =>
      obtain ⟨skipped, later, rfl, hskipped, hlater⟩ := ih h
      exact ⟨now :: skipped, later, rfl,
        List.forall_mem_cons.2 ⟨UInt64.not_lt.1 hearly, hskipped⟩, hlater⟩

theorem exists_awaitAfter (h : ∃ later ∈ clock, last < sinceEpoch later) :
    ∃ found, awaitAfter last clock = some found := by
  induction clock with
  | nil =>
    obtain ⟨later, hmem, -⟩ := h
    cases hmem
  | cons now clock ih =>
    rw [awaitAfter]
    split
    · exact ⟨_, rfl⟩
    · next hearly =>
      obtain ⟨later, hmem, hlater⟩ := h
      rcases List.mem_cons.1 hmem with rfl | hin
      · exact absurd hlater hearly
      · exact ih ⟨later, hin, hlater⟩

/-! ## 3. One id -/

/-- The readings that one call takes, and the state that it leaves. -/
inductive Takes (s : Snowflake) : List UInt64 → Snowflake → Prop
  | later {now : UInt64} (hlater : s.timestamp < sinceEpoch now) :
      Takes s [now] ⟨sinceEpoch now, 0⟩
  | held {now : UInt64} (hearly : sinceEpoch now ≤ s.timestamp) (hroom : s.sequence < serialMask) :
      Takes s [now] ⟨s.timestamp, s.sequence + 1⟩
  | waited {now later : UInt64} {skipped : List UInt64} (hearly : sinceEpoch now ≤ s.timestamp)
      (hfull : s.sequence = serialMask) (hskipped : ∀ r ∈ skipped, sinceEpoch r ≤ s.timestamp)
      (hlater : s.timestamp < sinceEpoch later) :
      Takes s (now :: skipped ++ [later]) ⟨sinceEpoch later, 0⟩

theorem toNat_succ (h : s.sequence ≤ serialMask) :
    (s.sequence + 1).toNat = s.sequence.toNat + 1 := by
  have hle : s.sequence.toNat ≤ 4095 := UInt64.le_iff_toNat_le.1 h
  rw [UInt64.toNat_add, UInt64.toNat_one]
  exact Nat.mod_eq_of_lt (by omega)

/-- The sequence number after this one, which is zero once all twelve bits are used up. -/
theorem succ_and_mask (h : s.sequence ≤ serialMask) :
    (s.sequence + 1) &&& serialMask = if s.sequence = serialMask then 0 else s.sequence + 1 := by
  have hle : s.sequence.toNat ≤ 4095 := UInt64.le_iff_toNat_le.1 h
  apply UInt64.toNat_inj.1
  rw [UInt64.toNat_and, toNat_succ h]
  show (s.sequence.toNat + 1) &&& (2 ^ 12 - 1) = _
  rw [Nat.and_two_pow_sub_one_eq_mod]
  split
  · next hfull =>
    rw [hfull]
    rfl
  · next hroom =>
    have hne : s.sequence.toNat ≠ 4095 := fun heq => hroom (UInt64.toNat_inj.1 heq)
    rw [toNat_succ h]
    omega

theorem succ_ne_zero (h : s.sequence < serialMask) : s.sequence + 1 ≠ 0 := by
  intro hzero
  have hsucc := toNat_succ (UInt64.le_of_lt h)
  rw [hzero] at hsucc
  cases hsucc

/-- A reading is past the time last used, or the clock is held at that time. -/
theorem max_sinceEpoch_eq_iff :
    max (sinceEpoch now) s.timestamp = s.timestamp ↔ sinceEpoch now ≤ s.timestamp := by
  rw [← UInt64.toNat_inj, UInt64.toNat_max, UInt64.le_iff_toNat_le]
  omega

theorem max_sinceEpoch_of_lt (h : s.timestamp < sinceEpoch now) :
    max (sinceEpoch now) s.timestamp = sinceEpoch now := by
  have htime := UInt64.lt_iff_toNat_lt.1 h
  apply UInt64.toNat_inj.1
  rw [UInt64.toNat_max]
  omega

theorem takes_of_next (hs : s.sequence ≤ serialMask) (h : s.next clock = some (t, rest)) :
    ∃ readings, clock = readings ++ rest ∧ s.Takes readings t := by
  cases clock with
  | nil => cases h
  | cons now clock =>
    rw [next] at h
    simp only [max_sinceEpoch_eq_iff, succ_and_mask hs] at h
    by_cases hearly : sinceEpoch now ≤ s.timestamp
    · rw [if_pos hearly] at h
      by_cases hfull : s.sequence = serialMask
      · -- the numbers of this time are used up
        rw [if_pos hfull, if_pos rfl] at h
        obtain ⟨⟨time, left⟩, hwait, heq⟩ := Option.map_eq_some_iff.1 h
        obtain ⟨rfl, rfl⟩ := Prod.mk.inj heq
        obtain ⟨skipped, later, rfl, hskipped, hlater, rfl⟩ := of_awaitAfter hwait
        exact ⟨now :: skipped ++ [later], by simp, .waited hearly hfull hskipped hlater⟩
      · have hroom : s.sequence < serialMask := UInt64.lt_of_le_of_ne hs hfull
        rw [if_neg hfull, if_neg (succ_ne_zero hroom), max_sinceEpoch_eq_iff.2 hearly] at h
        obtain ⟨rfl, rfl⟩ := Prod.mk.inj (Option.some.inj h)
        exact ⟨[now], rfl, .held hearly hroom⟩
    · have hlater := UInt64.not_le.1 hearly
      rw [if_neg hearly, max_sinceEpoch_of_lt hlater] at h
      obtain ⟨rfl, rfl⟩ := Prod.mk.inj (Option.some.inj h)
      exact ⟨[now], rfl, .later hlater⟩

-- the readings of a wait: held back, not past the time last used, and then past it
example : next ⟨5, 4095⟩ [epoch + 4, epoch + 5, epoch, epoch + 7, epoch] =
    some (⟨7, 0⟩, [epoch]) := by decide

/-- A call returns when there is a reading, and one past the time last used if it has to wait. -/
theorem exists_next (hs : s.sequence ≤ serialMask)
    (hwait : sinceEpoch now ≤ s.timestamp → s.sequence = serialMask →
      ∃ later ∈ rest, s.timestamp < sinceEpoch later) :
    ∃ found, s.next (now :: rest) = some found := by
  rw [next]
  simp only [max_sinceEpoch_eq_iff, succ_and_mask hs]
  split
  · next hearly =>
    by_cases hfull : s.sequence = serialMask
    · obtain ⟨found, hfound⟩ := exists_awaitAfter (hwait hearly hfull)
      rw [if_pos hfull, if_pos rfl, hfound]
      exact ⟨_, rfl⟩
    · rw [if_neg hfull, if_neg (succ_ne_zero (UInt64.lt_of_le_of_ne hs hfull))]
      exact ⟨_, rfl⟩
  · exact ⟨_, rfl⟩

namespace Takes

variable {readings : List UInt64}

theorem before (h : s.Takes readings t) : s.Before t := by
  cases h with
  | later hlater => exact .inl hlater
  | held hearly hroom =>
    refine .inr ⟨rfl, UInt64.lt_iff_toNat_lt.2 ?_⟩
    show s.sequence.toNat < (s.sequence + 1).toNat
    rw [toNat_succ (UInt64.le_of_lt hroom)]
    exact Nat.lt_succ_self _
  | waited _ _ _ hlater => exact .inl hlater

theorem timestamp_eq (h : s.Takes readings t) : t.timestamp = latest s.timestamp readings := by
  cases h with
  | later hlater => exact (latest_of_lt hlater).symm
  | held hearly =>
    exact (latest_of_le (List.forall_mem_singleton.2 hearly)).symm
  | waited hearly _ hskipped hlater =>
    rw [latest_append, latest_of_le (List.forall_mem_cons.2 ⟨hearly, hskipped⟩)]
    exact (latest_of_lt hlater).symm

theorem inRange (h : s.Takes readings t) (hs : s.InRange)
    (hspan : ∀ now ∈ readings, (sinceEpoch now).toNat < 2 ^ 52) : t.InRange := by
  cases h with
  | later => exact ⟨hspan _ List.mem_cons_self, zero_le_mask⟩
  | held _ hroom =>
    refine ⟨hs.timestamp, UInt64.le_iff_toNat_le.2 ?_⟩
    show (s.sequence + 1).toNat ≤ _
    rw [toNat_succ (UInt64.le_of_lt hroom)]
    exact UInt64.lt_iff_toNat_lt.1 hroom
  | waited => exact ⟨hspan _ (List.mem_append_right _ List.mem_cons_self), zero_le_mask⟩

/-- A time that was not the last one used starts with the number zero. -/
theorem sequence_eq_zero (h : s.Takes readings t) (hnew : s.timestamp ≠ t.timestamp) :
    t.sequence = 0 := by
  cases h with
  | later => rfl
  | held => exact absurd rfl hnew
  | waited => rfl

end Takes

/-! ## 4. Many ids -/

/-- The readings last for so many ids: each call finds one, and each wait one past the time last
used. -/
def Lasts (s : Snowflake) (clock : List UInt64) : Nat → Prop
  | 0 => True
  | n + 1 =>
    (∃ now ∈ clock.head?, sinceEpoch now ≤ s.timestamp → s.sequence = serialMask →
      ∃ later ∈ clock.tail, s.timestamp < sinceEpoch later) ∧
    ∀ found ∈ s.next clock, found.1.Lasts found.2 n

instance decidableLasts : ∀ (n : Nat) (s : Snowflake) (clock : List UInt64),
    Decidable (s.Lasts clock n)
  | 0, _, _ => .isTrue trivial
  | n + 1, s, clock =>
    -- over the readings that there are, not over all words
    have : Decidable (∃ later ∈ clock.tail, s.timestamp < sinceEpoch later) :=
      List.decidableBEx _ _
    have : Decidable (∃ now ∈ clock.head?, sinceEpoch now ≤ s.timestamp →
        s.sequence = serialMask → ∃ later ∈ clock.tail, s.timestamp < sinceEpoch later) :=
      Option.decidableExistsMem _
    have : ∀ found : Snowflake × List UInt64, Decidable (found.1.Lasts found.2 n) :=
      fun found => decidableLasts n found.1 found.2
    inferInstanceAs (Decidable (_ ∧ _))

/-- The readings left after so many ids. -/
def left (s : Snowflake) (clock : List UInt64) : Nat → List UInt64
  | 0 => clock
  | n + 1 =>
    match s.next clock with
    | none => clock
    | some (s, clock) => s.left clock n

section Runs

variable {n i : Nat}

theorem left_succ (h : s.next clock = some (t, rest)) :
    s.left clock (i + 1) = t.left rest i := by rw [left, h]

theorem take_succ (h : s.next clock = some (t, rest)) :
    s.take clock (n + 1) = t :: t.take rest n := by rw [take, h]

theorem take_of_none (h : s.next clock = none) : s.take clock n = [] := by
  cases n with
  | zero => rfl
  | succ n => rw [take, h]

/-- The first id that was taken came from the first call. -/
theorem exists_next_of_take {more : List Snowflake} (h : s.take clock n = t :: more) :
    ∃ rest m, s.next clock = some (t, rest) ∧ more = t.take rest m := by
  cases n with
  | zero => cases h
  | succ n =>
    cases hnext : s.next clock with
    | none => cases (take_of_none hnext).symm.trans h
    | some found =>
      obtain ⟨u, rest⟩ := found
      obtain ⟨rfl, hmore⟩ := List.cons.inj ((take_succ hnext).symm.trans h)
      exact ⟨rest, n, rfl, hmore.symm⟩

/-- A call that returns takes some of the readings, and leaves the generator in range. -/
theorem InRange.next (hs : s.InRange) (hspan : ∀ now ∈ clock, (sinceEpoch now).toNat < 2 ^ 52)
    (h : s.next clock = some (t, rest)) : ∃ readings, clock = readings ++ rest ∧
      s.Takes readings t ∧ t.InRange ∧ ∀ now ∈ rest, (sinceEpoch now).toNat < 2 ^ 52 := by
  obtain ⟨readings, rfl, htakes⟩ := takes_of_next hs.sequence h
  exact ⟨readings, rfl, htakes,
    htakes.inRange hs fun now hnow => hspan now (List.mem_append_left _ hnow),
    fun now hnow => hspan now (List.mem_append_right _ hnow)⟩

theorem length_take (hs : s.InRange) (hlasts : s.Lasts clock n)
    (hspan : ∀ now ∈ clock, (sinceEpoch now).toNat < 2 ^ 52) : (s.take clock n).length = n := by
  induction n generalizing s clock with
  | zero => rfl
  | succ n ih =>
    obtain ⟨⟨now, hhead, hwait⟩, hmore⟩ := hlasts
    obtain ⟨rest, rfl⟩ := List.head?_eq_some_iff.1 hhead
    obtain ⟨⟨t, left⟩, hnext⟩ := exists_next hs.sequence hwait
    rw [List.tail_cons] at hnext
    obtain ⟨readings, -, -, ht, hleft⟩ := hs.next hspan hnext
    rw [take_succ hnext, List.length_cons, ih ht (hmore (t, left) hnext) hleft]

/-- Every state of a run is in range and comes after all states before it. -/
theorem ascending_take (hs : s.InRange) (hspan : ∀ now ∈ clock, (sinceEpoch now).toNat < 2 ^ 52)
    (n : Nat) : (s :: s.take clock n).Pairwise Before ∧ ∀ t ∈ s.take clock n, t.InRange := by
  -- on the number of ids, from the state that the first of them leaves
  induction n generalizing s clock with
  | zero => exact ⟨List.pairwise_singleton _ _, nofun⟩
  | succ n ih =>
    cases hnext : s.next clock with
    | none =>
      rw [take_of_none hnext]
      exact ⟨List.pairwise_singleton _ _, nofun⟩
    | some found =>
      obtain ⟨t, left⟩ := found
      obtain ⟨readings, -, htakes, ht, hleft⟩ := hs.next hspan hnext
      obtain ⟨hascending, hrange⟩ := ih ht hleft
      have hafter : ∀ u ∈ t.take left n, s.Before u := fun u hu =>
        htakes.before.trans ((List.pairwise_cons.1 hascending).1 u hu)
      rw [take_succ hnext]
      exact ⟨List.pairwise_cons.2 ⟨List.forall_mem_cons.2 ⟨htakes.before, hafter⟩, hascending⟩,
        List.forall_mem_cons.2 ⟨ht, hrange⟩⟩

theorem exists_seen (hs : s.InRange) (hspan : ∀ now ∈ clock, (sinceEpoch now).toNat < 2 ^ 52)
    (n : Nat) : ∃ seen, seen ++ s.left clock n = clock := by
  induction n generalizing s clock with
  | zero => exact ⟨[], rfl⟩
  | succ n ih =>
    cases hnext : s.next clock with
    | none =>
      rw [left, hnext]
      exact ⟨[], rfl⟩
    | some found =>
      obtain ⟨t, left⟩ := found
      obtain ⟨readings, rfl, -, ht, hleft⟩ := hs.next hspan hnext
      obtain ⟨seen, hseen⟩ := ih ht hleft
      exact ⟨readings ++ seen, by rw [left_succ hnext, List.append_assoc, hseen]⟩

/-- The time of an id is the latest that was read until then. -/
theorem timestamp_eq_latest (hs : s.InRange)
    (hspan : ∀ now ∈ clock, (sinceEpoch now).toNat < 2 ^ 52)
    (hget : (s.take clock n)[i]? = some t) {seen : List UInt64}
    (hseen : seen ++ s.left clock (i + 1) = clock) : t.timestamp = latest s.timestamp seen := by
  -- on the place of the id: the calls before it have read a part of what was seen
  induction i generalizing s clock n seen with
  | zero =>
    obtain ⟨more, htake⟩ := List.head?_eq_some_iff.1 (List.head?_eq_getElem?.trans hget)
    obtain ⟨rest, -, hnext, -⟩ := exists_next_of_take htake
    obtain ⟨readings, rfl, htakes, -⟩ := hs.next hspan hnext
    rw [left_succ hnext] at hseen
    obtain rfl : seen = readings := List.append_cancel_right hseen
    exact htakes.timestamp_eq
  | succ i ih =>
    cases htake : s.take clock n with
    | nil =>
      rw [htake] at hget
      cases hget
    | cons u more =>
      obtain ⟨rest, m, hnext, rfl⟩ := exists_next_of_take htake
      obtain ⟨readings, rfl, htakes, hu, hrest⟩ := hs.next hspan hnext
      obtain ⟨later, hlater⟩ := exists_seen hu hrest (i + 1)
      have hsplit : seen ++ u.left rest (i + 1) = readings ++ later ++ u.left rest (i + 1) := by
        rw [List.append_assoc, hlater, ← left_succ hnext]
        exact hseen
      obtain rfl := List.append_cancel_right hsplit
      rw [htake] at hget
      rw [latest_append, ← htakes.timestamp_eq]
      exact ih hu hrest hget hlater

/-- The first id of a time that no earlier state had has the number zero. -/
theorem sequence_eq_zero_of_new (hs : s.InRange)
    (hspan : ∀ now ∈ clock, (sinceEpoch now).toNat < 2 ^ 52) {earlier more : List Snowflake}
    (htake : s.take clock n = earlier ++ t :: more)
    (hnew : ∀ u ∈ s :: earlier, u.timestamp ≠ t.timestamp) : t.sequence = 0 := by
  induction earlier generalizing s clock n with
  | nil =>
    obtain ⟨rest, -, hnext, -⟩ := exists_next_of_take htake
    obtain ⟨readings, -, htakes, -⟩ := hs.next hspan hnext
    exact htakes.sequence_eq_zero (hnew s List.mem_cons_self)
  | cons u earlier ih =>
    obtain ⟨rest, m, hnext, hrest⟩ := exists_next_of_take htake
    obtain ⟨readings, -, -, hu, hleft⟩ := hs.next hspan hnext
    exact ih hu hleft hrest.symm fun v hv => hnew v (List.mem_cons_of_mem _ hv)

end Runs

theorem inRange_new : ({} : Snowflake).InRange := ⟨by decide, by decide⟩

/-- A new generator gives out as many ids as the readings last for. They ascend, and so do their
times, which stand in their high bits above the sequence numbers. The time of each is the latest
that was read until then, or zero if the clock was never past the epoch, and the first id of a later
millisecond has the number zero. -/
theorem ids_ascend (clock : List UInt64) (n : Nat) (hlasts : Lasts {} clock n)
    (hspan : ∀ now ∈ clock, (sinceEpoch now).toNat < 2 ^ 52) :
    (take {} clock n).length = n ∧
    ((take {} clock n).map id).Pairwise (· < ·) ∧
    ((take {} clock n).map timestamp).Pairwise (· ≤ ·) ∧
    (∀ s ∈ take {} clock n, s.id >>> 12 = s.timestamp ∧ s.id &&& 0xfff = s.sequence) ∧
    (∀ i, ∃ seen, seen ++ left {} clock i = clock) ∧
    (∀ i s, (take {} clock n)[i]? = some s → ∀ seen, seen ++ left {} clock (i + 1) = clock →
      s.timestamp = latest 0 seen) ∧
    (∀ earlier s more, take {} clock n = earlier ++ s :: more → s.timestamp ≠ 0 →
      (∀ t ∈ earlier, t.timestamp ≠ s.timestamp) → s.sequence = 0) := by
  obtain ⟨hpairwise, hrange⟩ := ascending_take inRange_new hspan n
  have hascending := (List.pairwise_cons.1 hpairwise).2
  refine ⟨length_take inRange_new hlasts hspan, ?_, ?_, fun s hs => ?_,
    exists_seen inRange_new hspan, fun i s hget seen => timestamp_eq_latest inRange_new hspan hget,
    fun earlier s more htake hlater hnew => ?_⟩
  · refine List.pairwise_map.2 (hascending.imp_of_mem fun hs ht hbefore => ?_)
    exact hbefore.id_lt (hrange _ hs) (hrange _ ht)
  · exact List.pairwise_map.2 (hascending.imp Before.timestamp_le)
  · exact ⟨id_shiftRight (hrange s hs), id_and_mask (hrange s hs)⟩
  · exact sequence_eq_zero_of_new inRange_new hspan htake
      (List.forall_mem_cons.2 ⟨hlater.symm, hnew⟩)

/-- A clock that starts before the epoch, and goes back by two milliseconds later on. -/
def backwardClock : List UInt64 :=
  [epoch - 5, epoch - 1, epoch + 3, epoch + 1, epoch + 3, epoch + 4]

/-- The fourth id keeps the time of the third, though the clock had gone back. -/
theorem ids_ascend_backwardClock :
    Lasts {} backwardClock 6 ∧ (∀ now ∈ backwardClock, (sinceEpoch now).toNat < 2 ^ 52) ∧
    ((take {} backwardClock 6).map id).Pairwise (· < ·) ∧
    (take {} backwardClock 6)[3]? = some ⟨3, 1⟩ ∧ latest 0 (backwardClock.take 4) = 3 ∧
    (take {} backwardClock 6)[5]? = some ⟨4, 0⟩ := by
  have hlasts : Lasts {} backwardClock 6 := by decide
  have hspan : ∀ now ∈ backwardClock, (sinceEpoch now).toNat < 2 ^ 52 := by
    have hall : backwardClock.all (fun now => (sinceEpoch now).toNat < 2 ^ 52) = true := by decide
    exact fun now hnow => of_decide_eq_true (List.all_eq_true.1 hall now hnow)
  obtain ⟨-, hids, -, -, -, htimes, -⟩ := ids_ascend backwardClock 6 hlasts hspan
  have hfourth : (take {} backwardClock 6)[3]? = some ⟨3, 1⟩ := by decide
  have hlatest := htimes 3 _ hfourth (backwardClock.take 4) rfl
  exact ⟨hlasts, hspan, hids, hfourth, hlatest.symm, by decide⟩

end Switchboard.Session.Snowflake
