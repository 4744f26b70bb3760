import Mathlib.Data.List.DropRight
import Switchboard.Link.Retry

/-!
# Retry — which failures of an outage are logged

The count runs through all failures since the latest message, whatever their statuses. A run of one
status starts with a logged failure, and then the count decides: it may start over in the middle of
the run, and right after its first failure.
-/

namespace Switchboard.Link.Retry

/-! ## 1. What a retry state has been told -/

inductive Report where
  | message
  | failure (status : Status)
  deriving DecidableEq, Repr, Inhabited

namespace Report

def isFailure : Report → Bool
  | .message => false
  | .failure _ => true

/-- The status that a report leaves behind. -/
def status : Report → Status
  | .message => .ok
  | .failure s => s

end Report

def tell (r : Retry) : Report → Retry
  | .message => r.afterMessage
  | .failure s => (r.afterFailure s).2

def after (reports : List Report) : Retry := reports.foldl tell {}

/-- A failure that comes after the reports is logged. -/
def logs (reports : List Report) (s : Status) : Bool := ((after reports).afterFailure s).1.log

/-- The number of failures since the latest message. -/
def outage (reports : List Report) : Nat := (reports.rtakeWhile Report.isFailure).length

theorem after_concat (reports : List Report) (report : Report) :
    after (reports ++ [report]) = (after reports).tell report := by
  simp [after]

theorem outage_concat_message (reports : List Report) : outage (reports ++ [.message]) = 0 := by
  simp [outage, Report.isFailure]

theorem outage_concat_failure (reports : List Report) (s : Status) :
    outage (reports ++ [.failure s]) = outage reports + 1 := by
  simp [outage, List.rtakeWhile_concat, Report.isFailure]

theorem outage_append_replicate (reports : List Report) (s : Status) (n : Nat) :
    outage (reports ++ List.replicate n (.failure s)) = outage reports + n := by
  induction n with
  | zero => simp
  | succ n ih =>
    rw [List.replicate_succ', ← List.append_assoc, outage_concat_failure, ih]
    omega

/-! ## 2. Count and status -/

theorem count_after (reports : List Report) :
    (after reports).count = outage reports % repeatLimit := by
  -- report by report: a message ends the outage, a failure prolongs it
  induction reports using List.reverseRecOn with
  | nil => rfl
  | append_singleton reports report ih =>
    rw [after_concat]
    cases report with
    | message =>
      rw [outage_concat_message]
      rfl
    | failure s =>
      rw [outage_concat_failure]
      show (if (after reports).count + 1 = repeatLimit then 0 else (after reports).count + 1) = _
      rw [ih]
      unfold repeatLimit
      split <;> omega

theorem last_after (reports : List Report) :
    (after reports).last = reports.getLast?.map Report.status := by
  rcases List.eq_nil_or_concat' reports with rfl | ⟨reports, report, rfl⟩
  · rfl
  · rw [after_concat, List.getLast?_concat]
    cases report <;> rfl

/-- A failure is logged when its status is new or the count is at its start. -/
theorem logs_iff (reports : List Report) (s : Status) :
    logs reports s = true ↔
      reports.getLast?.map Report.status ≠ some s ∨ repeatLimit ∣ outage reports := by
  have hlogs : logs reports s =
      ((after reports).last ≠ some s || (after reports).count = 0) := rfl
  rw [hlogs, last_after, count_after, Nat.dvd_iff_mod_eq_zero]
  simp

/-! ## 3. A run of one status -/

variable {before : List Report} {s : Status}

/-- The first failure of a run is always logged. -/
theorem logs_of_fresh (hfresh : before.getLast? ≠ some (.failure s)) : logs before s = true := by
  rw [logs_iff]
  cases hlast : before.getLast? with
  | none => exact .inl (by simp)
  | some report =>
    cases report with
    | message =>
      -- after a message the count is at its start, even for a failure with the status of one
      have hsplit : before = before.dropLast ++ [.message] :=
        (List.dropLast_append_getLast? _ hlast).symm
      rw [hsplit, outage_concat_message]
      exact .inr (Nat.dvd_zero _)
    | failure t =>
      have hne : t ≠ s := fun hts => hfresh (hts ▸ hlast)
      exact .inl (by simpa [Report.status] using hne)

theorem logs_in_run_iff (hfresh : before.getLast? ≠ some (.failure s)) (i : Nat) :
    logs (before ++ List.replicate i (.failure s)) s = true ↔
      i = 0 ∨ repeatLimit ∣ outage before + i := by
  cases i with
  | zero =>
    rw [List.replicate_zero, List.append_nil]
    simp [logs_of_fresh hfresh]
  | succ i =>
    -- the failure before has the same status, so only the count matters
    have hlast : (before ++ List.replicate (i + 1) (Report.failure s)).getLast? =
        some (.failure s) := by
      rw [List.replicate_succ', ← List.append_assoc, List.getLast?_concat]
    rw [logs_iff, hlast, outage_append_replicate]
    simp [Report.status]

/-- A run whose log flags follow its own indices starts with the count or ends before the count
starts over. -/
theorem flags_by_index_iff (hfresh : before.getLast? ≠ some (.failure s)) (n : Nat) :
    (∀ i < n, logs (before ++ List.replicate i (.failure s)) s = true ↔ repeatLimit ∣ i) ↔
      repeatLimit ∣ outage before ∨ outage before % repeatLimit + n ≤ repeatLimit := by
  have hflags := logs_in_run_iff hfresh
  unfold repeatLimit at hflags ⊢
  constructor
  · intro h
    by_contra hnot
    -- the failure with which the count starts over is logged, at an index that is none of the due
    have hindex : 16 - outage before % 16 < n := by omega
    have hlogged := (hflags (16 - outage before % 16)).2 (.inr (by omega))
    have hdue := (h _ hindex).1 hlogged
    omega
  · intro h i hi
    rw [hflags]
    constructor
    · rintro (hzero | hcount) <;> omega
    · intro hdue
      by_cases hzero : i = 0
      · exact .inl hzero
      · exact .inr (by omega)

/-- In a run of failures of one status the first is logged, and then those at which the number of
all failures since the latest message is a multiple of sixteen. These are the failures whose own
index is such a multiple exactly when the outage before has such a length, or the run ends before
the count starts over. -/
theorem logged_in_run (before : List Report) (s : Status) (n : Nat)
    (hfresh : before.getLast? ≠ some (.failure s)) :
    (∀ i, logs (before ++ List.replicate i (.failure s)) s = true ↔
      i = 0 ∨ repeatLimit ∣ outage before + i) ∧
    ((∀ i < n, logs (before ++ List.replicate i (.failure s)) s = true ↔ repeatLimit ∣ i) ↔
      repeatLimit ∣ outage before ∨ outage before % repeatLimit + n ≤ repeatLimit) :=
  ⟨logs_in_run_iff hfresh, flags_by_index_iff hfresh n⟩

/-- Fifteen failures of a status, with one more of which the count starts over. -/
def longOutage : List Report := List.replicate 15 (.failure .internal)

theorem logged_in_run_longOutage :
    longOutage.getLast? ≠ some (.failure .unavailable) ∧
    (logs (longOutage ++ List.replicate 1 (.failure .unavailable)) .unavailable = true ↔
      1 = 0 ∨ repeatLimit ∣ outage longOutage + 1) ∧
    ¬ ∀ i < 2, logs (longOutage ++ List.replicate i (.failure .unavailable)) .unavailable = true ↔
      repeatLimit ∣ i := by
  have hfresh : longOutage.getLast? ≠ some (.failure .unavailable) := by decide
  obtain ⟨hflags, hindex⟩ := logged_in_run longOutage .unavailable 2 hfresh
  exact ⟨hfresh, hflags 1, fun h => absurd (hindex.1 h) (by decide)⟩

/-- Two failures of one status directly after one another are both logged, when the count starts
over between them. -/
theorem logged_twice_running :
    longOutage.getLast? ≠ some (.failure .unavailable) ∧
    logs longOutage .unavailable = true ∧
    logs (longOutage ++ [.failure .unavailable]) .unavailable = true ∧ ¬ repeatLimit ∣ 1 := by
  decide

/-! ## 4. What is decided after any reports -/

/-- The next failure can be counted in 32 bits, and the wait before its limit is a number of seconds
of 64 bits. -/
def Fits (r : Retry) : Prop := r.count + 1 < UInt32.size ∧ waitStep * r.count < UInt64.size

theorem fits_of_lt {r : Retry} (h : r.count < repeatLimit) : r.Fits := by
  have hcount : r.count < 16 := h
  have hcounter : UInt32.size = 4294967296 := rfl
  have hseconds : UInt64.size = 18446744073709551616 := rfl
  unfold Fits waitStep
  rw [hcounter, hseconds]
  omega

/-- In an outage the latest report is a failure. -/
theorem exists_failure {reports : List Report} (h : outage reports ≠ 0) :
    ∃ s, reports.getLast? = some (.failure s) := by
  cases reports using List.reverseRecOn with
  | nil => exact absurd rfl h
  | append_singleton reports report =>
    rw [List.getLast?_concat]
    cases report with
    | message => exact absurd (outage_concat_message reports) h
    | failure s => exact ⟨s, rfl⟩

theorem logs_iff_new_or_due (reports : List Report) (s : Status) :
    logs reports s = true ↔
      outage reports % 16 = 0 ∨ ∃ t, reports.getLast? = some (.failure t) ∧ t ≠ s := by
  rw [logs_iff, Nat.dvd_iff_mod_eq_zero, Or.comm, repeatLimit]
  refine or_congr_right' fun hcount => ?_
  -- only a failure counts, so the status that the reports leave behind is that of a failure
  obtain ⟨t, hlast⟩ := exists_failure fun hzero => hcount (by rw [hzero])
  rw [hlast]
  simp [Report.status]

/-- What is decided about a failure, in terms of the number of failures since the latest message.
The count never comes to sixteen, so nothing runs over. -/
theorem decided_by_outage (reports : List Report) (s : Status) :
    (after reports).count = outage reports % 16 ∧
    (after reports).count < 16 ∧ (after reports).Fits ∧
    ((after reports).afterFailure s).1.wait = min (10 * (outage reports % 16)) 60 ∧
    (((after reports).afterFailure s).1.log = true ↔
      outage reports % 16 = 0 ∨ ∃ t, reports.getLast? = some (.failure t) ∧ t ≠ s) := by
  have hcount := count_after reports
  have hlt : (after reports).count < repeatLimit := hcount ▸ Nat.mod_lt _ (by decide)
  have hwait : ((after reports).afterFailure s).1.wait =
      min (waitStep * (after reports).count) waitLimit := rfl
  refine ⟨hcount, hlt, fits_of_lt hlt, ?_, logs_iff_new_or_due reports s⟩
  rw [hwait, hcount]
  rfl

end Switchboard.Link.Retry
