import Mathlib.Data.Nat.Find
import Switchboard.Proofs.Gateway.Journal

/-!
# Verdict — which heartbeat ends a session

Heartbeats are due at fixed distances from the beginning of a session. The first that finds the
client silent for more than the limit is the last one. Which one that is can be told from the times
at which something came from the client, and the diary tells which of them were taken.
-/

namespace Switchboard.Gateway

open WebSocket

/-! ## 1. The verdict -/

namespace Diary

variable {d : Diary} {i k now t t' : Nat}

/-- When a heartbeat is due, counting from zero. -/
def tick (d : Diary) (k : Nat) : Nat := d.opened + pingInterval * k

/-- When the client was last heard from up to a time; before its first frame, the beginning. -/
def lastHeard (d : Diary) (t : Nat) : Nat := (d.arrivals.filter (· ≤ t)).foldl max d.opened

def Overdue (d : Diary) (k : Nat) : Prop := silenceLimit < d.tick k - d.lastHeard (d.tick k)

/-- The first heartbeat that finds the client silent for too long is due at this time. -/
def Verdict (d : Diary) (t : Nat) : Prop :=
  ∃ k, t = d.tick k ∧ d.Overdue k ∧ ∀ i < k, ¬ d.Overdue i

/-- When messages of a kind were written. -/
def times (d : Diary) (p : Message → Bool) : List Nat := (d.sent.filter fun e => p e.2).map Prod.fst

/-- When the client was pinged. -/
def pings (d : Diary) : List Nat := d.times (· = .ping [])

/-- When the client was told that it had been silent for too long. -/
def timeouts (d : Diary) : List Nat := d.times (· = Closing.silence.frame)

theorem times_write (d : Diary) (now : Nat) (ms : List Message) (p : Message → Bool) :
    (d.write now ms).times p = d.times p ++ (ms.filter p).map fun _ => now := by
  have hnew : (ms.map fun m => (now, m)).filter (fun e => p e.2) =
      (ms.filter p).map fun m => (now, m) := List.filter_map
  simp [times, write, hnew, Function.comp_def]

theorem tick_succ (d : Diary) (k : Nat) : d.tick (k + 1) = d.tick k + pingInterval := by
  simp [tick, Nat.mul_succ, Nat.add_assoc]

theorem tick_le (d : Diary) (h : i ≤ k) : d.tick i ≤ d.tick k := by
  unfold tick pingInterval
  omega

theorem le_of_tick_le (h : d.tick i ≤ d.tick k) : i ≤ k := by
  unfold tick pingInterval at h
  omega

theorem tick_injective (d : Diary) : Function.Injective d.tick :=
  fun _ _ h =>
    Nat.le_antisymm (le_of_tick_le (Nat.le_of_eq h)) (le_of_tick_le (Nat.le_of_eq h.symm))

theorem foldl_max_le_iff {xs : List Nat} {a b : Nat} :
    xs.foldl max a ≤ b ↔ a ≤ b ∧ ∀ x ∈ xs, x ≤ b := by
  induction xs generalizing a with
  | nil => simp
  | cons x xs ih => rw [List.foldl_cons, ih, Nat.max_le, List.forall_mem_cons, and_assoc]

theorem lastHeard_le_iff {b : Nat} :
    d.lastHeard t ≤ b ↔ d.opened ≤ b ∧ ∀ a ∈ d.arrivals, a ≤ t → a ≤ b := by
  simp [lastHeard, foldl_max_le_iff]

theorem opened_le_lastHeard (d : Diary) (t : Nat) : d.opened ≤ d.lastHeard t :=
  (lastHeard_le_iff.1 (Nat.le_refl _)).1

theorem le_lastHeard {a : Nat} (ha : a ∈ d.arrivals) (hat : a ≤ t) : a ≤ d.lastHeard t :=
  (lastHeard_le_iff.1 (Nat.le_refl _)).2 a ha hat

theorem lastHeard_le (h : d.opened ≤ t) : d.lastHeard t ≤ t :=
  lastHeard_le_iff.2 ⟨h, fun _ _ hat => hat⟩

theorem lastHeard_mono (d : Diary) (h : t ≤ t') : d.lastHeard t ≤ d.lastHeard t' :=
  lastHeard_le_iff.2
    ⟨d.opened_le_lastHeard t', fun _ ha hat => le_lastHeard ha (Nat.le_trans hat h)⟩

/-- Once nothing more comes, the client was last heard from when it last was. -/
theorem lastHeard_eq (harrived : ∀ a ∈ d.arrivals, a ≤ t) (h : t ≤ t') :
    d.lastHeard t' = d.lastHeard t := by
  refine Nat.le_antisymm ?_ (d.lastHeard_mono h)
  exact lastHeard_le_iff.2
    ⟨d.opened_le_lastHeard t, fun a ha _ => le_lastHeard ha (harrived a ha)⟩

theorem lastHeard_self (hopened : d.opened ≤ t) (ht : t ∈ d.arrivals) : d.lastHeard t = t :=
  Nat.le_antisymm (lastHeard_le hopened) (le_lastHeard ht (Nat.le_refl t))

/-- What comes later was not heard before. -/
theorem lastHeard_arrive (h : t < now) : (d.arrive now).lastHeard t = d.lastHeard t := by
  simp [lastHeard, arrive, h]

@[simp] theorem tick_arrive (d : Diary) (now k : Nat) : (d.arrive now).tick k = d.tick k := rfl

@[simp] theorem tick_write (d : Diary) (now : Nat) (ms : List Message) (k : Nat) :
    (d.write now ms).tick k = d.tick k := rfl

theorem overdue_arrive (h : d.tick k < now) : (d.arrive now).Overdue k ↔ d.Overdue k := by
  unfold Overdue
  rw [tick_arrive, lastHeard_arrive h]

theorem not_overdue_zero (d : Diary) : ¬ d.Overdue 0 := by
  have hle := d.opened_le_lastHeard (d.tick 0)
  have htick : d.tick 0 = d.opened := rfl
  unfold Overdue silenceLimit
  omega

/-- The client is closed more than the limit after its last frame, and by less than a heartbeat
more. -/
theorem Verdict.bounds (h : d.Verdict t) :
    silenceLimit < t - d.lastHeard t ∧ t - d.lastHeard t ≤ silenceLimit + pingInterval := by
  obtain ⟨k, rfl, hoverdue, hspared⟩ := h
  refine ⟨hoverdue, ?_⟩
  cases k with
  | zero => exact absurd hoverdue d.not_overdue_zero
  | succ k =>
    -- the heartbeat before has spared it
    have hbefore : d.tick k - d.lastHeard (d.tick k) ≤ silenceLimit :=
      Nat.le_of_not_lt (hspared k (Nat.lt_succ_self k))
    have hmono : d.lastHeard (d.tick k) ≤ d.lastHeard (d.tick (k + 1)) :=
      d.lastHeard_mono (d.tick_le (Nat.le_succ k))
    have htick := d.tick_succ k
    omega

theorem Verdict.unique (h : d.Verdict t) (h' : d.Verdict t') : t = t' := by
  obtain ⟨k, rfl, hoverdue, hspared⟩ := h
  obtain ⟨k', rfl, hoverdue', hspared'⟩ := h'
  rcases Nat.lt_trichotomy k k' with hlt | rfl | hlt
  · exact absurd hoverdue (hspared' k hlt)
  · rfl
  · exact absurd hoverdue' (hspared k' hlt)

/-- An overdue heartbeat is the verdict, or comes after it. -/
theorem exists_verdict (h : d.Overdue k) : ∃ t, d.Verdict t ∧ t ≤ d.tick k := by
  classical
  have hfind := Nat.find_min' ⟨k, h⟩ h
  exact ⟨_, ⟨Nat.find ⟨k, h⟩, rfl, Nat.find_spec ⟨k, h⟩, fun i hi => Nat.find_min _ hi⟩,
    d.tick_le hfind⟩

/-- A client that has been silent for long enough has had its verdict. -/
theorem exists_verdict_of_silent
    (hsilent : d.lastHeard now + (silenceLimit + pingInterval) ≤ now) :
    ∃ t, d.Verdict t ∧ t ≤ d.lastHeard now + (silenceLimit + pingInterval) := by
  have hopened := d.opened_le_lastHeard now
  -- the first heartbeat after the limit
  let k := (d.lastHeard now - d.opened + silenceLimit) / pingInterval + 1
  have hafter : d.lastHeard now + silenceLimit < d.tick k := by
    simp only [k, tick, pingInterval, silenceLimit]
    omega
  have hbefore : d.tick k ≤ d.lastHeard now + (silenceLimit + pingInterval) := by
    simp only [k, tick, pingInterval, silenceLimit]
    omega
  have hmono : d.lastHeard (d.tick k) ≤ d.lastHeard now :=
    d.lastHeard_mono (Nat.le_trans hbefore hsilent)
  have hoverdue : d.Overdue k := by
    unfold Overdue
    omega
  obtain ⟨t, hverdict, hle⟩ := exists_verdict hoverdue
  exact ⟨t, hverdict, Nat.le_trans hle hbefore⟩

/-! ## 2. Heartbeats that were taken -/

/-- So many heartbeats were taken up to now, and the client was pinged at each of them. -/
structure Beaten (d : Diary) (now n : Nat) : Prop where
  opened : d.opened ≤ now
  arrived : ∀ a ∈ d.arrivals, a ≤ now
  pings : d.pings = (List.range n).map d.tick
  early : ∀ k < n, d.tick k ≤ now
  spared : ∀ k < n, ¬ d.Overdue k

/-- The heartbeat after those was the verdict. -/
structure Sentenced (d : Diary) (now n : Nat) : Prop extends d.Beaten now n where
  overdue : d.Overdue n
  reached : d.tick n ≤ now
  timeouts : d.timeouts = [d.tick n]

theorem beaten_zero (now : Nat) : ({ opened := now } : Diary).Beaten now 0 where
  opened := Nat.le_refl now
  arrived _ ha := nomatch ha
  pings := rfl
  early _ hk := nomatch hk
  spared _ hk := nomatch hk

theorem Beaten.mem_pings {n : Nat} (h : d.Beaten now n) :
    t ∈ d.pings ↔ ∃ k < n, d.tick k = t := by
  rw [h.pings]
  simp

theorem Beaten.tick_mem_pings {n : Nat} (h : d.Beaten now n) : d.tick k ∈ d.pings ↔ k < n := by
  rw [h.mem_pings]
  refine ⟨fun ⟨i, hi, hik⟩ => ?_, fun hk => ⟨k, hk, rfl⟩⟩
  rwa [← d.tick_injective hik]

theorem Beaten.nodup {n : Nat} (h : d.Beaten now n) : d.pings.Nodup := by
  rw [h.pings]
  exact List.nodup_range.map d.tick_injective

theorem Beaten.wait {n : Nat} (h : d.Beaten now n) (hle : now ≤ t) : d.Beaten t n where
  opened := Nat.le_trans h.opened hle
  arrived a ha := Nat.le_trans (h.arrived a ha) hle
  pings := h.pings
  early k hk := Nat.le_trans (h.early k hk) hle
  spared := h.spared

theorem Beaten.arrive {n : Nat} (h : d.Beaten now n) (hlater : ∀ k < n, d.tick k < now) :
    (d.arrive now).Beaten now n where
  opened := h.opened
  arrived a ha := by
    rcases List.mem_append.1 ha with ha | ha
    · exact h.arrived a ha
    · exact Nat.le_of_eq (List.mem_singleton.1 ha)
  pings := h.pings
  early := h.early
  spared k hk := by
    rw [overdue_arrive (hlater k hk)]
    exact h.spared k hk

/-- Messages that are neither a ping nor a verdict. -/
def Plain (ms : List Message) : Prop := ∀ m ∈ ms, m ≠ .ping [] ∧ m ≠ Closing.silence.frame

theorem pings_write_of_plain {ms : List Message} (h : Plain ms) :
    (d.write now ms).pings = d.pings := by
  have hnone : ms.filter (· = .ping []) = [] := by
    simpa using fun m hm => (h m hm).1
  simp [pings, times_write, hnone]

theorem timeouts_write_of_plain {ms : List Message} (h : Plain ms) :
    (d.write now ms).timeouts = d.timeouts := by
  have hnone : ms.filter (· = Closing.silence.frame) = [] := by
    simpa using fun m hm => (h m hm).2
  simp [timeouts, times_write, hnone]

/-- What is queued is nothing to the heartbeats. -/
theorem Beaten.enqueue {n : Nat} (h : d.Beaten now n) (number : Nat) (payloads : List Bytes) :
    (d.enqueue number payloads).Beaten now n :=
  ⟨h.opened, h.arrived, h.pings, h.early, h.spared⟩

theorem Beaten.write {n : Nat} (h : d.Beaten now n) {ms : List Message}
    (hpings : (d.write now ms).pings = d.pings) : (d.write now ms).Beaten now n :=
  ⟨h.opened, h.arrived, hpings.trans h.pings, h.early, h.spared⟩

theorem pings_write_ping (d : Diary) (now : Nat) :
    (d.write now [.ping []]).pings = d.pings ++ [now] := by
  simp [pings, times_write]

theorem timeouts_write_ping (d : Diary) (now : Nat) :
    (d.write now [.ping []]).timeouts = d.timeouts := by
  simp [timeouts, times_write, Closing.frame]

theorem pings_write_silence (d : Diary) (now : Nat) :
    (d.write now [Closing.silence.frame]).pings = d.pings := by
  simp [pings, times_write, Closing.frame]

theorem timeouts_write_silence (d : Diary) (now : Nat) :
    (d.write now [Closing.silence.frame]).timeouts = d.timeouts ++ [now] := by
  simp [timeouts, times_write]

theorem Beaten.ping {n : Nat} (h : d.Beaten now n) (hnow : now = d.tick n)
    (hspared : ¬ d.Overdue n) : (d.write now [.ping []]).Beaten now (n + 1) where
  opened := h.opened
  arrived := h.arrived
  pings := by
    rw [pings_write_ping, h.pings, List.range_succ, List.map_append, hnow]
    rfl
  early k hk := by
    rcases Nat.lt_succ_iff_lt_or_eq.1 hk with hk | rfl
    · exact h.early k hk
    · exact Nat.le_of_eq hnow.symm
  spared k hk := by
    rcases Nat.lt_succ_iff_lt_or_eq.1 hk with hk | rfl
    · exact h.spared k hk
    · exact hspared

theorem Beaten.silence {n : Nat} (h : d.Beaten now n) (hnow : now = d.tick n)
    (hoverdue : d.Overdue n) (htimeouts : d.timeouts = []) :
    (d.write now [Closing.silence.frame]).Sentenced now n where
  toBeaten := h.write (d.pings_write_silence now)
  overdue := hoverdue
  reached := Nat.le_of_eq hnow.symm
  timeouts := by
    rw [timeouts_write_silence, htimeouts, tick_write, hnow]
    rfl

theorem Sentenced.enqueue {n : Nat} (h : d.Sentenced now n) (number : Nat)
    (payloads : List Bytes) : (d.enqueue number payloads).Sentenced now n :=
  ⟨h.toBeaten.enqueue number payloads, h.overdue, h.reached, h.timeouts⟩

theorem Sentenced.wait {n : Nat} (h : d.Sentenced now n) (hle : now ≤ t) : d.Sentenced t n :=
  ⟨h.toBeaten.wait hle, h.overdue, Nat.le_trans h.reached hle, h.timeouts⟩

end Diary

end Switchboard.Gateway
