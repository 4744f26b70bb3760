import Switchboard.Proofs.Gateway.Closing

/-!
# Departure — a session that closes while a command subscribes it

The look of the command at the sessions and the look of the closing task at the groups can each be
out of date when the mutation comes. What the session is in at the end is told by two moments of the
run: the closing task's look at the groups, and the moment at which it hands in that the session
leaves them.
-/

namespace Switchboard.Gateway

open Session

namespace Crowd

variable {known : SessionRef → Prop} {uid : Int64} {gids : List Int64} {s : SessionRef}
  {c c' : Crowd} {command exit : Job} {roster : List SessionRef}

/-! ## 1. Whole runs -/

theorem IsAbandoned.set {i j : Nat} {job job' : Job} (h : c.IsAbandoned i)
    (hj : c.jobs[j]? = some job) (hjob : job ≠ .abandoned) (hjobs : c'.jobs = c.jobs.set j job') :
    c'.IsAbandoned i := by
  have hne : j ≠ i := fun hji => hjob (Option.some.inj (hj.symm.trans (hji ▸ h)))
  rw [IsAbandoned, hjobs, List.getElem?_set_ne hne]
  exact h

theorem jobs_act {i : Nat} {script : Script} (hm : c.act i script = some c') :
    ∃ job, c'.jobs = c.jobs.set i job := by
  cases script with
  | done => cases hm
  | find | groupsOf | close =>
    obtain rfl : _ = c' := Option.some.inj hm
    exact ⟨_, rfl⟩
  | mutate | regroup =>
    simp only [act] at hm
    split at hm <;>
    · obtain rfl : _ = c' := Option.some.inj hm
      exact ⟨_, rfl⟩

theorem IsAbandoned.move {i : Nat} {m : Move} (h : c.IsAbandoned i) (hm : c.move? m = some c') :
    c'.IsAbandoned i := by
  -- a move sets the job of at most one task, and never that of a dropped one
  cases m with
  | job j =>
    simp only [move?] at hm
    split at hm
    · next script hj =>
      obtain ⟨job, hjobs⟩ := jobs_act hm
      exact h.set hj (by simp) hjobs
    · cases hm
  | indexWriter =>
    simp only [move?, writeIndex] at hm
    split at hm
    · cases hm
    · split at hm
      · next hj =>
        obtain rfl : _ = c' := Option.some.inj hm
        exact h.set hj (by simp) rfl
      · obtain rfl : _ = c' := Option.some.inj hm
        exact h
  | groupWriter =>
    simp only [move?, writeGroups] at hm
    split at hm
    · cases hm
    · split at hm
      · next hj =>
        obtain rfl : _ = c' := Option.some.inj hm
        exact h.set hj (by simp) rfl
      · obtain rfl : _ = c' := Option.some.inj hm
        exact h
  | abandon j =>
    simp only [move?] at hm
    split at hm
    · next hj =>
      obtain rfl : _ = c' := Option.some.inj hm
      by_cases hji : j = i
      · subst hji
        simp [IsAbandoned, setJob, hj]
      · simpa [IsAbandoned, setJob, List.getElem?_set_ne hji] using h
    · cases hm

theorem not_isDone_of_isAbandoned {i : Nat} {schedule : List Move} (h : c.IsAbandoned i)
    (hrun : c.follow? schedule = some c') : ¬ c'.IsDone i := by
  induction schedule generalizing c with
  | nil =>
    obtain rfl : c = c' := Option.some.inj hrun
    exact fun hdone => by cases Option.some.inj (h.symm.trans hdone)
  | cons m schedule ih =>
    rw [follow?_cons] at hrun
    obtain ⟨mid, hm, hrest⟩ := Option.bind_eq_some_iff.1 hrun
    exact ih (h.move hm) hrest

/-- A move of the command or of the writer of the groups, unless a task is dropped. -/
theorem Underway.moveOther (hs : known s)
    (h : Underway known uid gids s c command exit roster) {m : Move} (hm : c.move? m = some c')
    (hexit : m ≠ .job 1) (hindex : m ≠ .indexWriter) :
    (∃ i < 2, c'.IsAbandoned i) ∨
    ∃ command' exit', Underway known uid gids s c' command' exit' roster ∧
      (exit' = exit ∨ exit = .awaitingGroups .done ∧ exit' = .ready .done) ∧
      (s ∉ roster → ∀ gid, c'.Promised s gid ↔ c.Promised s gid) := by
  cases m with
  | job i =>
    match i with
    | 0 =>
      obtain ⟨command', h', hsame⟩ := h.moveCommand hs hm
      exact .inr ⟨command', exit, h', .inl rfl, hsame⟩
    | 1 => exact absurd rfl hexit
    | i + 2 =>
      -- there are two tasks only
      have hnone : c.jobs[i + 2]? = none := by simp [h.jobs]
      rw [move?, hnone] at hm
      cases hm
  | indexWriter => exact absurd rfl hindex
  | groupWriter =>
    obtain ⟨command', exit', h', hcases, hsame⟩ := h.moveGroups hs hm
    exact .inr ⟨command', exit', h', hcases, fun _ => hsame⟩
  | abandon i =>
    simp only [move?] at hm
    split at hm
    · next hi =>
      obtain rfl : _ = c' := Option.some.inj hm
      refine .inl ⟨i, by simpa [h.jobs] using hi, ?_⟩
      simp [IsAbandoned, setJob, hi]
    · cases hm

/-- No move gives the closing task more to do, and its own moves leave it less. -/
theorem Underway.move (hs : known s) (h : Underway known uid gids s c command exit roster)
    {m : Move} (hm : c.move? m = some c') :
    (∃ i < 2, c'.IsAbandoned i) ∨
    ∃ command' exit' roster', Underway known uid gids s c' command' exit' roster' ∧
      exit'.steps ≤ exit.steps ∧ (m = .job 1 → exit'.steps < exit.steps) := by
  by_cases hexit : m = .job 1
  · subst hexit
    rcases h.moveExit hm with ⟨exit', -, -, hless, h'⟩ | ⟨rfl, h', -⟩ | ⟨left, rfl, h', -⟩
    · exact .inr ⟨_, _, _, h', Nat.le_of_lt hless, fun _ => hless⟩
    -- with nothing to leave it is done at once
    · have hless : (Job.ready (.unsubscribe s (c.node.groups.groupsOf s) .done)).steps <
          (Job.ready (.unsubscribeAll s .done)).steps := by
        rw [Script.unsubscribe]
        split
        · exact Nat.succ_pos _
        · exact Nat.lt_succ_self _
      exact .inr ⟨_, _, _, h', Nat.le_of_lt hless, fun _ => hless⟩
    · exact .inr ⟨_, _, _, h', Nat.zero_le _, fun _ => Nat.lt_succ_self _⟩
  · by_cases hindex : m = .indexWriter
    · subst hindex
      obtain ⟨rfl, h'⟩ := h.moveIndex hs hm
      exact .inr ⟨_, _, _, h', Nat.le_refl _, fun hjob => absurd hjob hexit⟩
    · rcases h.moveOther hs hm hexit hindex with hdropped | ⟨_, exit', h', hcases, -⟩
      · exact .inl hdropped
      · have hsteps : exit'.steps ≤ exit.steps := by
          rcases hcases with rfl | ⟨rfl, rfl⟩ <;> exact Nat.le_refl _
        exact .inr ⟨_, _, _, h', hsteps, fun hjob => absurd hjob hexit⟩

def BothDone (c : Crowd) : Prop := c.IsDone 0 ∧ c.IsDone 1

theorem BothDone.not_isAbandoned (hdone : c'.BothDone) {schedule : List Move}
    (hrun : c.follow? schedule = some c') : ¬ ∃ i < 2, c.IsAbandoned i := by
  rintro ⟨i, hi, hdropped⟩
  have hnot := not_isDone_of_isAbandoned hdropped hrun
  match i with
  | 0 => exact hnot hdone.1
  | 1 => exact hnot hdone.2

theorem CommandAt.entries_of_done {entries : List GroupChange}
    (h : CommandAt known uid gids (.ready .done) entries) : entries = [] := by
  generalize hjob : Job.ready Script.done = job at h
  cases h with
  | start => rfl
  | next => rfl
  | waiting => cases hjob

/-- The closing task has something in the queue of the groups only while it waits for their
writer. -/
theorem ExitAt.entries_of_ready {script : Script} {index : List IndexChange}
    {entries : List GroupChange} (h : ExitAt s (.ready script) index entries) : entries = [] := by
  generalize hjob : Job.ready script = job at h
  cases h with
  | leaving => cases hjob
  | _ => rfl

/-- Every mutation in the queue of the groups is of one of the two tasks. -/
theorem Underway.mem_entriesOf (h : Underway known uid gids s c command exit roster)
    {e : Nat × GroupChange} (he : e ∈ c.groupQueue) :
    e.2 ∈ entriesOf 0 c.groupQueue ∨ e.2 ∈ entriesOf 1 c.groupQueue := by
  rcases h.groupQueue e he with hi | hi
  · exact .inl (List.mem_map_of_mem (List.mem_filter.2 ⟨he, decide_eq_true hi⟩))
  · exact .inr (List.mem_map_of_mem (List.mem_filter.2 ⟨he, decide_eq_true hi⟩))

/-- At the end nothing waits in the queue, so the session is in what was promised. -/
theorem Underway.mem_groupsOf_iff (h : Underway known uid gids s c command exit roster)
    (hdone : c.BothDone) (gid : Int64) :
    gid ∈ c.node.groups.groupsOf s ↔ c.Promised s gid := by
  have hcommand : command = .ready .done := by
    have h0 := hdone.1
    rw [IsDone, h.jobs] at h0
    exact Option.some.inj h0
  have hexit : exit = .ready .done := by
    have h1 := hdone.2
    rw [IsDone, h.jobs] at h1
    exact Option.some.inj h1
  -- neither task is at a stage that has a mutation in the queue
  have hempty : c.groupQueue = [] := by
    refine List.eq_nil_iff_forall_not_mem.2 fun e he => ?_
    have h0 : entriesOf 0 c.groupQueue = [] := (hcommand ▸ h.commandAt).entries_of_done
    have h1 : entriesOf 1 c.groupQueue = [] := (hexit ▸ h.exitAt).entries_of_ready
    have hin := h.mem_entriesOf he
    rw [h0, h1] at hin
    exact hin.elim List.not_mem_nil List.not_mem_nil
  simp [Promised, hempty, owedBy, h.jobs, hcommand, Job.owed, Script.owed]

/-- Once the closing task has nothing more to do to the groups, what is promised comes true. -/
theorem Underway.run_left (hs : known s)
    (h : Underway known uid gids s c command exit roster) (hgone : s ∉ roster)
    (hleft : exit = .awaitingGroups .done ∨ exit = .ready .done) {schedule : List Move}
    (hrun : c.follow? schedule = some c') (hdone : c'.BothDone) :
    c'.node.groups.Coherent known ∧
      ∀ gid, gid ∈ c'.node.groups.groupsOf s ↔ c.Promised s gid := by
  -- along the run: what is promised stays the same until all of it has come true
  induction schedule generalizing c command exit with
  | nil =>
    obtain rfl : c = c' := Option.some.inj hrun
    exact ⟨h.orderly.coherent, h.mem_groupsOf_iff hdone⟩
  | cons m schedule ih =>
    rw [follow?_cons] at hrun
    obtain ⟨mid, hm, hrest⟩ := Option.bind_eq_some_iff.1 hrun
    by_cases hexit : m = .job 1
    · subst hexit
      -- the closing task has no move left
      rcases h.moveExit hm with ⟨_, hopen, -⟩ | ⟨hlook, -⟩ | ⟨_, hhand, -⟩
      · rcases hleft with rfl | rfl <;> exact absurd hopen.two_le_steps (by decide)
      · rcases hleft with rfl | rfl <;> cases hlook
      · rcases hleft with rfl | rfl <;> cases hhand
    · by_cases hindex : m = .indexWriter
      · subst hindex
        have hwait := (h.moveIndex hs hm).1
        rcases hleft with rfl | rfl <;> cases hwait
      · rcases h.moveOther hs hm hexit hindex with hdropped | ⟨_, exit', h', hcases, hsame⟩
        · exact absurd hdropped (hdone.not_isAbandoned hrest)
        · have hleft' : exit' = .awaitingGroups .done ∨ exit' = .ready .done :=
            hcases.elim (fun heq => heq ▸ hleft) fun heq => .inr heq.2
          obtain ⟨hcoherent, hend⟩ := ih h' hleft' hrest
          exact ⟨hcoherent, fun gid => (hend gid).trans (hsame hgone gid)⟩

/-- From the closing task's look at the groups, which found `left`, to the end. -/
theorem Underway.run_handing (hs : known s)
    (h : Underway known uid gids s c command exit roster) (hgone : s ∉ roster) {left : List Int64}
    (hhanding : exit = .ready (.regroup (.unsubscribe s left) .done)) {schedule : List Move}
    (hrun : c.follow? schedule = some c') (hdone : c'.BothDone) :
    c'.node.groups.Coherent known ∧
      ∃ hand, c.Passes schedule 1 (.regroup (.unsubscribe s left) .done) hand ∧
        ∀ gid, gid ∈ c'.node.groups.groupsOf s ↔
          (c.Promised s gid ∧ gid ∉ left) ∨ gid ∈ hand.owedBy 0 s := by
  -- along the run up to the move of the closing task, which may come at any time
  induction schedule generalizing c command exit with
  | nil =>
    obtain rfl : c = c' := Option.some.inj hrun
    have h1 := hdone.2
    rw [IsDone, h.jobs, hhanding] at h1
    cases h1
  | cons m schedule ih =>
    rw [follow?_cons] at hrun
    obtain ⟨mid, hm, hrest⟩ := Option.bind_eq_some_iff.1 hrun
    by_cases hexit : m = .job 1
    · subst hexit
      rcases h.moveExit hm with ⟨_, hopen, -⟩ | ⟨hlook, -⟩ | ⟨left', hhand, h', hpromised⟩
      · rw [hhanding] at hopen
        exact absurd hopen.two_le_steps (Nat.not_succ_le_self 1)
      · rw [hhanding] at hlook
        cases hlook
      · obtain rfl : left = left' := by
          rw [hhanding] at hhand
          cases hhand
          rfl
        obtain ⟨hcoherent, hend⟩ := h'.run_left hs hgone (.inl rfl) hrest hdone
        refine ⟨hcoherent, c, .head schedule ?_, fun gid => (hend gid).trans (hpromised gid)⟩
        rw [h.jobs, hhanding]
        rfl
    · by_cases hindex : m = .indexWriter
      · subst hindex
        have hwait := (h.moveIndex hs hm).1
        rw [hhanding] at hwait
        cases hwait
      · rcases h.moveOther hs hm hexit hindex with hdropped | ⟨_, exit', h', hcases, hsame⟩
        · exact absurd hdropped (hdone.not_isAbandoned hrest)
        · have hhanding' : exit' = .ready (.regroup (.unsubscribe s left) .done) := by
            rcases hcases with heq | ⟨hwait, -⟩
            · exact heq ▸ hhanding
            · rw [hhanding] at hwait
              cases hwait
          obtain ⟨hcoherent, hand, hpass, hend⟩ := ih h' hhanding' hrest
          refine ⟨hcoherent, hand, hpass.cons hm, fun gid => (hend gid).trans ?_⟩
          rw [hsame hgone gid]

/-! ## 2. What the session is in at the end -/

/-- The two moments of the closing task that matter: its look at the groups of `s`, and the handing
in of what it found. When it finds nothing it hands in nothing, and both moments are the look. -/
structure Moments (c : Crowd) (schedule : List Move) (s : SessionRef) (look hand : Crowd) :
    Prop where
  passes_look : c.Passes schedule 1 (.unsubscribeAll s .done) look
  hand_of_nil : look.node.groups.groupsOf s = [] → hand = look
  passes_hand : look.node.groups.groupsOf s ≠ [] →
    c.Passes schedule 1
      (.regroup (.unsubscribe s (look.node.groups.groupsOf s)) .done) hand

theorem Moments.cons {m : Move} (hm : c.move? m = some c') {schedule : List Move}
    {look hand : Crowd} (h : c'.Moments schedule s look hand) :
    c.Moments (m :: schedule) s look hand :=
  ⟨h.passes_look.cons hm, h.hand_of_nil, fun hne => (h.passes_hand hne).cons hm⟩

/-- What the closing task is at later is no more than what it has left now. -/
theorem Underway.steps_le_of_passes (hs : known s)
    (h : Underway known uid gids s c command exit roster) {schedule : List Move}
    (hrun : c.follow? schedule = some c') (hdone : c'.BothDone) {script : Script} {mid : Crowd}
    (hpass : c.Passes schedule 1 script mid) : script.steps ≤ exit.steps := by
  -- on the moves, of which each leaves the task no more than it had
  induction schedule generalizing c command exit roster with
  | nil => exact absurd hpass (not_passes_nil c 1 script mid)
  | cons m schedule ih =>
    rcases hpass.of_cons with ⟨-, rfl, hjob⟩ | ⟨next, hm, hlater⟩
    · rw [h.jobs] at hjob
      obtain rfl : exit = .ready script := Option.some.inj hjob
      exact Nat.le_refl _
    · rw [follow?_cons, hm] at hrun
      rcases h.move hs hm with hdropped | ⟨_, _, _, h', hsteps, -⟩
      · exact absurd hdropped (hdone.not_isAbandoned hrun)
      · exact Nat.le_trans (ih h' hrun hlater) hsteps

/-- The closing task is at each of its scripts at one moment only. -/
theorem Underway.eq_of_passes (hs : known s)
    (h : Underway known uid gids s c command exit roster) {schedule : List Move}
    (hrun : c.follow? schedule = some c') (hdone : c'.BothDone) {script : Script} {mid mid' : Crowd}
    (hpass : c.Passes schedule 1 script mid) (hpass' : c.Passes schedule 1 script mid') :
    mid = mid' := by
  induction schedule generalizing c command exit roster with
  | nil => exact absurd hpass (not_passes_nil c 1 script mid)
  | cons m schedule ih =>
    -- after a move from `script` the task has less left than `script`
    have hless : ∀ {next later}, c.move? m = some next → m = .job 1 →
        c.jobs[1]? = some (.ready script) → ¬ next.Passes schedule 1 script later := by
      intro next later hm hjob1 hjob hlater
      rw [h.jobs] at hjob
      obtain rfl : exit = .ready script := Option.some.inj hjob
      rw [follow?_cons, hm] at hrun
      rcases h.move hs hm with hdropped | ⟨_, _, _, h', -, hsteps⟩
      · exact absurd hdropped (hdone.not_isAbandoned hrun)
      · exact absurd (h'.steps_le_of_passes hs hrun hdone hlater) (Nat.not_le.2 (hsteps hjob1))
    rcases hpass.of_cons with ⟨hjob1, rfl, hjob⟩ | ⟨next, hm, hlater⟩
    · rcases hpass'.of_cons with ⟨-, rfl, -⟩ | ⟨next', hm', hlater'⟩
      · rfl
      · exact absurd hlater' (hless hm' hjob1 hjob)
    · rcases hpass'.of_cons with ⟨hjob1, rfl, hjob⟩ | ⟨next', hm', hlater'⟩
      · exact absurd hlater (hless hm hjob1 hjob)
      · obtain rfl : next = next' := Option.some.inj (hm.symm.trans hm')
        rw [follow?_cons, hm] at hrun
        rcases h.move hs hm with hdropped | ⟨_, _, _, h', -, -⟩
        · exact absurd hdropped (hdone.not_isAbandoned hrun)
        · exact ih h' hrun hlater hlater'

theorem Underway.eq_of_moments (hs : known s)
    (h : Underway known uid gids s c command exit roster) {schedule : List Move}
    (hrun : c.follow? schedule = some c') (hdone : c'.BothDone) {look hand look' hand' : Crowd}
    (hmoments : c.Moments schedule s look hand) (hmoments' : c.Moments schedule s look' hand') :
    look = look' ∧ hand = hand' := by
  obtain rfl := h.eq_of_passes hs hrun hdone hmoments.passes_look hmoments'.passes_look
  refine ⟨rfl, ?_⟩
  by_cases hempty : look.node.groups.groupsOf s = []
  · rw [hmoments.hand_of_nil hempty, hmoments'.hand_of_nil hempty]
  · exact h.eq_of_passes hs hrun hdone (hmoments.passes_hand hempty) (hmoments'.passes_hand hempty)

/-- While the closing task looks at the groups, all that waits for their writer is the command's. -/
theorem Underway.promised_iff_of_looking (hs : known s)
    (h : Underway known uid gids s c command exit roster)
    (hlook : exit = .ready (.unsubscribeAll s .done)) (gid : Int64) :
    c.Promised s gid ↔ gid ∈ c.node.groups.groupsOf s ∨ gid ∈ c.owed 0 s := by
  have hcommand := h.commandAt
  have hentries : entriesOf 1 c.groupQueue = [] := (hlook ▸ h.exitAt).entries_of_ready
  -- so the queue is the command's
  have hall : entriesOf 0 c.groupQueue = c.groupQueue.map Prod.snd := by
    rw [entriesOf, List.filter_eq_self.2]
    intro e he
    refine decide_eq_true ((h.groupQueue e he).resolve_right fun hi => ?_)
    have hin : e.2 ∈ entriesOf 1 c.groupQueue :=
      List.mem_map_of_mem (List.mem_filter.2 ⟨he, decide_eq_true hi⟩)
    rw [hentries] at hin
    exact absurd hin List.not_mem_nil
  rw [hall] at hcommand
  have howed : c.groupQueue.flatMap (fun e => owedByChange s e.2) =
      (c.groupQueue.map Prod.snd).flatMap (owedByChange s) := by
    rw [List.flatMap_map]
  rw [Promised, owed, howed, List.mem_append]
  generalize c.groupQueue.map Prod.snd = queue at hcommand
  cases hcommand with
  | start => simp
  | next => simp
  | waiting t l ht hl =>
    have hslot : t.slot = s.slot ↔ t = s :=
      ⟨h.orderly.distinct.eq_of_slot t s ht hs, fun hts => hts ▸ rfl⟩
    simp only [List.foldl_cons, List.foldl_nil, Groups.apply, Groups.mem_groupsOf_subscribe, hslot,
      List.flatMap_cons, List.flatMap_nil, List.append_nil, owedByChange]
    by_cases hts : t = s <;> simp [hts, or_assoc]

/-- From the closing task's look at the groups to the end. -/
theorem Underway.run_looking (hs : known s)
    (h : Underway known uid gids s c command exit roster)
    (hlook : exit = .ready (.unsubscribeAll s .done)) (hgone : s ∉ roster) {mid : Crowd}
    (hm : c.move? (.job 1) = some mid)
    (h' : Underway known uid gids s mid command
      (.ready (.unsubscribe s (c.node.groups.groupsOf s) .done)) roster)
    (hsame : ∀ gid, mid.Promised s gid ↔ c.Promised s gid) {schedule : List Move}
    (hrest : mid.follow? schedule = some c') (hdone : c'.BothDone) :
    c'.node.groups.Coherent known ∧
      ∃ look hand, c.Moments (.job 1 :: schedule) s look hand ∧
        ∀ gid, gid ∈ c'.node.groups.groupsOf s ↔
          (gid ∈ look.owed 0 s ∧ gid ∉ look.node.groups.groupsOf s) ∨ gid ∈ hand.owedBy 0 s := by
  have hpass : c.Passes (.job 1 :: schedule) 1 (.unsubscribeAll s .done) c :=
    .head schedule (by rw [h.jobs, hlook]; rfl)
  have hpromised := h.promised_iff_of_looking hs hlook
  by_cases hempty : c.node.groups.groupsOf s = []
  · -- nothing to leave, so nothing is handed in
    have hdone' : Job.ready (.unsubscribe s (c.node.groups.groupsOf s) .done) = .ready .done := by
      rw [hempty]
      rfl
    obtain ⟨hcoherent, hend⟩ := h'.run_left hs hgone (.inr hdone') hrest hdone
    refine ⟨hcoherent, c, c, ⟨hpass, fun _ => rfl, fun hne => absurd hempty hne⟩, fun gid => ?_⟩
    rw [hend, hsame, hpromised, hempty, owed, List.mem_append]
    simp
  · have hhanding : Job.ready (.unsubscribe s (c.node.groups.groupsOf s) .done) =
        .ready (.regroup (.unsubscribe s (c.node.groups.groupsOf s)) .done) := by
      rw [Script.unsubscribe, if_neg (by simpa using hempty)]
    obtain ⟨hcoherent, hand, hpass', hend⟩ := h'.run_handing hs hgone hhanding hrest hdone
    refine ⟨hcoherent, c, hand, ⟨hpass, fun heq => absurd heq hempty, fun _ => hpass'.cons hm⟩,
      fun gid => ?_⟩
    rw [hend, hsame, hpromised]
    have hiff : ∀ p q r : Prop, ((p ∨ q) ∧ ¬ p) ∨ r ↔ (q ∧ ¬ p) ∨ r := by
      intro p q r
      by_cases hp : p <;> simp [hp]
    exact hiff _ _ _

/-- From the start of the closing task, or from its look at the groups, to the end. -/
theorem Underway.run_opening (hs : known s)
    (h : Underway known uid gids s c command exit roster)
    (hopening : IsOpening s exit ∨ exit = .ready (.unsubscribeAll s .done) ∧ s ∉ roster)
    {schedule : List Move} (hrun : c.follow? schedule = some c') (hdone : c'.BothDone) :
    c'.node.groups.Coherent known ∧
      ∃ look hand, c.Moments schedule s look hand ∧
        ∀ gid, gid ∈ c'.node.groups.groupsOf s ↔
          (gid ∈ look.owed 0 s ∧ gid ∉ look.node.groups.groupsOf s) ∨ gid ∈ hand.owedBy 0 s := by
  -- along the run up to the look, which ends the induction
  induction schedule generalizing c command exit roster with
  | nil =>
    obtain rfl : c = c' := Option.some.inj hrun
    have h1 := hdone.2
    rw [IsDone, h.jobs] at h1
    obtain rfl : exit = .ready .done := Option.some.inj h1
    rcases hopening with hopen | ⟨heq, -⟩
    · exact absurd hopen.two_le_steps (by decide)
    · cases heq
  | cons m schedule ih =>
    rw [follow?_cons] at hrun
    obtain ⟨mid, hm, hrest⟩ := Option.bind_eq_some_iff.1 hrun
    by_cases hexit : m = .job 1
    · subst hexit
      rcases h.moveExit hm with ⟨_, -, hopen', -, h'⟩ | ⟨hlook, h', hsame⟩ | ⟨left, hhand, -⟩
      · obtain ⟨hcoherent, look, hand, hmoments, hend⟩ := ih h' (.inl hopen') hrest
        exact ⟨hcoherent, look, hand, hmoments.cons hm, hend⟩
      · rcases hopening with (heq | heq | heq) | ⟨-, hgone⟩
        · rw [hlook] at heq
          cases heq
        · rw [hlook] at heq
          cases heq
        · rw [hlook] at heq
          cases heq
        · exact h.run_looking hs hlook hgone hm h' hsame hrest hdone
      · -- it has not looked, so it cannot hand in
        rcases hopening with hopen | ⟨heq, -⟩
        · rw [hhand] at hopen
          exact absurd hopen.two_le_steps (Nat.not_succ_le_self 1)
        · rw [hhand] at heq
          cases heq
    · by_cases hindex : m = .indexWriter
      · -- the session leaves the index before the look, so no later look finds it
        subst hindex
        have hgone : s ∉ roster.filter fun t => !t.same s := fun hin => by
          simpa [SessionRef.same] using (List.mem_filter.1 hin).2
        have h' := (h.moveIndex hs hm).2
        obtain ⟨hcoherent, look, hand, hmoments, hend⟩ := ih h' (.inr ⟨rfl, hgone⟩) hrest
        exact ⟨hcoherent, look, hand, hmoments.cons hm, hend⟩
      · rcases h.moveOther hs hm hexit hindex with hdropped | ⟨_, exit', h', hcases, -⟩
        · exact absurd hdropped (hdone.not_isAbandoned hrest)
        · obtain rfl : exit' = exit := by
            rcases hcases with heq | ⟨hwait, -⟩
            · exact heq
            · rcases hopening with hopen | ⟨heq, -⟩
              · rw [hwait] at hopen
                exact absurd hopen.two_le_steps (by decide)
              · rw [hwait] at heq
                cases heq
          obtain ⟨hcoherent, look, hand, hmoments, hend⟩ := ih h' hopening hrest
          exact ⟨hcoherent, look, hand, hmoments.cons hm, hend⟩

/-- When a session closes while a command subscribes its user, and both tasks come to their end, the
session has left everything exactly when, at the closing task's look, the command owed it no group
that the look did not find, and nothing was owed outside the queue when the closing task handed in
what it found. -/
theorem left_everything_iff {node : Node} {known : SessionRef → Prop} (hnode : node.Recorded known)
    (hindex : node.indexWriter = true) (hgroups : node.groupWriter = true) {s : SessionRef}
    (hs : known s) (uid : Int64) (gids : List Int64) {schedule : List Move} {c : Crowd}
    (hrun : (ofScripts node [.subscribeUser uid gids, .leave s]).follow? schedule = some c)
    (hdone : c.BothDone) :
    (∃ look hand,
      (ofScripts node [.subscribeUser uid gids, .leave s]).Moments schedule s look hand) ∧
    ∀ look hand, (ofScripts node [.subscribeUser uid gids, .leave s]).Moments schedule s look hand →
      (((∀ gid, s ∉ c.node.groups.members gid) ∧ c.node.groups.groupsOf s = []) ↔
        (∀ gid ∈ look.owed 0 s, gid ∈ look.node.groups.groupsOf s) ∧ hand.owedBy 0 s = []) := by
  obtain ⟨roster, horderly⟩ := hnode.orderly hindex hgroups
  have hstart : Underway known uid gids s (ofScripts node [.subscribeUser uid gids, .leave s])
      (.ready (.subscribeUser uid gids)) (.ready (.leave s)) roster :=
    ⟨rfl, horderly, fun e he => absurd he List.not_mem_nil, fun e he => absurd he List.not_mem_nil,
      .start, .start⟩
  obtain ⟨hcoherent, look, hand, hmoments, hend⟩ :=
    hstart.run_opening hs (.inl (.inl rfl)) hrun hdone
  refine ⟨⟨look, hand, hmoments⟩, fun look' hand' hmoments' => ?_⟩
  obtain ⟨rfl, rfl⟩ := hstart.eq_of_moments hs hrun hdone hmoments hmoments'
  -- the buckets and the set of groups tell the same
  have hmembers : (∀ gid, s ∉ c.node.groups.members gid) ↔ c.node.groups.groupsOf s = [] := by
    simp only [hcoherent.mem_iff hs, List.eq_nil_iff_forall_not_mem]
  rw [hmembers, and_self, List.eq_nil_iff_forall_not_mem, List.eq_nil_iff_forall_not_mem]
  simp only [hend, not_or, not_and_not_right]
  exact forall_and

/-! ## 3. A command that is overtaken -/

/-- A device of user 1. -/
def tablet : SessionRef := ⟨0, 7, 1, "token"⟩

/-- A node on which only the device is registered, in no group. -/
def tabletNode : Node :=
  ((Script.enter tablet []).run (({} : Node).openSession 7 1 "token" false).2).1

/-- The command finds the device, the device leaves, and only then is it subscribed. -/
def overtaking : List Move :=
  [.job 0, .job 1, .job 1, .indexWriter, .job 1, .job 0, .groupWriter]

theorem tabletNode_recorded : tabletNode.Recorded (· = tablet) where
  distinct := ⟨fun _ _ hs ht _ => hs.trans ht.symm, fun _ _ hs ht _ => hs.trans ht.symm⟩
  index := ⟨[.add tablet], rfl, fun _ hs => List.mem_singleton.1 hs⟩
  groups := ⟨[], rfl, fun _ hop => absurd hop List.not_mem_nil⟩

theorem left_everything_iff_overtaking :
    ∃ c, (ofScripts tabletNode [.subscribeUser 1 [10], .leave tablet]).follow? overtaking = some c ∧
      c.BothDone ∧
      ∀ look hand, (ofScripts tabletNode [.subscribeUser 1 [10], .leave tablet]).Moments
          overtaking tablet look hand →
        (((∀ gid, tablet ∉ c.node.groups.members gid) ∧ c.node.groups.groupsOf tablet = []) ↔
          (∀ gid ∈ look.owed 0 tablet, gid ∈ look.node.groups.groupsOf tablet) ∧
            hand.owedBy 0 tablet = []) := by
  refine ⟨_, rfl, ⟨rfl, rfl⟩, ?_⟩
  refine (left_everything_iff tabletNode_recorded rfl rfl rfl 1 [10] rfl ?_).2
  exact ⟨rfl, rfl⟩

/-- Both tasks are done, and the device that left is in a group. -/
theorem subscribed_after_leaving :
    ∃ c, (ofScripts tabletNode [.subscribeUser 1 [10], .leave tablet]).follow? overtaking = some c ∧
      c.BothDone ∧ tablet ∈ c.node.groups.members 10 ∧ c.node.groups.groupsOf tablet = [10] :=
  ⟨_, rfl, ⟨rfl, rfl⟩, by decide, by decide⟩

end Crowd

end Switchboard.Gateway
