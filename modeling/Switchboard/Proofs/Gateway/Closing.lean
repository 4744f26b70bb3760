import Switchboard.Gateway.Interleaving
import Switchboard.Proofs.Gateway.Orderly

/-!
# Closing — the moves of a closing connection beside a command

A command that subscribes the sessions of a user finds them in one look and then hands in one
mutation for each; a closing connection looks up the groups of its session and then hands in that it
leaves them. Each of the two is always at one of a few stages, and what is promised to the session,
by the queue and by the command, changes only where the closing connection hands in.
-/

namespace Switchboard.Gateway

open Session

/-! ## 1. What a command still owes a session -/

/-- The groups that a mutation makes `s` join. -/
def owedByChange (s : SessionRef) : GroupChange → List Int64
  | .subscribe t gids => if t = s then gids else []
  | .unsubscribe _ _ => []

namespace Script

/-- The groups that a script will make `s` join, up to the script's next look at a registry. -/
def owed (s : SessionRef) : Script → List Int64
  | .regroup op next => owedByChange s op ++ next.owed s
  | .close _ next => next.owed s
  | .done | .find _ _ | .mutate _ _ | .groupsOf _ _ => []

/-- The actions left of a script whose looks find no session and a single group. -/
def steps : Script → Nat
  | .done => 0
  | .find _ next | .mutate _ next => (next []).steps + 1
  | .groupsOf _ next => (next [0]).steps + 1
  | .regroup _ next | .close _ next => next.steps + 1

/-- The sessions join the groups one after another. -/
def joinAll (gids : List Int64) (sessions : List SessionRef) : Script :=
  sessions.foldr (fun s next => subscribe s gids next) .done

theorem joinAll_cons {gids : List Int64} (h : gids ≠ []) (t : SessionRef) (l : List SessionRef) :
    joinAll gids (t :: l) = .regroup (.subscribe t gids) (joinAll gids l) := by
  rw [joinAll, List.foldr_cons, subscribe, if_neg (by simpa using h)]
  rfl

theorem joinAll_nil_groups (l : List SessionRef) : joinAll [] l = .done := by
  induction l with
  | nil => rfl
  | cons t l ih => exact ih

/-- Only sessions that are still to come are owed anything. -/
theorem mem_owed_joinAll {s : SessionRef} {gids : List Int64} {l : List SessionRef} {gid : Int64}
    (h : gid ∈ (joinAll gids l).owed s) : s ∈ l := by
  by_cases hgids : gids = []
  · rw [hgids, joinAll_nil_groups] at h
    exact absurd h List.not_mem_nil
  -- on the sessions: the first one is owed its groups, or those after it are
  · induction l with
    | nil => exact absurd h List.not_mem_nil
    | cons t l ih =>
      rw [joinAll_cons hgids, owed, List.mem_append, owedByChange] at h
      rcases h with h | h
      · split at h
        · next hts => exact hts ▸ List.mem_cons_self
        · exact absurd h List.not_mem_nil
      · exact List.mem_cons_of_mem _ (ih h)

end Script

/-- The groups that a task will make `s` join by what it has not handed in yet. -/
def Job.owed (s : SessionRef) : Job → List Int64
  | .ready script | .awaitingGroups script => script.owed s
  | .awaitingIndex _ | .abandoned => []

/-- The actions that a task has left, once it has the answer it waits for. -/
def Job.steps : Job → Nat
  | .ready script | .awaitingGroups script => script.steps
  | .awaitingIndex next => (next []).steps
  | .abandoned => 0

namespace Crowd

/-- The groups that task `i` will make `s` join by what it has not handed in yet. -/
def owedBy (c : Crowd) (i : Nat) (s : SessionRef) : List Int64 :=
  match c.jobs[i]? with
  | some job => job.owed s
  | none => []

/-- The groups that `s` is still to join: by a mutation in the queue, or by what task `i` has not
handed in yet. -/
def owed (c : Crowd) (i : Nat) (s : SessionRef) : List Int64 :=
  c.groupQueue.flatMap (fun e => owedByChange s e.2) ++ c.owedBy i s

/-- In the run of `schedule` there is a moment, the crowd `mid`, at which task `i` moves and
`script` is what it has before it. -/
def Passes (c : Crowd) (schedule : List Move) (i : Nat) (script : Script) (mid : Crowd) : Prop :=
  ∃ before after, schedule = before ++ .job i :: after ∧ c.follow? before = some mid ∧
    mid.jobs[i]? = some (.ready script)

/-- The groups of `s` once the queue is worked off and the command, task 0, has handed in the
rest. -/
def Promised (c : Crowd) (s : SessionRef) (gid : Int64) : Prop :=
  gid ∈ ((c.groupQueue.map Prod.snd).foldl Groups.apply c.node.groups).groupsOf s ∨
    gid ∈ c.owedBy 0 s

/-- A task that is dropped stays dropped. -/
def IsAbandoned (c : Crowd) (i : Nat) : Prop := c.jobs[i]? = some .abandoned

theorem follow?_cons (c : Crowd) (m : Move) (schedule : List Move) :
    c.follow? (m :: schedule) = (c.move? m).bind (·.follow? schedule) := by
  simp [follow?, List.foldlM_cons]

theorem Passes.cons {c c' : Crowd} {m : Move} (hm : c.move? m = some c') {schedule : List Move}
    {i : Nat} {script : Script} {mid : Crowd} (h : c'.Passes schedule i script mid) :
    c.Passes (m :: schedule) i script mid := by
  obtain ⟨before, after, rfl, hmid, hjob⟩ := h
  refine ⟨m :: before, after, rfl, ?_, hjob⟩
  rw [follow?_cons, hm]
  exact hmid

theorem not_passes_nil (c : Crowd) (i : Nat) (script : Script) (mid : Crowd) :
    ¬ c.Passes [] i script mid := by
  rintro ⟨before, after, hsplit, -, -⟩
  simp at hsplit

/-- The moment is the first of the run, or it comes after the first move. -/
theorem Passes.of_cons {c : Crowd} {m : Move} {schedule : List Move} {i : Nat} {script : Script}
    {mid : Crowd} (h : c.Passes (m :: schedule) i script mid) :
    (m = .job i ∧ mid = c ∧ c.jobs[i]? = some (.ready script)) ∨
      ∃ next, c.move? m = some next ∧ next.Passes schedule i script mid := by
  obtain ⟨before, after, hsplit, hmid, hjob⟩ := h
  -- on the moves before the moment
  cases before with
  | nil =>
    obtain rfl : c = mid := Option.some.inj hmid
    exact .inl ⟨(List.cons.inj hsplit).1, rfl, hjob⟩
  | cons m' before =>
    obtain ⟨rfl, rfl⟩ := List.cons.inj hsplit
    rw [follow?_cons] at hmid
    obtain ⟨next, hm, hrest⟩ := Option.bind_eq_some_iff.1 hmid
    exact .inr ⟨next, hm, before, after, rfl, hrest, hjob⟩

theorem Passes.head {c : Crowd} {i : Nat} {script : Script} (schedule : List Move)
    (h : c.jobs[i]? = some (.ready script)) : c.Passes (.job i :: schedule) i script c :=
  ⟨[], schedule, rfl, rfl, h⟩

/-! ## 2. Where the two tasks can be -/

variable {known : SessionRef → Prop} {uid : Int64} {gids : List Int64} {s : SessionRef}

/-- The stages of the command, with its mutations in the queue of the groups. -/
inductive CommandAt (known : SessionRef → Prop) (uid : Int64) (gids : List Int64) :
    Job → List GroupChange → Prop
  | start : CommandAt known uid gids (.ready (.subscribeUser uid gids)) []
  | next (l : List SessionRef) (hl : ∀ t ∈ l, known t) :
      CommandAt known uid gids (.ready (.joinAll gids l)) []
  | waiting (t : SessionRef) (l : List SessionRef) (ht : known t) (hl : ∀ t ∈ l, known t) :
      CommandAt known uid gids (.awaitingGroups (.joinAll gids l)) [.subscribe t gids]

/-- The stages of a closing connection, with its mutations in the queues of the index and of the
groups. -/
inductive ExitAt (s : SessionRef) : Job → List IndexChange → List GroupChange → Prop
  | start : ExitAt s (.ready (.leave s)) [] []
  | closed : ExitAt s (.ready (.mutate (.remove s) fun _ => .unsubscribeAll s .done)) [] []
  | removing : ExitAt s (.awaitingIndex fun _ => .unsubscribeAll s .done) [.remove s] []
  | looking : ExitAt s (.ready (.unsubscribeAll s .done)) [] []
  | handing (left : List Int64) (h : left ≠ []) :
      ExitAt s (.ready (.regroup (.unsubscribe s left) .done)) [] []
  | leaving (left : List Int64) : ExitAt s (.awaitingGroups .done) [] [.unsubscribe s left]
  | finished : ExitAt s (.ready .done) [] []

/-- The mutations of one task in a queue. -/
def entriesOf {α : Type} (i : Nat) (queue : List (Nat × α)) : List α :=
  (queue.filter fun e => e.1 = i).map Prod.snd

/-- A crowd of the command, task 0, and the closing connection, task 1. -/
structure Underway (known : SessionRef → Prop) (uid : Int64) (gids : List Int64) (s : SessionRef)
    (c : Crowd) (command exit : Job) (roster : List SessionRef) : Prop where
  jobs : c.jobs = [command, exit]
  orderly : c.node.Orderly known roster
  indexQueue : ∀ e ∈ c.indexQueue, e.1 = 1
  groupQueue : ∀ e ∈ c.groupQueue, e.1 = 0 ∨ e.1 = 1
  commandAt : CommandAt known uid gids command (entriesOf 0 c.groupQueue)
  exitAt : ExitAt s exit (c.indexQueue.map Prod.snd) (entriesOf 1 c.groupQueue)

/-! ## 3. One move -/

theorem entriesOf_append {α : Type} (i j : Nat) (queue : List (Nat × α)) (x : α) :
    entriesOf i (queue ++ [(j, x)]) = entriesOf i queue ++ if j = i then [x] else [] := by
  rw [entriesOf, List.filter_append, List.map_append, ← entriesOf]
  by_cases hij : j = i <;> simp [hij]

theorem entriesOf_cons {α : Type} (i j : Nat) (x : α) (queue : List (Nat × α)) :
    entriesOf i ((j, x) :: queue) =
      if j = i then x :: entriesOf i queue else entriesOf i queue := by
  by_cases hij : j = i <;> simp [entriesOf, hij]

variable {c c' : Crowd} {command exit : Job} {roster : List SessionRef}

/-- A mutation put at the end of the queue tells right away in what is promised. -/
theorem promised_append (c : Crowd) {left : List Int64} (hjobs : c'.owedBy 0 s = left) {i : Nat}
    {op : GroupChange} (hnode : c'.node = c.node)
    (hqueue : c'.groupQueue = c.groupQueue ++ [(i, op)]) (gid : Int64) :
    c'.Promised s gid ↔
      gid ∈ (((c.groupQueue.map Prod.snd).foldl Groups.apply c.node.groups).apply op).groupsOf s ∨
        gid ∈ left := by
  rw [Promised, hjobs, hnode, hqueue, List.map_append, List.foldl_append]
  rfl

/-- The command moves: it looks for the sessions, or hands in the next mutation. -/
theorem Underway.moveCommand (hs : known s)
    (h : Underway known uid gids s c command exit roster) (hm : c.move? (.job 0) = some c') :
    ∃ command', Underway known uid gids s c' command' exit roster ∧
      (s ∉ roster → ∀ gid, c'.Promised s gid ↔ c.Promised s gid) := by
  have hjob : c.jobs[0]? = some command := by rw [h.jobs]; rfl
  have hat := h.commandAt
  generalize hq : entriesOf 0 c.groupQueue = entries at hat
  rw [move?, hjob] at hm
  cases hat with
  | start =>
    -- the look at the index: only what it finds is owed anything from here
    obtain rfl : _ = c' := Option.some.inj hm
    refine ⟨_, ⟨by simp only [setJob, h.jobs]; rfl, h.orderly, h.indexQueue, h.groupQueue, ?_,
      h.exitAt⟩, fun hgone gid => ?_⟩
    · show CommandAt known uid gids (.ready (.joinAll gids (c.node.index.ofUser uid))) _
      simp only [setJob, hq]
      exact .next _ fun t ht => h.orderly.known_of_mem_ofUser ht
    · -- what the look has found does not hold `s`
      have hnone : ∀ gid, gid ∉ (Script.joinAll gids (c.node.index.ofUser uid)).owed s :=
        fun gid hgid => hgone (h.orderly.represents.mem_ofUser.1 (Script.mem_owed_joinAll hgid)).1
      simp only [Promised, owedBy, hjob]
      simp only [setJob, h.jobs]
      exact or_congr_right
        ⟨fun hgid => absurd hgid (hnone gid), fun hgid => absurd hgid List.not_mem_nil⟩
  | next l hl =>
    by_cases hgids : gids = []
    · rw [hgids, Script.joinAll_nil_groups] at hm
      cases hm
    · cases l with
      | nil => cases hm
      | cons t l =>
        -- the next mutation goes to the end of the queue
        rw [Script.joinAll_cons hgids] at hm hjob
        simp only [act, h.orderly.groupWriter, if_true] at hm
        obtain rfl : _ = c' := Option.some.inj hm
        have ht := hl t List.mem_cons_self
        refine ⟨.awaitingGroups (.joinAll gids l), ⟨by simp only [setJob, h.jobs]; rfl,
          h.orderly, h.indexQueue, ?_, ?_, ?_⟩, fun _ gid => ?_⟩
        · intro e he
          rcases List.mem_append.1 he with he | he
          · exact h.groupQueue e he
          · exact .inl (List.mem_singleton.1 he ▸ rfl)
        · simp only [setJob, entriesOf_append, hq]
          exact .waiting t l ht fun u hu => hl u (List.mem_cons_of_mem _ hu)
        · simpa [setJob, entriesOf_append] using h.exitAt
        · have howed : ({ c with groupQueue := c.groupQueue ++ [(0, GroupChange.subscribe t gids)]
              }.setJob 0 (.awaitingGroups (.joinAll gids l))).owedBy 0 s =
                (Script.joinAll gids l).owed s := by
            simp only [owedBy, setJob, h.jobs]
            rfl
          rw [promised_append c howed rfl rfl]
          simp only [Promised, owedBy, hjob, Job.owed, Script.owed, List.mem_append, Groups.apply,
            Groups.mem_groupsOf_subscribe, owedByChange]
          have hslot : t.slot = s.slot ↔ t = s :=
            ⟨h.orderly.distinct.eq_of_slot t s ht hs, fun hts => hts ▸ rfl⟩
          rw [hslot]
          split
          · next hts => simp [hts, or_assoc]
          · next hts => simp [hts]
  -- a task that waits does not move
  | waiting t l ht hl => cases hm

/-- The writer of the groups takes a mutation, which changes nothing of what is promised. -/
theorem Underway.moveGroups (hs : known s)
    (h : Underway known uid gids s c command exit roster) (hm : c.move? .groupWriter = some c') :
    ∃ command' exit', Underway known uid gids s c' command' exit' roster ∧
      (exit' = exit ∨ exit = .awaitingGroups .done ∧ exit' = .ready .done) ∧
      ∀ gid, c'.Promised s gid ↔ c.Promised s gid := by
  have hcommand := h.commandAt
  have hexit := h.exitAt
  rw [move?, writeGroups] at hm
  match hqueue : c.groupQueue with
  | [] => rw [hqueue] at hm; cases hm
  | (i, op) :: rest =>
    rw [hqueue] at hm hcommand hexit
    rw [entriesOf_cons] at hcommand hexit
    simp only [Node.regroup_of_writer h.orderly.groupWriter] at hm
    rcases h.groupQueue (i, op) (hqueue ▸ List.mem_cons_self) with hi | hi
    · -- the command's mutation: the command goes on
      obtain rfl : i = 0 := hi
      simp only [if_true, Nat.zero_ne_one, if_false] at hcommand hexit
      generalize hentries : entriesOf 0 rest = entries at hcommand
      cases hcommand with
      | waiting t l ht hl =>
        have hjob : c.jobs[0]? = some (.awaitingGroups (.joinAll gids l)) := by rw [h.jobs]; rfl
        simp only [hjob] at hm
        obtain rfl : _ = c' := Option.some.inj hm
        refine ⟨.ready (.joinAll gids l), exit, ⟨by simp only [setJob, h.jobs]; rfl,
          h.orderly.subscribe ht gids, h.indexQueue, ?_, ?_, ?_⟩, .inl rfl, fun gid => ?_⟩
        · exact fun e he => h.groupQueue e (hqueue ▸ List.mem_cons_of_mem _ he)
        · simp only [setJob, hentries]
          exact .next l hl
        · exact hexit
        · simp only [Promised, owedBy, hjob, hqueue]
          simp only [setJob, h.jobs]
          rfl
    · -- the closing task's mutation: that task is done
      obtain rfl : i = 1 := hi
      simp only [if_true, Nat.one_ne_zero, if_false] at hcommand hexit
      generalize hentries : entriesOf 1 rest = entries at hexit
      generalize hindex : c.indexQueue.map Prod.snd = index at hexit
      cases hexit with
      | leaving left =>
        have hjob : c.jobs[1]? = some (.awaitingGroups .done) := by rw [h.jobs]; rfl
        simp only [hjob] at hm
        obtain rfl : _ = c' := Option.some.inj hm
        refine ⟨command, .ready .done, ⟨by simp only [setJob, h.jobs]; rfl,
          h.orderly.unsubscribe hs left, h.indexQueue, ?_, ?_, ?_⟩, .inr ⟨rfl, rfl⟩, fun gid => ?_⟩
        · exact fun e he => h.groupQueue e (hqueue ▸ List.mem_cons_of_mem _ he)
        · exact hcommand
        · simp only [setJob, hindex, hentries]
          exact .finished
        · simp only [Promised, owedBy, hqueue]
          simp only [setJob, h.jobs]
          rfl

/-- The writer of the index takes the session out and lets the closing task go on. -/
theorem Underway.moveIndex (hs : known s)
    (h : Underway known uid gids s c command exit roster) (hm : c.move? .indexWriter = some c') :
    exit = .awaitingIndex (fun _ => .unsubscribeAll s .done) ∧
      Underway known uid gids s c' command (.ready (.unsubscribeAll s .done))
        (roster.filter fun t => !t.same s) := by
  have hexit := h.exitAt
  generalize hentries : entriesOf 1 c.groupQueue = entries at hexit
  rw [move?, writeIndex] at hm
  match hqueue : c.indexQueue with
  | [] => rw [hqueue] at hm; cases hm
  | (i, op) :: rest =>
    -- only the closing task has anything in this queue
    have hi : i = 1 := h.indexQueue (i, op) (hqueue ▸ List.mem_cons_self)
    subst hi
    rw [hqueue, List.map_cons] at hexit
    generalize hrest : rest.map Prod.snd = ops at hexit
    cases hexit with
    | removing =>
      have hjob : c.jobs[1]? = some (.awaitingIndex fun _ => .unsubscribeAll s .done) := by
        rw [h.jobs]; rfl
      rw [hqueue] at hm
      simp only [Node.mutate_of_writer h.orderly.indexWriter, hjob] at hm
      obtain rfl : _ = c' := Option.some.inj hm
      obtain rfl : rest = [] := List.map_eq_nil_iff.1 hrest
      refine ⟨rfl, ⟨by simp only [setJob, h.jobs]; rfl, h.orderly.remove hs, by simp [setJob],
        h.groupQueue, h.commandAt, ?_⟩⟩
      simp only [setJob, hentries]
      exact .looking

/-- The closing task has not come to its look at the groups. -/
def IsOpening (s : SessionRef) (exit : Job) : Prop :=
  exit = .ready (.leave s) ∨
    exit = .ready (.mutate (.remove s) fun _ => .unsubscribeAll s .done) ∨
    exit = .awaitingIndex fun _ => .unsubscribeAll s .done

/-- At the start of the closing task, more is left to do than after its look. -/
theorem IsOpening.two_le_steps (h : IsOpening s exit) : 2 ≤ exit.steps := by
  rcases h with rfl | rfl | rfl
  · show 2 ≤ 4
    decide
  · show 2 ≤ 3
    decide
  · show 2 ≤ 2
    decide

/-- The closing task moves: it closes the session, hands in its removal, looks up its groups, or
hands in that it leaves them. -/
theorem Underway.moveExit (h : Underway known uid gids s c command exit roster)
    (hm : c.move? (.job 1) = some c') :
    (∃ exit', IsOpening s exit ∧ IsOpening s exit' ∧ exit'.steps < exit.steps ∧
      Underway known uid gids s c' command exit' roster) ∨
    (exit = .ready (.unsubscribeAll s .done) ∧
      Underway known uid gids s c' command
        (.ready (.unsubscribe s (c.node.groups.groupsOf s) .done)) roster ∧
      ∀ gid, c'.Promised s gid ↔ c.Promised s gid) ∨
    (∃ left, exit = .ready (.regroup (.unsubscribe s left) .done) ∧
      Underway known uid gids s c' command (.awaitingGroups .done) roster ∧
      ∀ gid, c'.Promised s gid ↔ (c.Promised s gid ∧ gid ∉ left) ∨ gid ∈ c.owedBy 0 s) := by
  have hjob : c.jobs[1]? = some exit := by rw [h.jobs]; rfl
  have hat := h.exitAt
  generalize hentries : entriesOf 1 c.groupQueue = entries at hat
  generalize hindex : c.indexQueue.map Prod.snd = index at hat
  rw [move?, hjob] at hm
  cases hat with
  -- it closes its session, which matters to no registry
  | start =>
    obtain rfl : _ = c' := Option.some.inj hm
    refine .inl ⟨_, .inl rfl, .inr (.inl rfl), Nat.lt_succ_self _,
      by simp only [setJob, h.jobs]; rfl,
      h.orderly.withPost _, h.indexQueue, h.groupQueue, h.commandAt, ?_⟩
    simp only [setJob, hentries, hindex]
    exact .closed
  -- the removal goes to the writer of the index
  | closed =>
    simp only [act, h.orderly.indexWriter, if_true] at hm
    obtain rfl : _ = c' := Option.some.inj hm
    obtain hnil : c.indexQueue = [] := List.map_eq_nil_iff.1 hindex
    refine .inl ⟨_, .inr (.inl rfl), .inr (.inr rfl), Nat.lt_succ_self _,
      by simp only [setJob, h.jobs]; rfl,
      h.orderly, by simp [setJob, hnil], h.groupQueue, h.commandAt, ?_⟩
    simp only [setJob, hentries, hnil]
    exact .removing
  -- what it sees now is all that it will leave; seeing nothing, it is done
  | looking =>
    simp only [Script.unsubscribeAll, act] at hm
    obtain rfl : _ = c' := Option.some.inj hm
    refine .inr (.inl ⟨rfl, ⟨by simp only [setJob, h.jobs]; rfl, h.orderly, h.indexQueue,
      h.groupQueue, h.commandAt, ?_⟩, ?_⟩)
    · simp only [setJob, hentries, hindex, Script.unsubscribe]
      split
      · exact .finished
      · next hne => exact .handing _ (by simpa using hne)
    · simp [Promised, owedBy, setJob, h.jobs]
  | handing left hleft =>
    -- behind what the queue holds already, so only what is still unsubmitted comes after it
    simp only [act, h.orderly.groupWriter, if_true] at hm
    obtain rfl : _ = c' := Option.some.inj hm
    refine .inr (.inr ⟨left, rfl, ⟨by simp only [setJob, h.jobs]; rfl, h.orderly, h.indexQueue,
      ?_, ?_, ?_⟩, ?_⟩)
    · intro e he
      rcases List.mem_append.1 he with he | he
      · exact h.groupQueue e he
      · exact .inr (List.mem_singleton.1 he ▸ rfl)
    · simpa [setJob, entriesOf_append] using h.commandAt
    · simp only [setJob, entriesOf_append, hentries, hindex]
      exact .leaving left
    · intro gid
      have howed : ({ c with groupQueue := c.groupQueue ++ [(1, GroupChange.unsubscribe s left)]
          }.setJob 1 (.awaitingGroups .done)).owedBy 0 s = c.owedBy 0 s := by
        simp only [owedBy, setJob, h.jobs]
        rfl
      rw [promised_append c howed rfl rfl, Groups.apply, Groups.mem_groupsOf_unsubscribe, Promised]
      by_cases hgid : gid ∈ left <;> simp [hgid]
  -- the stages in which it waits or is done
  | removing => cases hm
  | leaving left => cases hm
  | finished => cases hm

end Crowd

end Switchboard.Gateway
