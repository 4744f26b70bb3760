import Switchboard.Proofs.Gateway.Journal

/-!
# Course — what an act does to one session

A session that is served sees of any act one of few things: a step of its own task, something that
its client does, an envelope, the clock, or nothing. Once its task is over, no act sees it again. So
what holds along every course holds in every run.
-/

namespace Switchboard.Gateway

open Session WebSocket

namespace Journal

variable {j j' : Journal} {name n : String} {c : Client Task} {v v' : Serving} {s : SessionRef}
  {turn : Turn} {choice : Option Wakeup}

/-! ## 1. Acts of others -/

/-- What another client does, or its task: the client of the session and its mailbox stay as they
are, and so does its diary. -/
structure Undisturbed (j j' : Journal) (name : String) (s : SessionRef) : Prop where
  client : served? j'.endpoint name = served? j.endpoint name
  box : j'.box s = j.box s
  diary : j'.diary s.slot = j.diary s.slot
  now : j'.now = j.now

theorem Undisturbed.refl (j : Journal) (name : String) (s : SessionRef) :
    Undisturbed j j name s :=
  ⟨rfl, rfl, rfl, rfl⟩

theorem served?_of_get? {e e' : Endpoint Node Task}
    (h : e'.clients.get? name = e.clients.get? name) : served? e' name = served? e name := by
  unfold served?
  rw [h]

/-- Two clients have two sessions, and these two slots. -/
theorem Sound.slot_ne (h : j.Sound) {c' : Client Task}
    (hserved : served? j.endpoint name = some (c, v))
    (hserved' : served? j.endpoint n = some (c', v')) (hn : n ≠ name) :
    v.session.slot ≠ v'.session.slot := by
  obtain ⟨kicked, hkeeps⟩ := h
  have hname := handsOf_of_served hserved
  have hother := handsOf_of_served hserved'
  refine hkeeps.slot_ne (hkeeps.accepted_of_hold _ ⟨n, hother⟩)
    (hkeeps.accepted_of_hold _ ⟨name, hname⟩) fun hsame => hn ?_
  exact hkeeps.apart n name _ hother (hsame ▸ hname)

theorem Sound.undisturbed_take (h : j.Sound) {c' : Client Task}
    (hserved : served? j.endpoint name = some (c, v))
    (hserved' : served? j.endpoint n = some (c', v')) (hn : n ≠ name)
    (htaken : v'.Taken j.now c'.socket j.node choice turn) :
    Undisturbed j (j.take n c' v' turn) name v.session := by
  have hslot := h.slot_ne hserved hserved' hn
  refine ⟨served?_of_get? ?_, ?_, Function.update_of_ne hslot _ _, rfl⟩
  · exact (Table.get?_insert _ _ _ _).trans (if_neg hn)
  · cases h.outcome htaken with
    | stays _ hnode => exact hnode.box _ hslot
    | departs _ hnode => exact hnode.box _ hslot

theorem Sound.undisturbed_touch (h : j.Sound) {c' : Client Task}
    (hserved : served? j.endpoint name = some (c, v))
    (hserved' : served? j.endpoint n = some (c', v')) (hn : n ≠ name) (gesture : Gesture) :
    Undisturbed j (j.touch n v' gesture) name v.session := by
  have hslot := h.slot_ne hserved hserved' hn
  refine ⟨served?_of_get? ?_, rfl, Function.update_of_ne hslot _ _, rfl⟩
  exact (Table.get?_modify _ _ _ _).trans (if_neg hn)

theorem Sound.undisturbed_join (h : j.Sound) (hserved : served? j.endpoint name = some (c, v))
    (hfree : served? j.endpoint n = none) (id : UInt64) (uid : Int64) (token : String)
    (gids : List Int64) : Undisturbed j (j.join n id uid token gids) name v.session := by
  obtain ⟨kicked, hkeeps⟩ := h
  have hs := hkeeps.accepted_of_hold _ ⟨name, handsOf_of_served hserved⟩
  have hn : n ≠ name := by
    rintro rfl
    rw [hfree] at hserved
    cases hserved
  refine ⟨served?_of_get? ?_, hkeeps.box_enter rfl gids hs, ?_, rfl⟩
  · exact (Table.get?_insert _ _ _ _).trans (if_neg hn)
  · exact Function.update_of_ne (Nat.ne_of_lt (hkeeps.slot_lt hs)) _ _

/-! ## 2. The client and the diary of a session after an act -/

theorem served?_join (j : Journal) (name : String) (id : UInt64) (uid : Int64) (token : String)
    (gids : List Int64) :
    served? (j.join name id uid token gids).endpoint name =
      some (j.visitor (j.newcomer id uid token), j.beginning (j.newcomer id uid token)) :=
  served?_eq_some_iff.2 ⟨(Table.get?_insert _ _ _ _).trans (if_pos rfl), rfl⟩

theorem diary_join (j : Journal) (name : String) (id : UInt64) (uid : Int64) (token : String)
    (gids : List Int64) :
    (j.join name id uid token gids).diary (j.newcomer id uid token).slot = { opened := j.now } :=
  Function.update_self _ _ _

theorem Sound.box_join (h : j.Sound) (name : String) (id : UInt64) (uid : Int64) (token : String)
    (gids : List Int64) :
    (j.join name id uid token gids).box (j.newcomer id uid token) = {} := by
  obtain ⟨kicked, hkeeps⟩ := h
  have hpost : (j.join name id uid token gids).node.post =
      (j.node.openSession id uid token false).2.post := hkeeps.post_entered rfl gids
  rw [box, hpost]
  exact (Post.box_openBox _ _ _).trans (if_pos rfl)

theorem served?_take_of_serving (htask : turn.task = .serving v') :
    served? (j.take name c v turn).endpoint name =
      some ({ c with socket := turn.socket, task := turn.task }, v') :=
  served?_eq_some_iff.2 ⟨(Table.get?_insert _ _ _ _).trans (if_pos rfl), htask⟩

theorem served?_take_of_finished (htask : turn.task = .finished) :
    served? (j.take name c v turn).endpoint name = none := by
  have hget : (j.take name c v turn).endpoint.clients.get? name =
      some { c with socket := turn.socket, task := turn.task } :=
    (Table.get?_insert _ _ _ _).trans (if_pos rfl)
  unfold served?
  rw [hget]
  dsimp only
  rw [htask]

theorem served?_touch (hserved : served? j.endpoint name = some (c, v)) (gesture : Gesture) :
    served? (j.touch name v gesture).endpoint name = some (gesture.apply c, v) := by
  obtain ⟨hget, htask⟩ := served?_eq_some_iff.1 hserved
  refine served?_eq_some_iff.2 ⟨?_, ?_⟩
  · refine (Table.get?_modify _ _ _ _).trans ?_
    rw [if_pos rfl, hget]
    rfl
  · cases gesture <;> exact htask

theorem diary_take (j : Journal) (name : String) (c : Client Task) (v : Serving) (turn : Turn) :
    (j.take name c v turn).diary v.session.slot =
      (j.diary v.session.slot).write j.now (Pipe.sentSince c.socket.pipe turn.socket.pipe) :=
  Function.update_self _ _ _

theorem diary_touch (j : Journal) (name : String) (v : Serving) (gesture : Gesture) :
    (j.touch name v gesture).diary v.session.slot =
      gesture.note j.now (j.diary v.session.slot) :=
  Function.update_self _ _ _

theorem diary_accept (j : Journal) (envelope : Wire.Envelope) (slot : Nat) :
    (j.accept envelope).diary slot =
      (j.diary slot).enqueue j.heard.length
        ((((j.node.accept envelope).1.post.box slot).queue.drop
          (j.node.post.box slot).queue.length).map (j.node.accept envelope).1.post.pool.bytes) :=
  rfl

/-! ## 3. The courses of a session -/

/-- What an act is for a session that is served, and who is served after it. -/
inductive Course (j : Journal) (name : String) (c : Client Task) (v : Serving) :
    Act → Journal → Option (Client Task × Serving) → Prop where
  | step {choice : Option Wakeup} {turn : Turn} {v' : Serving}
      (htaken : v.Taken j.now c.socket j.node choice turn) (htask : turn.task = .serving v') :
      Course j name c v (.step name choice) (j.take name c v turn)
        (some ({ c with socket := turn.socket, task := turn.task }, v'))
  | ended {choice : Option Wakeup} {turn : Turn}
      (htaken : v.Taken j.now c.socket j.node choice turn) (htask : turn.task = .finished) :
      Course j name c v (.step name choice) (j.take name c v turn) none
  | touch (gesture : Gesture) (hthere : c.socket.gone = false) :
      Course j name c v (.touch name gesture) (j.touch name v gesture) (some (gesture.apply c, v))
  | accept (envelope : Wire.Envelope) :
      Course j name c v (.accept envelope) (j.accept envelope) (some (c, v))
  | pass (span : Nat) : Course j name c v (.pass span) (j.pass span) (some (c, v))
  | other {a : Act} {j' : Journal} (h : Undisturbed j j' name v.session) :
      Course j name c v a j' (some (c, v))

theorem Undisturbed.course (h : Undisturbed j j' name v.session)
    (hserved : served? j.endpoint name = some (c, v)) (a : Act) :
    Course j name c v a j' (served? j'.endpoint name) := by
  rw [h.client, hserved]
  exact .other h

theorem Sound.course_take (h : j.Sound) (htaken : v.Taken j.now c.socket j.node choice turn) :
    Course j name c v (.step name choice) (j.take name c v turn)
      (served? (j.take name c v turn).endpoint name) := by
  cases htask : turn.task with
  | serving v' =>
    rw [served?_take_of_serving htask]
    exact .step htaken htask
  | finished =>
    rw [served?_take_of_finished htask]
    exact .ended htaken htask
  | refusing =>
    -- no task goes back to where it had no session
    cases h.outcome htaken with
    | stays hsession _ => simp [htask, Task.session?] at hsession
    | departs hfinished _ => simp [htask] at hfinished

/-- Whatever is done, a session that is served takes one of these courses. -/
theorem Sound.course (h : j.Sound) (hserved : served? j.endpoint name = some (c, v)) (a : Act) :
    Course j name c v a (j.act a) (served? (j.act a).endpoint name) := by
  have hacted := j.acted a
  generalize j.act a = j' at hacted ⊢
  cases hacted with
  | join hfree hid => exact (h.undisturbed_join hserved hfree _ _ _ _).course hserved _
  | @step n choice c' v' turn hserved' htaken =>
    by_cases hn : n = name
    · subst hn
      obtain ⟨rfl, rfl⟩ := Prod.mk.inj (Option.some.inj (hserved.symm.trans hserved'))
      exact h.course_take htaken
    · exact (h.undisturbed_take hserved hserved' hn htaken).course hserved _
  | @touch n gesture c' v' hserved' hthere =>
    by_cases hn : n = name
    · subst hn
      obtain ⟨rfl, rfl⟩ := Prod.mk.inj (Option.some.inj (hserved.symm.trans hserved'))
      rw [served?_touch hserved]
      exact .touch gesture hthere
    · exact (h.undisturbed_touch hserved hserved' hn gesture).course hserved _
  | @accept envelope =>
    have hsame : served? (j.accept envelope).endpoint name = some (c, v) := hserved
    rw [hsame]
    exact .accept envelope
  | @pass span =>
    have hsame : served? (j.pass span).endpoint name = some (c, v) := hserved
    rw [hsame]
    exact .pass span
  | idle => exact (Undisturbed.refl j name v.session).course hserved a

/-- Who is served and was not before has just been admitted. -/
theorem served_of_act (hfree : served? j.endpoint name = none) {a : Act}
    (hserved : served? (j.act a).endpoint name = some (c, v)) :
    ∃ id uid token gids, (∀ s ∈ j.sessions, s.id ≠ id) ∧
      j.act a = j.join name id uid token gids ∧ c = j.visitor (j.newcomer id uid token) ∧
      v = j.beginning (j.newcomer id uid token) := by
  have hsame : ∀ {e : Endpoint Node Task}, e.clients.get? name = j.endpoint.clients.get? name →
      served? e name ≠ some (c, v) := by
    intro e hget hsome
    rw [served?_of_get? hget, hfree] at hsome
    cases hsome
  have hother : ∀ {n : String} {x : Client Task × Serving}, served? j.endpoint n = some x →
      n ≠ name := by
    rintro n x hx rfl
    rw [hfree] at hx
    cases hx
  have hacted := j.acted a
  generalize j.act a = j' at hacted hserved ⊢
  cases hacted with
  | @join n id uid token gids hfree' hid =>
    by_cases hn : n = name
    · subst hn
      obtain ⟨hget, htask⟩ := served?_eq_some_iff.1 hserved
      have hnew : (j.join n id uid token gids).endpoint.clients.get? n =
          some (j.visitor (j.newcomer id uid token)) :=
        (Table.get?_insert _ _ _ _).trans (if_pos rfl)
      obtain rfl := Option.some.inj (hnew.symm.trans hget)
      exact ⟨id, uid, token, gids, hid, rfl, rfl, (Task.serving.inj htask).symm⟩
    · exact absurd hserved (hsame ((Table.get?_insert _ _ _ _).trans (if_neg hn)))
  | step hserved' htaken =>
    exact absurd hserved (hsame ((Table.get?_insert _ _ _ _).trans (if_neg (hother hserved'))))
  | touch hserved' hthere =>
    exact absurd hserved (hsame ((Table.get?_modify _ _ _ _).trans (if_neg (hother hserved'))))
  | accept => exact absurd hserved (hsame rfl)
  | pass => exact absurd hserved (hsame rfl)
  | idle => exact absurd hserved (hsame rfl)

/-- What holds of a session when it is admitted, and along each course on which it is served on,
holds of every session that is served. -/
theorem served_induction {motive : Journal → String → Client Task → Serving → Prop}
    (hnew : ∀ (j : Journal) (name : String) (id : UInt64) (uid : Int64) (token : String)
      (gids : List Int64), j.Sound → motive (j.join name id uid token gids) name
        (j.visitor (j.newcomer id uid token)) (j.beginning (j.newcomer id uid token)))
    (hcourse : ∀ {j name c v a j' c' v'}, j.Sound → served? j.endpoint name = some (c, v) →
      motive j name c v → Course j name c v a j' (some (c', v')) → motive j' name c' v')
    {room : Nat} (acts : List Act)
    (hserved : served? ((start room).after acts).endpoint name = some (c, v)) :
    motive ((start room).after acts) name c v := by
  induction acts using List.reverseRecOn generalizing c v with
  | nil => cases hserved
  | append_singleton acts a ih =>
    have hsound := (sound_start room).after acts
    rw [after_concat] at hserved ⊢
    -- the last act has admitted the session, or the session was served before it
    cases hbefore : served? ((start room).after acts).endpoint name with
    | none =>
      obtain ⟨id, uid, token, gids, -, hact, rfl, rfl⟩ := served_of_act hbefore hserved
      rw [hact]
      exact hnew _ name id uid token gids hsound
    | some before =>
      have hnext := hsound.course hbefore a
      rw [hserved] at hnext
      exact hcourse hsound hbefore (ih hbefore) hnext

/-! ## 4. The clock -/

theorem le_clock (j : Journal) (span : Nat) : j.now ≤ j.clock span := by
  unfold clock
  split <;> omega

theorem now_le_act (j : Journal) (a : Act) : j.now ≤ (j.act a).now := by
  have hacted := j.acted a
  generalize j.act a = j' at hacted ⊢
  cases hacted with
  | pass => exact j.le_clock _
  | join | step | touch | accept | idle => exact Nat.le_refl _

/-- Time does not pass beyond the moment at which a task acts by itself. -/
theorem clock_le (hserved : served? j.endpoint name = some (c, v)) {d : Nat}
    (hd : v.deadline? = some d) (span : Nat) : j.clock span ≤ max j.now d := by
  obtain ⟨hget, htask⟩ := served?_eq_some_iff.1 hserved
  have hmem : d ∈ j.endpoint.clients.values.filterMap
      fun c => ConnectionTask.deadline? Node c.task := by
    refine List.mem_filterMap.2 ⟨c, ?_, ?_⟩
    · exact List.mem_map.2 ⟨(name, c), (j.endpoint.clients.mem_entries_iff name c).2 hget, rfl⟩
    · rw [htask]
      exact hd
  unfold clock
  split
  · next earliest hearliest =>
    have hle := (List.min?_eq_some_iff.1 hearliest).2 d hmem
    omega
  · next hnone => simp [List.min?_eq_none_iff.1 hnone] at hmem

/-! ## 5. Sessions whose task is over -/

/-- The session was accepted, and no task serves it any more. -/
def Over (j : Journal) (s : SessionRef) : Prop := s ∈ j.sessions ∧ ¬ (handsOf j.endpoint).Hold s

theorem Sound.mem_sessions (h : j.Sound) (hserved : served? j.endpoint name = some (c, v)) :
    v.session ∈ j.sessions := by
  obtain ⟨kicked, hkeeps⟩ := h
  exact hkeeps.accepted_of_hold _ ⟨name, handsOf_of_served hserved⟩

/-- Of a session that is over nothing is left. -/
theorem Sound.left_nothing (h : j.Sound) (hover : j.Over s) :
    (j.box s).isClosed = true ∧ (j.box s).queue = [] ∧ s ∉ j.node.index.all ∧
      j.node.groups.groupsOf s = [] := by
  obtain ⟨kicked, hkeeps⟩ := h
  obtain ⟨hclosed, hqueue⟩ := hkeeps.returned s hover.1 hover.2
  have hout : s ∉ j.node.index.all := fun hin => hover.2 ((hkeeps.registered s).1 hin).2.1
  exact ⟨hclosed, hqueue, hout, hkeeps.outside s hover.1 hout⟩

theorem Sound.over_take (h : j.Sound) (hserved : served? j.endpoint name = some (c, v))
    (htask : turn.task = .finished) : (j.take name c v turn).Over v.session := by
  have hs := h.mem_sessions hserved
  obtain ⟨kicked, hkeeps⟩ := h
  have hself : handsOf (j.take name c v turn).endpoint name = none := by
    rw [handsOf_take, if_pos rfl, htask]
    rfl
  have hothers : ∀ n, n ≠ name →
      handsOf (j.take name c v turn).endpoint n = handsOf j.endpoint n := by
    intro n hn
    rw [handsOf_take, if_neg hn]
  refine ⟨hs, fun hheld => ?_⟩
  exact ((hkeeps.apart.hold_iff_of_over hself hothers (handsOf_of_served hserved)).1 hheld).2 rfl

/-- What the tasks of other sessions do is nothing to a session that is over. -/
theorem Sound.over_act (h : j.Sound) (hover : j.Over s) (a : Act) :
    (j.act a).Over s ∧ (j.act a).diary s.slot = j.diary s.slot := by
  have hnot : ∀ {name : String} {c : Client Task} {v : Serving},
      served? j.endpoint name = some (c, v) → s ≠ v.session ∧ s.slot ≠ v.session.slot := by
    intro name c v hserved
    have hne : s ≠ v.session := by
      rintro rfl
      exact hover.2 ⟨name, handsOf_of_served hserved⟩
    have hmem := h.mem_sessions hserved
    obtain ⟨kicked, hkeeps⟩ := h
    exact ⟨hne, hkeeps.slot_ne hmem hover.1 hne⟩
  have hacted := j.acted a
  generalize j.act a = j' at hacted ⊢
  cases hacted with
  | @join name id uid token gids hfree hid =>
    obtain ⟨kicked, hkeeps⟩ := h
    have hslot : s.slot ≠ j.node.post.boxes.size := Nat.ne_of_lt (hkeeps.slot_lt hover.1)
    refine ⟨⟨List.mem_append_left _ hover.1, ?_⟩, Function.update_of_ne hslot _ _⟩
    rintro ⟨n, hn⟩
    have hn' : (if n = name then some (j.newcomer id uid token) else handsOf j.endpoint n) =
        some s := (handsOf_place _ _).symm.trans hn
    split at hn'
    · obtain rfl := Option.some.inj hn'
      exact hslot rfl
    · exact hover.2 ⟨n, hn'⟩
  | @step name choice c v turn hserved htaken =>
    obtain ⟨hne, hslot⟩ := hnot hserved
    refine ⟨⟨hover.1, ?_⟩, Function.update_of_ne hslot _ _⟩
    rintro ⟨n, hn⟩
    rw [handsOf_take] at hn
    split at hn
    -- the task goes on with its own session, or is over
    · cases h.outcome htaken with
      | stays htask _ => exact hne (Option.some.inj (hn.symm.trans htask))
      | departs htask _ => simp [htask, Task.session?] at hn
    · exact hover.2 ⟨n, hn⟩
  | touch hserved hthere =>
    refine ⟨⟨hover.1, ?_⟩, Function.update_of_ne (hnot hserved).2 _ _⟩
    rw [handsOf_touch]
    exact hover.2
  | @accept envelope =>
    refine ⟨hover, ?_⟩
    obtain ⟨hclosed, -⟩ := h.left_nothing hover
    have hqueue : ((j.node.accept envelope).1.post.box s.slot).queue =
        (j.node.post.box s.slot).queue := by
      obtain ⟨kicked, hkeeps⟩ := h
      cases envelope with
      | packet packet => exact congrArg Mailbox.queue ((hkeeps.box_deliver packet s.slot).2 hclosed)
      | command command => exact Node.queue_obey j.node command s.slot
    -- a closed mailbox takes nothing
    rw [diary_accept, hqueue]
    simp
  | pass => exact ⟨hover, rfl⟩
  | idle => exact ⟨hover, rfl⟩

theorem mem_sessions_act (hs : s ∈ j.sessions) (a : Act) : s ∈ (j.act a).sessions := by
  have hacted := j.acted a
  generalize j.act a = j' at hacted ⊢
  cases hacted with
  | join => exact List.mem_append_left _ hs
  | step | touch | accept | pass | idle => exact hs

/-- When a session began is never written anew. -/
theorem Sound.opened_act (h : j.Sound) (hs : s ∈ j.sessions) (a : Act) :
    ((j.act a).diary s.slot).opened = (j.diary s.slot).opened := by
  -- of the diary of a slot, at most the record that is kept of it grows
  have hupdate : ∀ {slot : Nat} {d : Diary}, d.opened = (j.diary slot).opened →
      (Function.update j.diary slot d s.slot).opened = (j.diary s.slot).opened := by
    intro slot d hd
    by_cases hslot : s.slot = slot
    · rw [← hslot] at hd ⊢
      rw [Function.update_self, hd]
    · rw [Function.update_of_ne hslot]
  have hacted := j.acted a
  generalize j.act a = j' at hacted ⊢
  cases hacted with
  | join hfree hid =>
    obtain ⟨kicked, hkeeps⟩ := h
    have hslot : s.slot ≠ j.node.post.boxes.size := Nat.ne_of_lt (hkeeps.slot_lt hs)
    exact congrArg Diary.opened (Function.update_of_ne hslot _ _)
  | step => exact hupdate rfl
  | @touch name gesture c v hserved hthere =>
    refine hupdate ?_
    cases gesture <;> rfl
  | accept | pass | idle => rfl

theorem Sound.opened_after (h : j.Sound) (hs : s ∈ j.sessions) (acts : List Act) :
    ((j.after acts).diary s.slot).opened = (j.diary s.slot).opened := by
  induction acts generalizing j with
  | nil => rfl
  | cons a acts ih => exact (ih (h.act a) (mem_sessions_act hs a)).trans (h.opened_act hs a)

end Journal

end Switchboard.Gateway
