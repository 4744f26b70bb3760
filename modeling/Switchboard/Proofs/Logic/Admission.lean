import Mathlib.Data.List.Induction
import Switchboard.Proofs.Config
import Switchboard.Proofs.Logic.Standing
import Switchboard.Startup

/-!
# Admission — a gateway that names itself in time gets its link

It gets one if the queue of a link can be made: each step of its task reads on towards the first
text, and whatever else happens takes nothing of that away. If the queue cannot be made, no gateway
ever gets a link. The capacity of the queues is the link buffer of the configuration, which is never
zero but can be greater than any queue.
-/

namespace Switchboard.Logic

open WebSocket

/-! ## 1. Queues -/

theorem checkCapacity_eq_ok_iff {capacity : Nat} :
    checkCapacity capacity = .ok () ↔ 0 < capacity ∧ capacity ≤ maxCapacity := by
  unfold checkCapacity
  split
  · next hzero => exact ⟨nofun, fun h => absurd hzero (Nat.ne_of_gt h.1)⟩
  split
  · next hlarge => exact ⟨nofun, fun h => absurd hlarge (Nat.not_lt.2 h.2)⟩
  · next hzero hlarge =>
    exact ⟨fun _ => ⟨Nat.pos_of_ne_zero hzero, Nat.not_lt.1 hlarge⟩, fun _ => rfl⟩

theorem checkCapacity_of_lt {capacity : Nat} (h : maxCapacity < capacity) :
    checkCapacity capacity = .error .tooLarge := by
  have hne : capacity ≠ 0 := Nat.ne_of_gt (Nat.lt_of_le_of_lt (Nat.zero_le _) h)
  rw [checkCapacity, if_neg hne, if_pos h]

/-! ## 2. Steps before there is a link -/

namespace Stream

variable {now deadline capacity : Nat} {socket : Socket} {hub : Hub} {turn : Turn}
  {hello : Wire.Hello} {rest : Reader}

/-- A task that has the names of its gateway before it can take a step: it reads on towards them, or
it takes them and has its link. -/
theorem exists_stepGreeting? (now deadline : Nat) (hub : Hub)
    (hcapacity : checkCapacity capacity = .ok ())
    (hhello : hello? socket.reader = some (hello, rest)) :
    ∃ turn, stepGreeting? now deadline capacity socket hub = some turn ∧
      (turn.task = .greeting deadline capacity ∧
          hello? turn.socket.reader = some (hello, rest) ∧
          turn.socket.reader.pending.length < socket.reader.pending.length ∨
        turn.task = .linked (hub.register hello.name hello.hostname capacity).1 none ∧
          turn.state = (hub.register hello.name hello.hostname capacity).2) := by
  cases hstep : stepGreeting? now deadline capacity socket hub with
  | none =>
    have hstarved : socket.reader.seek isText = .starved :=
      Reader.seek_of_starved (starved_of_step?_none hstep)
    rw [hello?_of_starved hstarved] at hhello
    cases hhello
  | some turn =>
    refine ⟨turn, rfl, ?_⟩
    cases greets_stepGreeting? hcapacity hstep with
    | waits hreader hless => exact .inl ⟨rfl, (hello?_congr hreader).symm.trans hhello, hless⟩
    | turnedAway log hnone =>
      rw [hnone] at hhello
      cases hhello
    | named hhello' =>
      cases hhello.symm.trans hhello'
      exact .inr ⟨rfl, rfl⟩

/-- Where no queue can be made, a task that greets goes on with that or ends. -/
theorem barred_of_stepGreeting? {fault : CapacityFault}
    (hfault : checkCapacity capacity = .error fault)
    (h : stepGreeting? now deadline capacity socket hub = some turn) :
    turn.state = hub ∧ (turn.task = .greeting deadline capacity ∨ turn.task = .finished) := by
  cases listens_stepGreeting? h with
  | waits => exact ⟨rfl, .inl rfl⟩
  | turnedAway => exact ⟨rfl, .inr rfl⟩
  | takes hnext =>
    unfold greet
    rw [hfault]
    split
    · exact ⟨rfl, .inr rfl⟩
    · exact ⟨rfl, .inr rfl⟩
    · next hok => cases hok

end Stream

namespace Station

variable {st : Station} {v : Visit} {k : Nat} {hello : Wire.Hello} {e : Event}

/-! ## 3. From the names to the link -/

/-- The next step of a stream's task registers a link under these names, and the stream goes on with
it. -/
def Admits (st : Station) (k : Nat) (hello : Wire.Hello) : Prop :=
  ∃ id v, (st.step k none).visits[k]? = some v ∧ v.id = some id ∧ v.task = .linked id none ∧
    (st.step k none).hub.registered = st.hub.registered ++ [id] ∧
    (st.step k none).hub.link id =
      { name := hello.name, hostname := hello.hostname, capacity := st.capacity }

/-- Some step of a run does. -/
def Admitted (st : Station) (events : List Event) (k : Nat) (hello : Wire.Hello) : Prop :=
  ∃ before later, events = before ++ .step k none :: later ∧ (st.after before).Admits k hello

theorem Admitted.append {events : List Event} (h : st.Admitted events k hello)
    (more : List Event) : st.Admitted (events ++ more) k hello := by
  obtain ⟨before, later, rfl, hadmits⟩ := h
  exact ⟨before, later ++ more, by rw [List.append_assoc, List.cons_append], hadmits⟩

theorem admits_of_move {turn : Turn} (hv : st.visits[k]? = some v)
    (hmove : v.task.move? st.now v.socket st.hub none = some turn)
    (htask : turn.task =
      .linked (st.hub.register hello.name hello.hostname st.capacity).1 none)
    (hstate : turn.state = (st.hub.register hello.name hello.hostname st.capacity).2) :
    st.Admits k hello := by
  have hk := (List.getElem?_eq_some_iff.1 hv).1
  have hlink := st.hub.link_register hello.name hello.hostname st.capacity (st.hub.lastId + 1)
  rw [if_pos rfl] at hlink
  refine ⟨st.hub.lastId + 1, v.took turn, ?_⟩
  rw [step_of_move hv hmove, hstate]
  exact ⟨List.getElem?_set_self hk, by rw [Visit.took, htask]; rfl, htask, rfl, hlink⟩

/-- The task of a stream has the names of its gateway before it, behind at most so many bytes. -/
inductive Due (st : Station) (k : Nat) (hello : Wire.Hello) (left : Nat) : Prop where
  | intro {v : Visit} {deadline : Nat} {rest : Reader} (hv : st.visits[k]? = some v)
      (htask : v.task = .greeting deadline st.capacity)
      (hhello : hello? v.socket.reader = some (hello, rest))
      (hleft : v.socket.reader.pending.length ≤ rest.pending.length + left)

variable {left : Nat}

theorem Due.pos (h : st.Due k hello left) : 0 < left := by
  obtain ⟨-, -, hhello, hleft⟩ := h
  have hless := pending_hello? hhello
  omega

/-- Each step of its own task comes closer. -/
theorem Due.step (h : st.Due k hello left) (hcapacity : checkCapacity st.capacity = .ok ()) :
    st.Admits k hello ∨ ∃ less < left, (st.step k none).Due k hello less := by
  obtain @⟨v, deadline, rest, hv, htask, hhello, hleft⟩ := h
  obtain ⟨turn, hstep, hturn⟩ :=
    Stream.exists_stepGreeting? st.now deadline st.hub hcapacity hhello
  have hmove : v.task.move? st.now v.socket st.hub none = some turn := by
    rw [htask]
    exact hstep
  rcases hturn with ⟨htask', hhello', hless⟩ | ⟨hlinked, hstate⟩
  · have hk := (List.getElem?_eq_some_iff.1 hv).1
    have hbefore := pending_hello? hhello'
    refine .inr ⟨turn.socket.reader.pending.length - rest.pending.length, by omega, ?_⟩
    rw [step_of_move hv hmove]
    exact .intro (List.getElem?_set_self hk) htask' hhello' (Nat.le_of_eq
      (Nat.add_sub_of_le (Nat.le_of_lt hbefore)).symm)
  · exact .inl (admits_of_move hv hmove hlinked hstate)

/-- And nothing else takes it further away. -/
theorem Due.other (h : st.Due k hello left) (he : e ≠ .step k none) :
    (st.meet e).Due k hello left := by
  obtain @⟨v, deadline, rest, hv, htask, hhello, hleft⟩ := h
  rw [← capacity_meet st e] at htask
  obtain ⟨v', hv', hfate⟩ := fate_meet st e hv
  cases hfate with
  | stays | waits => exact .intro hv' htask hhello hleft
  | struck _ struck => exact .intro hv' htask hhello hleft
  | touched _ deed =>
    obtain ⟨bytes, hreader⟩ := Visit.reader_touch st.now v deed
    refine .intro hv' ((Visit.touch_keeps st.now v deed).2.trans htask)
      (hreader ▸ hello?_feed hhello bytes) ?_
    rw [hreader, Reader.feed, Reader.feed, List.length_append, List.length_append]
    omega
  | @stepped choice turn _ he' hmove =>
    -- a task that greets is woken up by nothing in particular
    rw [htask] at hmove
    cases choice with
    | none => exact absurd he' he
    | some w => cases hmove

theorem Due.admitted (h : st.Due k hello left) (hcapacity : checkCapacity st.capacity = .ok ())
    (more : List Event) (hcount : left ≤ more.count (.step k none)) :
    st.Admitted more k hello := by
  induction more generalizing st left with
  | nil => exact absurd hcount (Nat.not_le.2 h.pos)
  | cons e more ih =>
    have hcapacity' : checkCapacity (st.meet e).capacity = .ok () :=
      (capacity_meet st e).symm ▸ hcapacity
    have hcons : (st.meet e).Admitted more k hello → st.Admitted (e :: more) k hello := by
      rintro ⟨before, later, rfl, hadmits⟩
      exact ⟨e :: before, later, rfl, hadmits⟩
    by_cases he : e = .step k none
    · subst he
      rw [List.count_cons_self] at hcount
      rcases h.step hcapacity with hadmits | ⟨less, hless, hdue⟩
      · exact ⟨[], more, rfl, hadmits⟩
      · exact hcons (ih hdue hcapacity' (by omega))
    · rw [List.count_cons_of_ne he] at hcount
      exact hcons (ih (h.other he) hcapacity' hcount)

/-! ## 4. From the first byte to the names -/

/-- Where a stream comes from: it was there before, or it has just arrived. -/
theorem origin_meet (st : Station) (e : Event) {v' : Visit}
    (hv' : (st.meet e).visits[k]? = some v') :
    (∃ v, st.visits[k]? = some v ∧ st.Fate k v e (st.meet e).now v') ∨
      ∃ room, e = .arrive room ∧ v' = st.arrival room := by
  by_cases hk : k < st.visits.length
  · obtain ⟨u, hu, hfate⟩ := fate_meet st e (List.getElem?_eq_getElem hk)
    obtain rfl := Option.some.inj (hu.symm.trans hv')
    exact .inl ⟨_, List.getElem?_eq_getElem hk, hfate⟩
  · have hlt := (List.getElem?_eq_some_iff.1 hv').1
    have hlength : ¬ (st.meet e).visits.length ≤ st.visits.length := by omega
    cases e with
    | arrive room =>
      refine .inr ⟨room, rfl, ?_⟩
      have hlast : k = st.visits.length := by
        rw [meet, Station.arrive, List.length_append, List.length_singleton] at hlt
        omega
      rw [hlast, meet, Station.arrive, List.getElem?_concat_length] at hv'
      exact (Option.some.inj hv').symm
    | touch k' deed => exact absurd (Nat.le_of_eq (List.length_modify ..)) hlength
    | step k' choice =>
      refine absurd ?_ hlength
      show (st.step k' choice).visits.length ≤ _
      unfold Station.step
      split
      · exact Nat.le_refl _
      · split
        · exact Nat.le_refl _
        · exact Nat.le_of_eq List.length_set
    | remove | shutdown => exact absurd (Nat.le_of_eq (List.length_map _)) hlength
    | pass span =>
      refine absurd ?_ hlength
      show (st.pass span).visits.length ≤ _
      unfold Station.pass
      split <;> exact Nat.le_refl _
    | watch | push => exact absurd (Nat.le_refl _) hlength

/-- Where a stream can be, `admitted` saying under which names a link has been registered for it. As
long as it has none, the hub is nothing to it. -/
inductive Followed (capacity now : Nat) (admitted : Wire.Hello → Prop) (v : Visit) : Prop where
  | unlinked (hid : v.id = none) (hfits : v.Fits capacity {} now)
  | linked {hello : Wire.Hello} {rest : Reader} (hid : v.id ≠ none)
      (hhello : v.hello? = some (hello, rest)) (hadmitted : admitted hello)

variable {capacity now : Nat} {admitted : Wire.Hello → Prop}

theorem Followed.imp (h : Followed capacity now admitted v) {admitted' : Wire.Hello → Prop}
    (himp : ∀ hello, admitted hello → admitted' hello) : Followed capacity now admitted' v := by
  cases h with
  | unlinked hid hfits => exact .unlinked hid hfits
  | linked hid hhello hadmitted => exact .linked hid hhello (himp _ hadmitted)

theorem id_took_ne_none (turn : Turn) (h : v.id ≠ none) : (v.took turn).id ≠ none := by
  rw [Visit.took]
  cases turn.task with
  | linked id write => exact Option.some_ne_none id
  | greeting | finished => exact h

/-- A step of a task without a link: the task goes on without one, or the link comes in. -/
theorem followed_of_move {choice : Option Wakeup} {turn : Turn}
    (hcapacity : checkCapacity st.capacity = .ok ()) (hv : st.visits[k]? = some v)
    (hid : v.id = none) (hfits : v.Fits st.capacity {} st.now)
    (hadmits : ∀ hello, choice = none → st.Admits k hello → admitted hello)
    (hmove : v.task.move? st.now v.socket st.hub choice = some turn) :
    Followed st.capacity st.now admitted (v.took turn) := by
  cases hfits with
  | linked _ hown | ended _ _ hown => cases hid.symm.trans hown
  | turnedAway htask => rw [htask] at hmove; cases hmove
  | greeting htask _ hcancelled hlate hbound hreader =>
    cases choice with
    | some w => rw [htask] at hmove; cases hmove
    | none =>
      have hsame : v.hello? = hello? v.socket.reader := hello?_congr hreader
      have hstep : Stream.stepGreeting? st.now v.due st.capacity v.socket st.hub = some turn := by
        rw [htask] at hmove
        exact hmove
      cases Stream.greets_stepGreeting? hcapacity hstep with
      | waits hnext _ =>
        exact .unlinked hid (.greeting rfl hid hcancelled hlate hbound (hreader.trans hnext))
      | turnedAway log hnone =>
        exact .unlinked hid (.turnedAway rfl rfl hid (hsame.trans hnone))
      | named hhello =>
        have hnew : st.Admits k _ := admits_of_move hv hmove rfl rfl
        exact .linked nofun (hsame.trans hhello) (hadmits _ rfl hnew)

theorem followed_of_fate {v' : Visit} (hcapacity : checkCapacity capacity = .ok ())
    (hsame : st.capacity = capacity) (hv : st.visits[k]? = some v)
    (h : Followed capacity st.now admitted v)
    (hadmits : ∀ hello, e = .step k none → st.Admits k hello → admitted hello)
    (hfate : st.Fate k v e now v') : Followed capacity now admitted v' := by
  subst hsame
  cases h with
  | linked hid hhello hadmitted =>
    cases hfate with
    | stays | waits => exact .linked hid hhello hadmitted
    | struck _ struck => exact .linked hid hhello hadmitted
    | stepped => exact .linked (id_took_ne_none _ hid) hhello hadmitted
    | touched _ deed =>
      obtain ⟨rest', hhello'⟩ := Visit.hello?_touch hhello st.now deed
      have hid' : (v.touch st.now deed).id ≠ none := (Visit.touch_keeps st.now v deed).1 ▸ hid
      exact .linked hid' hhello' hadmitted
  | unlinked hid hfits =>
    cases hfate with
    | stays hnow => exact .unlinked hid (hnow ▸ hfits)
    | waits hnow hdue => exact .unlinked hid (hfits.later hnow hdue)
    | touched hnow deed =>
      exact .unlinked ((Visit.touch_keeps st.now v deed).1.trans hid) (hnow ▸ hfits.touch deed)
    | struck hnow struck =>
      have hsame : v.strike struck = v := Visit.strike_of_any_eq_false (by rw [hid]; rfl)
      rw [hsame]
      exact .unlinked hid (hnow ▸ hfits)
    | @stepped choice turn hnow he hmove =>
      subst hnow
      exact followed_of_move hcapacity hv hid hfits
        (fun hello hchoice => hadmits hello (hchoice ▸ he)) hmove

theorem followed_after (hcapacity : checkCapacity capacity = .ok ()) (events : List Event)
    (hv : ((start capacity).after events).visits[k]? = some v) :
    Followed capacity ((start capacity).after events).now
      ((start capacity).Admitted events k) v := by
  induction events using List.reverseRecOn generalizing v with
  | nil => cases hv
  | append_singleton events e ih =>
    have hsame : ((start capacity).after events).capacity = capacity := capacity_after _ events
    rw [after_append] at hv ⊢
    rcases origin_meet _ e hv with ⟨u, hu, hfate⟩ | ⟨room, rfl, rfl⟩
    · have hfollowed := (ih hu).imp fun hello hadmitted => hadmitted.append [e]
      exact followed_of_fate hcapacity hsame hu hfollowed
        (fun hello he hadmits => ⟨events, [], by rw [he], hadmits⟩) hfate
    · rw [arrival, hsame]
      exact .unlinked rfl (.greeting rfl rfl rfl rfl (Nat.le_add_right _ _) (.refl _ _))

/-- Every stream on which a gateway has named itself in time gets its link under these names, by the
time that its task has taken as many steps as there are bytes to be read. -/
def AdmitsAll (st : Station) : Prop :=
  ∀ events k v hello rest, (st.after events).visits[k]? = some v → v.hello? = some (hello, rest) →
    ∀ more, v.socket.reader.pending.length ≤ more.count (.step k none) →
      st.Admitted (events ++ more) k hello

theorem admitsAll_start (hcapacity : checkCapacity capacity = .ok ()) :
    (start capacity).AdmitsAll := by
  intro events k v hello rest hv hhello more hcount
  have hsame : ((start capacity).after events).capacity = capacity := capacity_after _ events
  cases followed_after hcapacity events hv with
  | linked _ hhello' hadmitted =>
    cases hhello.symm.trans hhello'
    exact hadmitted.append more
  | unlinked hid hfits =>
    cases hfits with
    | linked _ hown | ended _ _ hown => cases hid.symm.trans hown
    | turnedAway _ _ _ hnone => cases hnone.symm.trans hhello
    | greeting htask _ _ _ _ hreader =>
      have hdue : ((start capacity).after events).Due k hello v.socket.reader.pending.length :=
        .intro hv (hsame.symm ▸ htask) ((hello?_congr hreader).symm.trans hhello)
          (Nat.le_add_left _ _)
      obtain ⟨before, later, rfl, hadmits⟩ := hdue.admitted (hsame.symm ▸ hcapacity) more hcount
      rw [← after_append] at hadmits
      exact ⟨events ++ before, later, (List.append_assoc ..).symm, hadmits⟩

/-! ## 5. Without a queue -/

/-- Nobody has a link, and nobody will have one. -/
structure Barred (st : Station) : Prop where
  hub : st.hub = {}
  unlinked : ∀ v ∈ st.visits,
    (∃ deadline, v.task = .greeting deadline st.capacity) ∨ v.task = .finished

theorem task_of_barred {fault : CapacityFault} {turn : Turn} {choice : Option Wakeup}
    (hfault : checkCapacity st.capacity = .error fault)
    (h : (∃ deadline, v.task = .greeting deadline st.capacity) ∨ v.task = .finished)
    (hmove : v.task.move? st.now v.socket st.hub choice = some turn) :
    turn.state = st.hub ∧
      ((∃ deadline, turn.task = .greeting deadline st.capacity) ∨ turn.task = .finished) := by
  rcases h with ⟨deadline, htask⟩ | htask
  · rw [htask] at hmove
    cases choice with
    | some w => cases hmove
    | none =>
      obtain ⟨hstate, htask'⟩ := Stream.barred_of_stepGreeting? hfault hmove
      exact ⟨hstate, htask'.imp_left fun hgreeting => ⟨deadline, hgreeting⟩⟩
  · rw [htask] at hmove
    cases hmove

theorem Barred.meet {fault : CapacityFault} (h : st.Barred)
    (hfault : checkCapacity st.capacity = .error fault) (e : Event) : (st.meet e).Barred := by
  constructor
  case hub =>
    cases e with
    | arrive | touch => exact h.hub
    | watch id => rw [Station.meet, h.hub]; rfl
    | push envelope => rw [Station.meet, h.hub]; rfl
    | remove id => rw [Station.meet, strike, h.hub]; rfl
    | shutdown => rw [Station.meet, strike, h.hub]; rfl
    | pass span =>
      show (st.pass span).hub = _
      unfold Station.pass
      split <;> exact h.hub
    | step k choice =>
      show (st.step k choice).hub = _
      unfold Station.step
      split
      · exact h.hub
      next v hv =>
      split
      · exact h.hub
      next turn hmove =>
      exact (task_of_barred hfault (h.unlinked v (List.mem_of_getElem? hv)) hmove).1.trans h.hub
  case unlinked =>
    intro v' hmem
    obtain ⟨k, hv'⟩ := List.mem_iff_getElem?.1 hmem
    rw [capacity_meet]
    rcases origin_meet st e hv' with ⟨v, hv, hfate⟩ | ⟨room, -, rfl⟩
    · have hunlinked := h.unlinked v (List.mem_of_getElem? hv)
      cases hfate with
      | stays | waits => exact hunlinked
      | struck => exact hunlinked
      | touched _ deed => rwa [(Visit.touch_keeps st.now v deed).2]
      | stepped _ _ hmove => exact (task_of_barred hfault hunlinked hmove).2
    · exact .inl ⟨_, rfl⟩

theorem barred_after {fault : CapacityFault} (hfault : checkCapacity capacity = .error fault)
    (events : List Event) : ((start capacity).after events).Barred := by
  induction events using List.reverseRecOn with
  | nil => exact ⟨rfl, fun _ hv => absurd hv List.not_mem_nil⟩
  | append_singleton events e ih =>
    have hsame : ((start capacity).after events).capacity = capacity := capacity_after _ events
    rw [after_append]
    exact ih.meet (hsame.symm ▸ hfault) e

/-- What a gateway sends that names itself and says nothing else. -/
def introduction : Bytes := (Message.text (Wire.Hello.encode ⟨"gw", "host"⟩)).frame.encode true

theorem hello?_introduction :
    hello? { role := .server, pending := introduction } =
      some (⟨"gw", "host"⟩, { role := .server }) := by
  decide +kernel

theorem not_admitsAll_start {fault : CapacityFault}
    (hfault : checkCapacity capacity = .error fault) : ¬ (start capacity).AdmitsAll := by
  intro hall
  have hcount : introduction.length ≤
      (List.replicate introduction.length (Event.step 0 none)).count (.step 0 none) := by
    rw [List.count_replicate_self]
  obtain ⟨before, later, -, id, v, -, -, -, hregistered, -⟩ :=
    hall [.arrive 0, .touch 0 (.sends introduction)] 0 _ _ _ rfl hello?_introduction
      (List.replicate introduction.length (.step 0 none)) hcount
  have hbefore : ((start capacity).after before).capacity = capacity := capacity_after _ before
  have hbarred : (((start capacity).after before).meet (.step 0 none)).Barred :=
    (barred_after hfault before).meet (hbefore.symm ▸ hfault) (.step 0 none)
  have hnone : (((start capacity).after before).step 0 none).hub.registered = [] :=
    congrArg Hub.registered hbarred.hub
  rw [hnone] at hregistered
  exact absurd hregistered.symm (by simp)

end Station

end Switchboard.Logic

/-! ## 6. Configured nodes -/

namespace Switchboard.Startup

open Logic

/-- The queues of a node have the capacity that is given, and 1024 where none is given that has 64
bits and is not zero. They can be made, and every gateway that names itself in time gets its link,
exactly when what is given is no more than a queue can have. Otherwise nobody ever gets one. -/
theorem hello_admitted_iff {env : Environment} {config : Config}
    (h : Config.ofEnvironment env = .ok config) (pipeSize : Nat) :
    let capacity := (logicNode config pipeSize).linkBuffer
    (∀ n, capacity = n ↔
      Config.GivenBuffer env n ∨ n = 1024 ∧ ∀ m, ¬ Config.GivenBuffer env m) ∧
    (checkCapacity capacity = .ok () ↔ ∀ n, Config.GivenBuffer env n → n ≤ maxCapacity) ∧
    ((Station.start capacity).AdmitsAll ↔ ∀ n, Config.GivenBuffer env n → n ≤ maxCapacity) ∧
    ∀ n, Config.GivenBuffer env n → maxCapacity < n →
      checkCapacity capacity = .error .tooLarge ∧
        ∀ events, ((Station.start capacity).after events).hub = {} := by
  intro capacity
  have hvalue : ∀ n, capacity = n ↔
      Config.GivenBuffer env n ∨ n = 1024 ∧ ∀ m, ¬ Config.GivenBuffer env m := fun n => by
    rw [← Config.toNat_linkBufferOf_eq_iff, ← Config.linkBuffer_of_ofEnvironment h]
    rfl
  have hgiven : ∀ n, Config.GivenBuffer env n → capacity = n := fun n hn => (hvalue n).2 (.inl hn)
  have hlarge : ∀ n, Config.GivenBuffer env n → maxCapacity < n →
      checkCapacity capacity = .error .tooLarge := fun n hn hless =>
    checkCapacity_of_lt (hgiven n hn ▸ hless)
  have husable : checkCapacity capacity = .ok () ↔
      ∀ n, Config.GivenBuffer env n → n ≤ maxCapacity := by
    rw [checkCapacity_eq_ok_iff]
    constructor
    · rintro ⟨-, hle⟩ n hn
      exact hgiven n hn ▸ hle
    · intro hall
      rcases (hvalue capacity).1 rfl with hn | ⟨hdefault, -⟩
      · exact ⟨hn.pos, hall capacity hn⟩
      · rw [hdefault]
        decide
  refine ⟨hvalue, husable, ⟨fun hadmits n hn => ?refused, fun hall =>
    Station.admitsAll_start (husable.2 hall)⟩, fun n hn hless => ?empty⟩
  case refused =>
    by_contra hless
    exact Station.not_admitsAll_start (hlarge n hn (Nat.lt_of_not_le hless)) hadmits
  case empty =>
    have hfault := hlarge n hn hless
    exact ⟨hfault, fun events => (Station.barred_after hfault events).hub⟩

/-- Only the link buffer is given. -/
def bufferVariable (text : String) : Environment := fun name =>
  if name = "CHATLINK_LINK_BUFFER" then some (Text.Utf8.encode text) else none

def configWith (linkBuffer : UInt64) : Config := { port := 39099, role := .logic, linkBuffer }

/-- A gateway that names itself behind a ping. -/
def pingedHello : List Station.Event :=
  [.arrive 4096,
    .touch 0 (Station.sent [.ping [7], .text (Wire.Hello.encode ⟨"east", "host-a"⟩)])]

/-- The greatest buffer that can be made, with a plus and a zero in front. -/
theorem hello_admitted_iff_largest :
    Config.ofEnvironment (bufferVariable "+02305843009213693951") =
      .ok (configWith 2305843009213693951) ∧
    checkCapacity (logicNode (configWith 2305843009213693951) 4096).linkBuffer = .ok () ∧
    (Station.start (logicNode (configWith 2305843009213693951) 4096).linkBuffer).Admitted
      (pingedHello ++ List.replicate 100 (.step 0 none)) 0 ⟨"east", "host-a"⟩ := by
  have hconfig : Config.ofEnvironment (bufferVariable "+02305843009213693951") =
      .ok (configWith 2305843009213693951) := by
    decide +kernel
  obtain ⟨hvalue, husable, hadmits, -⟩ := hello_admitted_iff hconfig 4096
  have hle : ∀ n, Config.GivenBuffer (bufferVariable "+02305843009213693951") n →
      n ≤ maxCapacity := fun n hn => by
    rw [← (hvalue n).2 (.inl hn)]
    decide
  obtain ⟨v, hv, hhello, hpending⟩ : ∃ v,
      ((Station.start (logicNode (configWith 2305843009213693951) 4096).linkBuffer).after
        pingedHello).visits[0]? = some v ∧
      v.hello? = some (⟨"east", "host-a"⟩, { role := .server }) ∧
      v.socket.reader.pending.length ≤ 100 :=
    ⟨_, rfl, by decide +kernel, by decide +kernel⟩
  refine ⟨hconfig, husable.2 hle, hadmits.2 hle pingedHello 0 v _ _ hv hhello _ ?_⟩
  rwa [List.count_replicate_self]

/-- The greatest number of 64 bits is taken for a link buffer, and then a gateway that names itself
at once gets no link. -/
theorem unusable_buffer_accepted :
    Config.ofEnvironment (bufferVariable "18446744073709551615") =
      .ok (configWith 18446744073709551615) ∧
    checkCapacity (logicNode (configWith 18446744073709551615) 4096).linkBuffer =
      .error .tooLarge ∧
    (let station :=
      (Station.start (logicNode (configWith 18446744073709551615) 4096).linkBuffer).after
        [.arrive 4096, .touch 0 (.sends Station.introduction), .step 0 none]
    (station.visits.map fun v => (v.hello?.map Prod.fst, v.task, v.id)) =
      [(some ⟨"gw", "host"⟩, .finished, none)] ∧ station.hub.registered = []) ∧
    ¬ (Station.start (logicNode (configWith 18446744073709551615) 4096).linkBuffer).AdmitsAll :=
  ⟨by decide +kernel, by decide +kernel, by decide +kernel,
    Station.not_admitsAll_start (checkCapacity_of_lt (by decide))⟩

end Switchboard.Startup
