import Mathlib.Logic.Relation
import Switchboard.Gateway.Server
import Switchboard.Proofs.Gateway.Holding
import Switchboard.Proofs.Gateway.Waiting

/-!
# Settling — all tasks of an endpoint take their steps

The tasks take steps, each any that it can take and in any order, until every task has to wait, and
no order goes on for ever. One that waits meanwhile is left as it was, since the others only touch
their own mailboxes. What the node tells of a session changes only if the session was in the hands
of a task that is over. An endpoint lets one task after the other settle, which is one of these
orders.
-/

namespace Switchboard.Gateway

open Session WebSocket

variable {e e' e'' : Endpoint Node Task} {name n : String} {accepted kicked : List SessionRef}
  {s t : SessionRef} {c : Client Task} {choice : Option Wakeup} {turn : Turn}

/-- The session that the task of each client serves. -/
def handsOf (e : Endpoint Node Task) : Hands := fun name =>
  (e.clients.get? name).bind fun c => c.task.session?

/-- The task of a client has to wait. -/
def Waits (e : Endpoint Node Task) (name : String) : Prop :=
  ∀ c, e.clients.get? name = some c → c.task.step? e.now c.socket e.state = none

def AllWait (e : Endpoint Node Task) : Prop := ∀ name, Waits e name

/-! ## 1. One step -/

/-- The task of a client has gone on to here. -/
def reached (e : Endpoint Node Task) (name : String) (c : Client Task) (turn : Turn) :
    Endpoint Node Task :=
  { e with
    state := turn.state
    clients := e.clients.insert name { c with socket := turn.socket, task := turn.task }
    log := e.log ++ turn.log }

/-- The task of some client takes a step, any that it can take. -/
inductive Steps (e : Endpoint Node Task) : Endpoint Node Task → Prop where
  | step {name : String} {c : Client Task} {choice : Option Wakeup} {turn : Turn}
      (hc : e.clients.get? name = some c)
      (hturn : c.task.turn? e.now c.socket e.state choice = some turn) :
      Steps e (reached e name c turn)

theorem get?_reached_self (e : Endpoint Node Task) (name : String) (c : Client Task)
    (turn : Turn) :
    (reached e name c turn).clients.get? name =
      some { c with socket := turn.socket, task := turn.task } :=
  (Table.get?_insert _ _ _ _).trans (if_pos rfl)

theorem get?_reached_of_ne (hne : n ≠ name) :
    (reached e name c turn).clients.get? n = e.clients.get? n :=
  (Table.get?_insert _ _ _ _).trans (if_neg (Ne.symm hne))

theorem handsOf_of_get? (h : e'.clients.get? n = e.clients.get? n) :
    handsOf e' n = handsOf e n := by
  unfold handsOf
  rw [h]

theorem handsOf_of_some {c : Client Task} (h : e.clients.get? name = some c) :
    handsOf e name = c.task.session? := by
  unfold handsOf
  rw [h]
  rfl

theorem handsOf_of_none (h : e.clients.get? name = none) : handsOf e name = none := by
  unfold handsOf
  rw [h]
  rfl

/-- What the steps of tasks do to an endpoint. -/
structure Advances (e e' : Endpoint Node Task) (accepted kicked : List SessionRef) : Prop where
  keeps : e'.state.Keeps (handsOf e') accepted kicked
  hands : ∀ name s, handsOf e' name = some s → handsOf e name = some s
  sameOf : ∀ t ∈ accepted, ((handsOf e).Hold t → (handsOf e').Hold t) → e.state.SameOf t e'.state
  gone : ∀ name c, e.clients.get? name = some c →
    ∃ c', e'.clients.get? name = some c' ∧ c'.socket.gone = c.socket.gone

theorem Advances.refl (h : e.state.Keeps (handsOf e) accepted kicked) :
    Advances e e accepted kicked :=
  ⟨h, fun _ _ h => h, fun t _ _ => .refl t _, fun _ c hc => ⟨c, hc, rfl⟩⟩

theorem Advances.hold (h : Advances e e' accepted kicked) (ht : (handsOf e').Hold t) :
    (handsOf e).Hold t := by
  obtain ⟨name, hname⟩ := ht
  exact ⟨name, h.hands name t hname⟩

theorem Advances.trans (h : Advances e e' accepted kicked) (h' : Advances e' e'' accepted kicked) :
    Advances e e'' accepted kicked where
  keeps := h'.keeps
  hands name s hs := h.hands name s (h'.hands name s hs)
  sameOf t ht hstill := by
    -- a session that is held at the end was held all the time
    have hfirst := h.sameOf t ht fun hheld => h'.hold (hstill hheld)
    have hsecond := h'.sameOf t ht fun hheld => hstill (h.hold hheld)
    exact hfirst.trans hsecond
  gone name c hc := by
    obtain ⟨c', hc', hgone⟩ := h.gone name c hc
    obtain ⟨c'', hc'', hgone'⟩ := h'.gone name c' hc'
    exact ⟨c'', hc'', hgone'.trans hgone⟩

/-- A task that still serves what it served, or nobody as before. -/
theorem Advances.of_same_hands {c c' : Client Task}
    (hc : e.clients.get? name = some c) (hc' : e'.clients.get? name = some c')
    (hothers : ∀ n, n ≠ name → handsOf e' n = handsOf e n)
    (hsession : c'.task.session? = c.task.session?)
    (hkeeps : e'.state.Keeps (handsOf e) accepted kicked)
    (hindex : e'.state.index = e.state.index) (hgroups : e'.state.groups = e.state.groups)
    (hgone : ∀ n c, e.clients.get? n = some c →
      ∃ c', e'.clients.get? n = some c' ∧ c'.socket.gone = c.socket.gone) :
    Advances e e' accepted kicked := by
  have hhands : handsOf e' = handsOf e := by
    funext n
    by_cases hne : n = name
    · rw [hne, handsOf_of_some hc, handsOf_of_some hc', hsession]
    · exact hothers n hne
  exact ⟨hhands ▸ hkeeps, fun n s hn => hhands ▸ hn,
    fun t _ _ => ⟨by rw [hindex], by rw [hgroups]⟩, hgone⟩

/-- A task that is over. -/
theorem Advances.of_over (h : e.state.Keeps (handsOf e) accepted kicked)
    (hs : handsOf e name = some s) (hover : handsOf e' name = none)
    (hothers : ∀ n, n ≠ name → handsOf e' n = handsOf e n) (hnode : e.state.Departed s e'.state)
    (hgone : ∀ n c, e.clients.get? n = some c →
      ∃ c', e'.clients.get? n = some c' ∧ c'.socket.gone = c.socket.gone) :
    Advances e e' accepted kicked where
  keeps := h.depart hs hover hothers hnode
  hands n t hn := (Hands.eq_of_over hover hothers hn).2
  sameOf t ht hstill := by
    have hheld : (handsOf e).Hold s := ⟨name, hs⟩
    -- the session that has departed was held before and is not any more
    have hne : t ≠ s := by
      rintro rfl
      exact ((h.apart.hold_iff_of_over hover hothers hs).1 (hstill hheld)).2 rfl
    exact h.sameOf_depart (h.accepted_of_hold s hheld) ht hne hnode
  gone := hgone

theorem gone_reached (hc : e.clients.get? name = some c) (hgone : turn.socket.gone = c.socket.gone)
    (n : String) (c' : Client Task) (hn : e.clients.get? n = some c') :
    ∃ c'', (reached e name c turn).clients.get? n = some c'' ∧
      c''.socket.gone = c'.socket.gone := by
  by_cases hne : n = name
  · subst hne
    obtain rfl := Option.some.inj (hc.symm.trans hn)
    exact ⟨_, get?_reached_self e n c turn, hgone⟩
  · exact ⟨c', (get?_reached_of_ne hne).trans hn, rfl⟩

/-- A task that serves a session goes on with it, or takes it out of everything. -/
theorem advances_reached (h : e.state.Keeps (handsOf e) accepted kicked)
    (hc : e.clients.get? name = some c) (hs : c.task.session? = some s)
    (houtcome : Outcome s e.state turn) (hgone : turn.socket.gone = c.socket.gone) :
    Advances e (reached e name c turn) accepted kicked := by
  have hc' := get?_reached_self e name c turn
  have hothers : ∀ n, n ≠ name → handsOf (reached e name c turn) n = handsOf e n :=
    fun n hne => handsOf_of_get? (get?_reached_of_ne hne)
  have hheld : handsOf e name = some s := (handsOf_of_some hc).trans hs
  cases houtcome with
  | stays hsession hnode =>
    exact .of_same_hands hc hc' hothers (hsession.trans hs.symm) (h.stay ⟨name, hheld⟩ hnode)
      hnode.index hnode.groups (gone_reached hc hgone)
  | departs htask hnode =>
    have hover : handsOf (reached e name c turn) name = none := by
      rw [handsOf_of_some hc']
      exact congrArg Task.session? htask
    exact .of_over h hheld hover hothers hnode (gone_reached hc hgone)

theorem advances_step (h : e.state.Keeps (handsOf e) accepted kicked) (hstep : Steps e e') :
    Advances e e' accepted kicked := by
  obtain @⟨name, c, choice, turn, hc, hturn⟩ := hstep
  have hgone := Task.gone_turn? hturn
  cases hs : c.task.session? with
  | some s =>
    exact advances_reached h hc hs
      (Task.outcome_turn? hs h.orderly.indexWriter h.orderly.groupWriter hturn) hgone
  -- a task that serves nobody leaves the node as it is
  | none =>
    obtain ⟨hsession, hnode⟩ := Task.turn?_of_session?_none hs hturn
    have hsame : (reached e name c turn).state = e.state := hnode
    exact .of_same_hands hc (get?_reached_self e name c turn)
      (fun n hne => handsOf_of_get? (get?_reached_of_ne hne)) (hsession.trans hs.symm)
      (hsame ▸ h) (by rw [hsame]) (by rw [hsame]) (gone_reached hc hgone)

/-- Mailboxes of other sessions than the one that the task serves stay as they are. -/
theorem box_step (h : e.state.Keeps (handsOf e) accepted kicked)
    (hc : e.clients.get? name = some c)
    (hturn : c.task.turn? e.now c.socket e.state choice = some turn) (ht : t ∈ accepted)
    (hne : handsOf e name ≠ some t) : turn.state.post.box t.slot = e.state.post.box t.slot := by
  rw [handsOf_of_some hc] at hne
  cases hs : c.task.session? with
  | none => rw [(Task.turn?_of_session?_none hs hturn).2]
  | some s =>
    have hknown : s ∈ accepted := h.accepted_of_hold s ⟨name, (handsOf_of_some hc).trans hs⟩
    -- two sessions have two mailboxes
    have hslot : t.slot ≠ s.slot := h.slot_ne hknown ht fun hts => hne (hts ▸ hs)
    cases Task.outcome_turn? hs h.orderly.indexWriter h.orderly.groupWriter hturn with
    | stays _ hnode => exact hnode.box _ hslot
    | departs _ hnode => exact hnode.box _ hslot

/-- A task that waits takes no step, and the mailbox of its session is not touched by others. -/
theorem waits_step (h : e.state.Keeps (handsOf e) accepted kicked) (hwaits : Waits e n)
    (hstep : Steps e e') : Waits e' n := by
  obtain @⟨name, c, choice, turn, hc, hturn⟩ := hstep
  have hne : n ≠ name := by
    rintro rfl
    rw [Task.turn?_of_idle (hwaits c hc)] at hturn
    cases hturn
  intro c' hc'
  rw [get?_reached_of_ne hne] at hc'
  refine Task.idle_of_box (hwaits c' hc') fun s hs => ?_
  have hn : handsOf e n = some s := (handsOf_of_some hc').trans hs
  refine box_step h hc hturn (h.accepted_of_hold s ⟨n, hn⟩) fun hname => ?_
  exact hne (h.apart n name s hn hname)

/-! ## 2. Tasks that only have payloads to write -/

/-- The task of a client, if it serves a session, cannot end. -/
def IsCalm (e : Endpoint Node Task) (name : String) : Prop :=
  ∀ c v, e.clients.get? name = some c → c.task = .serving v → v.Calm e.now c.socket e.state

theorem isCalm_of_waits (h : Waits e n) : IsCalm e n := by
  intro c v hc htask
  have hidle := h c hc
  rw [htask] at hidle
  exact Serving.calm_of_idle hidle

/-- Whatever step is taken, a calm task goes on with its session, and stays calm. -/
theorem calm_step (h : e.state.Keeps (handsOf e) accepted kicked) (hcalm : IsCalm e n)
    (hstep : Steps e e') : handsOf e' n = handsOf e n ∧ IsCalm e' n := by
  obtain @⟨name, c, choice, turn, hc, hturn⟩ := hstep
  by_cases hne : n = name
  · -- its own step
    subst hne
    have hc' := get?_reached_self e n c turn
    rw [handsOf_of_some hc, handsOf_of_some hc']
    cases htask : c.task with
    | serving v =>
      rw [htask] at hturn
      obtain ⟨v', hnext, hsession, hcalm'⟩ :=
        (hcalm c v hc htask).taken (Serving.taken_turn? hturn)
      refine ⟨?_, fun c'' v'' hc'' htask'' => ?_⟩
      · show turn.task.session? = some v.session
        rw [hnext, ← hsession]
        rfl
      · obtain rfl := Option.some.inj (hc'.symm.trans hc'')
        obtain rfl := Task.serving.inj (hnext.symm.trans htask'')
        exact hcalm'
    | refusing | finished =>
      have hnobody : c.task.session? = none := by rw [htask]; rfl
      obtain ⟨hsession, -⟩ := Task.turn?_of_session?_none hnobody hturn
      refine ⟨hsession, fun c'' v'' hc'' htask'' => ?_⟩
      obtain rfl := Option.some.inj (hc'.symm.trans hc'')
      have hnone : turn.task.session? = some v''.session := congrArg Task.session? htask''
      rw [hsession] at hnone
      cases hnone
  · -- a step of another task
    have hget : (reached e name c turn).clients.get? n = e.clients.get? n := get?_reached_of_ne hne
    refine ⟨handsOf_of_get? hget, fun c' v hc' htask => ?_⟩
    rw [hget] at hc'
    have hn : handsOf e n = some v.session := by
      rw [handsOf_of_some hc', htask]
      rfl
    refine (hcalm c' v hc' htask).of_cancelled (congrArg Mailbox.cancelled ?_)
    refine box_step h hc hturn (h.accepted_of_hold _ ⟨n, hn⟩) fun hname => ?_
    exact hne (h.apart n name _ hn hname)

/-! ## 3. Any number of steps -/

theorem advances_runs (h : e.state.Keeps (handsOf e) accepted kicked)
    (hruns : Relation.ReflTransGen Steps e e') : Advances e e' accepted kicked := by
  -- step by step, each of which keeps what the next one needs
  induction hruns with
  | refl => exact .refl h
  | tail _ hstep ih => exact ih.trans (advances_step ih.keeps hstep)

theorem waits_runs (h : e.state.Keeps (handsOf e) accepted kicked) (hwaits : Waits e n)
    (hruns : Relation.ReflTransGen Steps e e') : Waits e' n := by
  induction hruns with
  | refl => exact hwaits
  | tail hbefore hstep ih => exact waits_step (advances_runs h hbefore).keeps ih hstep

/-- Tasks that only have payloads to write all go on. -/
theorem calm_runs (h : e.state.Keeps (handsOf e) accepted kicked) (hcalm : IsCalm e n)
    (hruns : Relation.ReflTransGen Steps e e') : handsOf e' n = handsOf e n ∧ IsCalm e' n := by
  induction hruns with
  | refl => exact ⟨rfl, hcalm⟩
  | tail hbefore hstep ih =>
    obtain ⟨hhands, hcalm'⟩ := calm_step (advances_runs h hbefore).keeps ih.2 hstep
    exact ⟨hhands.trans ih.1, hcalm'⟩

/-- The tasks have taken steps, in whatever order, until every task had to wait. -/
structure Settles (e e' : Endpoint Node Task) : Prop where
  runs : Relation.ReflTransGen Steps e e'
  waits : AllWait e'

theorem Settles.refl (hwaits : AllWait e) : Settles e e := ⟨.refl, hwaits⟩

/-! ## 4. No order goes on for ever -/

/-- A bound on the steps that the tasks can still take, all together. -/
def stepsLeft (e : Endpoint Node Task) : Nat :=
  (e.clients.values.map fun c => c.task.left e.now c.socket e.state).foldr (· + ·) 0

/-- The bound by the client of a name and all others. -/
theorem stepsLeft_eq (hc : e.clients.get? name = some c) :
    stepsLeft e = c.task.left e.now c.socket e.state +
      ((e.clients.erase name).values.map fun c => c.task.left e.now c.socket e.state).foldr
        (· + ·) 0 :=
  ((Table.values_perm_of_get? hc).map _).foldr_eq 0

theorem Task.left_of_box {task : Task} {now : Nat} {socket : Socket} {node node' : Node}
    (hbox : ∀ s, task.session? = some s → node'.post.box s.slot = node.post.box s.slot) :
    task.left now socket node' = task.left now socket node := by
  cases task with
  | refusing | finished => rfl
  | serving v =>
    show v.left now socket node' = v.left now socket node
    unfold Serving.left Serving.due
    rw [hbox v.session rfl]

theorem stepsLeft_step (h : e.state.Keeps (handsOf e) accepted kicked) (hstep : Steps e e') :
    stepsLeft e' < stepsLeft e := by
  obtain @⟨name, c, choice, turn, hc, hturn⟩ := hstep
  -- the others see the mailboxes that they saw
  have hothers : (e.clients.erase name).values.map
      (fun c => c.task.left e.now c.socket turn.state) =
        (e.clients.erase name).values.map fun c => c.task.left e.now c.socket e.state := by
    refine List.map_congr_left fun c' hc' => Task.left_of_box fun s hs => ?_
    obtain ⟨n, hne, hn⟩ := Table.exists_of_mem_values_erase hc'
    have hheld : handsOf e n = some s := (handsOf_of_some hn).trans hs
    refine box_step h hc hturn (h.accepted_of_hold s ⟨n, hheld⟩) fun hname => ?_
    exact hne (h.apart n name s hheld hname)
  have herase : (reached e name c turn).clients.erase name = e.clients.erase name :=
    Table.erase_insert _ _ _
  rw [stepsLeft_eq (get?_reached_self e name c turn), stepsLeft_eq hc, herase]
  show Task.leftAfter e.now turn + ((e.clients.erase name).values.map
    fun c => c.task.left e.now c.socket turn.state).foldr (· + ·) 0 < _
  rw [hothers]
  exact Nat.add_lt_add_right (Task.left_turn? hturn) _

/-- In whatever order the tasks take steps, they come to where every one of them has to wait. -/
theorem exists_settles (h : e.state.Keeps (handsOf e) accepted kicked)
    {run : Nat → Endpoint Node Task} (hstart : run 0 = e)
    (hrun : ∀ i, Steps (run i) (run (i + 1)) ∨ AllWait (run i)) : ∃ i, Settles e (run i) := by
  by_contra hnever
  -- otherwise there would be more steps than there can be
  have hall : ∀ i, Relation.ReflTransGen Steps e (run i) ∧ stepsLeft (run i) + i ≤ stepsLeft e := by
    intro i
    induction i with
    | zero => exact hstart ▸ ⟨.refl, Nat.le_refl _⟩
    | succ i ih =>
      obtain ⟨hruns, hleft⟩ := ih
      rcases hrun i with hstep | hwaits
      · have hless := stepsLeft_step (advances_runs h hruns).keeps hstep
        exact ⟨hruns.tail hstep, by omega⟩
      · exact absurd ⟨i, hruns, hwaits⟩ hnever
  have hfar := (hall (stepsLeft e + 1)).2
  omega

/-! ## 5. One task after the other -/

/-- How far the task of a client goes from here. -/
def turnOf (e : Endpoint Node Task) (c : Client Task) : Turn :=
  WebSocket.Turn.run e.now { socket := c.socket, task := c.task, state := e.state }

theorem settleClient_of_none (h : e.clients.get? name = none) : e.settleClient name = e := by
  rw [Endpoint.settleClient, h]

theorem settleClient_of_some (h : e.clients.get? name = some c) :
    e.settleClient name = reached e name c (turnOf e c) := by
  rw [Endpoint.settleClient, h]
  rfl

theorem get?_settleClient_self (h : e.clients.get? name = some c) :
    (e.settleClient name).clients.get? name =
      some { c with socket := (turnOf e c).socket, task := (turnOf e c).task } := by
  rw [settleClient_of_some h]
  exact get?_reached_self e name c _

theorem get?_settleClient_of_ne (hne : n ≠ name) :
    (e.settleClient name).clients.get? n = e.clients.get? n := by
  cases h : e.clients.get? name with
  | none => rw [settleClient_of_none h]
  | some c =>
    rw [settleClient_of_some h]
    exact get?_reached_of_ne hne

/-- How an endpoint lets a task settle is one order of its steps. -/
theorem runs_reached (e : Endpoint Node Task) (name : String) (c : Client Task) (turn : Turn)
    (fuel : Nat) :
    Relation.ReflTransGen Steps (reached e name c turn)
      (reached e name c (turn.settle e.now fuel)) := by
  induction fuel generalizing turn with
  | zero => exact .refl
  | succ fuel ih =>
    cases hstep : turn.task.step? e.now turn.socket turn.state with
    | none => rw [settle_of_idle hstep]
    | some next =>
      obtain ⟨choice, hturn⟩ := Task.exists_turn? hstep
      -- two steps of one task leave what the second one comes to
      have htwice : reached (reached e name c turn) name
          { c with socket := turn.socket, task := turn.task } next =
            reached e name c { next with log := turn.log ++ next.log } := by
        unfold reached
        rw [Table.insert_insert, List.append_assoc]
      rw [settle_of_step hstep]
      refine .head ?_ (ih _)
      rw [← htwice]
      exact .step (get?_reached_self e name c turn) hturn

theorem reached_self (hc : e.clients.get? name = some c) :
    reached e name c { socket := c.socket, task := c.task, state := e.state } = e := by
  unfold reached
  rw [Table.insert_of_get? hc, List.append_nil]

theorem runs_settleClient (e : Endpoint Node Task) (name : String) :
    Relation.ReflTransGen Steps e (e.settleClient name) := by
  cases hc : e.clients.get? name with
  | none => rw [settleClient_of_none hc]
  | some c =>
    have hruns := runs_reached e name c { socket := c.socket, task := c.task, state := e.state }
      (ConnectionTask.budget e.now c.socket e.state c.task)
    rw [reached_self hc] at hruns
    rw [settleClient_of_some hc]
    exact hruns

theorem runs_foldl (names : List String) (e : Endpoint Node Task) :
    Relation.ReflTransGen Steps e (names.foldl Endpoint.settleClient e) := by
  induction names generalizing e with
  | nil => exact .refl
  | cons name names ih => exact (runs_settleClient e name).trans (ih _)

theorem waits_settleClient_self (e : Endpoint Node Task) (name : String) :
    Waits (e.settleClient name) name := by
  intro c' hc'
  cases hc : e.clients.get? name with
  | none =>
    rw [settleClient_of_none hc, hc] at hc'
    cases hc'
  | some c =>
    obtain rfl := Option.some.inj ((get?_settleClient_self hc).symm.trans hc')
    rw [settleClient_of_some hc]
    exact idle_run _

theorem waits_foldl (names : List String) (h : e.state.Keeps (handsOf e) accepted kicked)
    (hn : Waits e n ∨ n ∈ names) : Waits (names.foldl Endpoint.settleClient e) n := by
  -- on the names: a task waits already, or its turn is still to come
  induction names generalizing e with
  | nil => exact hn.resolve_right List.not_mem_nil
  | cons name names ih =>
    have hruns := runs_settleClient e name
    refine ih (advances_runs h hruns).keeps ?_
    rcases hn with hn | hn
    · exact .inl (waits_runs h hn hruns)
    · rcases List.mem_cons.1 hn with rfl | hn
      · exact .inl (waits_settleClient_self e n)
      · exact .inr hn

theorem mem_keys_of_get? {c : Client Task} (h : e.clients.get? name = some c) :
    name ∈ e.clients.keys :=
  List.mem_map.2 ⟨(name, c), (e.clients.mem_entries_iff name c).2 h, rfl⟩

/-- One task after the other is one order in which they can settle. -/
theorem settles_settle (h : e.state.Keeps (handsOf e) accepted kicked) : Settles e e.settle := by
  refine ⟨runs_foldl _ e, fun n => waits_foldl _ h ?_⟩
  cases hc : e.clients.get? n with
  | none => exact .inl fun c hn => nomatch hc.symm.trans hn
  | some c => exact .inr (mem_keys_of_get? hc)

/-- A task that has to wait stays where it is. -/
theorem settleClient_of_waits (hwaits : Waits e name) : e.settleClient name = e := by
  cases hc : e.clients.get? name with
  | none => exact settleClient_of_none hc
  | some c =>
    have hturn : turnOf e c = { socket := c.socket, task := c.task, state := e.state } :=
      @settle_of_idle e.now { socket := c.socket, task := c.task, state := e.state }
        (hwaits c hc) _
    rw [settleClient_of_some hc, hturn, reached_self hc]

theorem foldl_of_waits {names : List String} (hwaits : ∀ n ∈ names, Waits e n) :
    names.foldl Endpoint.settleClient e = e := by
  induction names with
  | nil => rfl
  | cons n names ih =>
    rw [List.foldl_cons, settleClient_of_waits (hwaits n List.mem_cons_self)]
    exact ih fun m hm => hwaits m (List.mem_cons_of_mem _ hm)

/-- When every task has to wait, nothing happens. -/
theorem settle_of_allWait (hwaits : AllWait e) : e.settle = e := foldl_of_waits fun n _ => hwaits n

/-- A client comes last, so when all others wait, its task alone takes its steps. -/
theorem settle_insert {c : Client Task} {node : Node} {log : List LogLine}
    (hfree : e.clients.get? name = none)
    (hwaits : ∀ n, n ≠ name →
      Waits { e with state := node, clients := e.clients.insert name c, log } n) :
    Endpoint.settle { e with state := node, clients := e.clients.insert name c, log } =
      Endpoint.settleClient { e with state := node, clients := e.clients.insert name c, log }
        name := by
  have hkeys : (e.clients.insert name c).keys = e.clients.keys ++ [name] := by
    rw [Table.keys, Table.entries_insert_of_get?_eq_none hfree, List.map_append]
    rfl
  have hothers : ∀ n ∈ e.clients.keys, n ≠ name := by
    rintro n hn rfl
    rw [Table.mem_keys_iff, hfree] at hn
    cases hn
  show List.foldl _ _ (e.clients.insert name c).keys = _
  rw [hkeys, List.foldl_append, foldl_of_waits fun n hn => hwaits n (hothers n hn)]
  rfl

end Switchboard.Gateway
