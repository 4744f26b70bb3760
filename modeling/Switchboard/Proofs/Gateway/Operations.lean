import Switchboard.Proofs.Gateway.Settling

/-!
# Operations — what can be done to an endpoint from outside

Each operation changes one client, the node or the clock, and then the tasks settle, in whatever
order. It leaves the endpoint fitting what was accepted and kicked, with every task waiting, and it
changes what the node tells of a session only where the operation is about the session.
-/

namespace Switchboard.Gateway

open Session WebSocket

variable {e m e' : Endpoint Node Task} {name n : String}
  {accepted kicked accepted' kicked' : List SessionRef} {concerned : SessionRef → Prop}
  {s t : SessionRef}

/-- Afterwards the endpoint fits what was accepted and kicked, every task has to wait, and the
sessions that the operation does not concern are registered and in groups as before. -/
structure Respects (e e' : Endpoint Node Task) (accepted accepted' kicked' : List SessionRef)
    (concerned : SessionRef → Prop) : Prop where
  keeps : e'.state.Keeps (handsOf e') accepted' kicked'
  waits : AllWait e'
  sameOf : ∀ t ∈ accepted, ¬ concerned t → e.state.SameOf t e'.state

theorem Respects.refl (h : e.state.Keeps (handsOf e) accepted kicked) (hwaits : AllWait e) :
    Respects e e accepted accepted kicked concerned :=
  ⟨h, hwaits, fun t _ _ => .refl t _⟩

/-- An operation that concerns no session may be taken to concern any. -/
theorem Respects.anyway (h : Respects e e' accepted accepted' kicked' fun _ => False) :
    Respects e e' accepted accepted' kicked' concerned :=
  ⟨h.keeps, h.waits, fun t ht _ => h.sameOf t ht not_false⟩

theorem Respects.trans (hsub : ∀ t ∈ accepted, t ∈ accepted')
    {accepted'' kicked'' : List SessionRef}
    (h : Respects e m accepted accepted' kicked' concerned)
    (h' : Respects m e' accepted' accepted'' kicked'' concerned) :
    Respects e e' accepted accepted'' kicked'' concerned :=
  ⟨h'.keeps, h'.waits, fun t ht hnot =>
    (h.sameOf t ht hnot).trans (h'.sameOf t (hsub t ht) hnot)⟩

/-- A change from outside, before the tasks take their steps. The sessions that it does not concern
are registered and in groups as before, and nothing ends their tasks. -/
structure Changed (e m : Endpoint Node Task) (accepted accepted' kicked' : List SessionRef)
    (concerned : SessionRef → Prop) : Prop where
  keeps : m.state.Keeps (handsOf m) accepted' kicked'
  sameOf : ∀ t ∈ accepted, ¬ concerned t → e.state.SameOf t m.state
  calm : ∀ t ∈ accepted, ¬ concerned t → ∀ n, handsOf m n = some t → IsCalm m n

theorem Changed.settles (h : Changed e m accepted accepted' kicked' concerned)
    (hsub : ∀ t ∈ accepted, t ∈ accepted') (hsettles : Settles m e') :
    Respects e e' accepted accepted' kicked' concerned where
  keeps := (advances_runs h.keeps hsettles.runs).keeps
  waits := hsettles.waits
  sameOf t ht hnot := by
    refine (h.sameOf t ht hnot).trans
      ((advances_runs h.keeps hsettles.runs).sameOf t (hsub t ht) ?_)
    -- the task of a session that the change does not concern goes on
    rintro ⟨n, hn⟩
    exact ⟨n, (calm_runs h.keeps (h.calm t ht hnot n hn) hsettles.runs).1.trans hn⟩

/-! ## 1. One client -/

section Alter

variable {f : Client Task → Client Task}

theorem handsOf_alter (hf : ∀ c, (f c).task = c.task) : handsOf (e.alter name f) = handsOf e := by
  funext n
  show ((e.clients.modify name f).get? n).bind _ = _
  rw [Table.get?_modify]
  split
  · next hname =>
    subst hname
    unfold handsOf
    cases e.clients.get? name with
    | none => rfl
    | some c => exact congrArg Task.session? (hf c)
  · rfl

/-- What happens to the socket of one client concerns the session that its task serves. -/
theorem changed_alter (h : e.state.Keeps (handsOf e) accepted kicked) (hwaits : AllWait e)
    (hf : ∀ c, (f c).task = c.task) :
    Changed e (e.alter name f) accepted accepted kicked (handsOf e name = some ·) := by
  have hhands : handsOf (e.alter name f) = handsOf e := handsOf_alter hf
  refine ⟨hhands ▸ h, fun t _ _ => .refl t _, fun t _ hnot n hn => ?_⟩
  -- the tasks of all other clients had to wait, and nothing that they see has changed
  have hne : name ≠ n := by
    rintro rfl
    exact hnot (hhands ▸ hn)
  have hget : (e.alter name f).clients.get? n = e.clients.get? n :=
    (Table.get?_modify _ _ _ _).trans (if_neg hne)
  exact isCalm_of_waits fun c hc => hwaits n c (hget.symm.trans hc)

theorem changed_drop (h : e.state.Keeps (handsOf e) accepted kicked) (hwaits : AllWait e)
    (name : String) :
    Changed e (e.alter name Client.drop) accepted accepted kicked (handsOf e name = some ·) :=
  changed_alter h hwaits fun _ => rfl

end Alter

theorem task_hear (bytes : Bytes) (c : Client Task) : (c.hear bytes).task = c.task := by
  unfold Client.hear
  split <;> rfl

/-- The task of a client that has gone serves nobody once it has settled. -/
theorem handsOf_of_dropped (h : e.state.Keeps (handsOf e) accepted kicked)
    (hsettles : Settles (e.alter name Client.drop) e') : handsOf e' name = none := by
  have hhands : handsOf (e.alter name Client.drop) = handsOf e := handsOf_alter fun _ => rfl
  have hadvances : Advances (e.alter name Client.drop) e' accepted kicked :=
    advances_runs (hhands ▸ h) hsettles.runs
  have hget : (e.alter name Client.drop).clients.get? name =
      (e.clients.get? name).map Client.drop := (Table.get?_modify _ _ _ _).trans (if_pos rfl)
  -- its task waits in the end, and a task that serves anyone waits only for a client that is there
  cases hc : e.clients.get? name with
  | none =>
    cases hn : handsOf e' name with
    | none => rfl
    | some s =>
      have hbefore := hadvances.hands name s hn
      rw [hhands, handsOf_of_none hc] at hbefore
      cases hbefore
  | some c =>
    rw [hc] at hget
    obtain ⟨c', hc', hgone⟩ := hadvances.gone name _ hget
    have hidle := hsettles.waits name c' hc'
    rw [handsOf_of_some hc']
    cases htask : c'.task with
    | serving v =>
      rw [htask] at hidle
      have hthere := Serving.not_gone_of_idle hidle
      rw [hgone] at hthere
      cases hthere
    | refusing => rfl
    | finished => rfl

/-! ## 2. The clock -/

theorem advances_clock (h : e.state.Keeps (handsOf e) accepted kicked) (now : Nat) :
    Advances e { e with now } accepted kicked :=
  ⟨h, fun _ _ h => h, fun t _ _ => .refl t _, fun _ c hc => ⟨c, hc, rfl⟩⟩

/-- A task that has to wait and has no deadline waits at any time. -/
theorem waits_of_no_deadline {c : Client Task} {now now' : Nat} {node : Node}
    (hidle : c.task.step? now c.socket node = none) (hnone : c.task.deadline? = none) :
    c.task.step? now' c.socket node = none := by
  cases htask : c.task with
  | refusing =>
    rw [htask] at hidle
    exact hidle
  | finished => rfl
  | serving v =>
    rw [htask] at hidle hnone
    have hnone' : v.deadline? = none := hnone
    have hidle' : v.step? now c.socket node = none := hidle
    show v.step? now' c.socket node = none
    -- only a ping or a close frame under way has no deadline, and they look at no clock
    unfold Serving.deadline? at hnone'
    unfold Serving.step? Serving.pursue? at hidle' ⊢
    split at hnone'
    · cases hnone'
    · cases hnone'
    · next w hpayload hwrite =>
      rw [hwrite] at hidle' ⊢
      cases w with
      | payload handle deadline => exact absurd rfl (hpayload handle deadline)
      | ping => exact hidle'
      | close => exact hidle'

theorem deadline?_of_none {c : Client Task} (hnone : e.deadline? = none)
    (hc : e.clients.get? name = some c) : c.task.deadline? = none := by
  have hnil := List.min?_eq_none_iff.1 hnone
  have hmem : c ∈ e.clients.values :=
    List.mem_map.2 ⟨(name, c), (e.clients.mem_entries_iff name c).2 hc, rfl⟩
  exact List.filterMap_eq_nil_iff.1 hnil c hmem

/-- The clock goes on to a time, and stops at every deadline on the way, where the tasks settle. -/
inductive Passes (target : Nat) : Endpoint Node Task → Endpoint Node Task → Prop where
  | deadline {e m e' : Endpoint Node Task} {d : Nat} (hd : e.deadline? = some d)
      (hnext : e.now < d ∧ d ≤ target) (hsettles : Settles { e with now := d } m)
      (hrest : Passes target m e') : Passes target e e'
  | last {e e' : Endpoint Node Task}
      (hlast : ∀ d, e.deadline? = some d → ¬ (e.now < d ∧ d ≤ target))
      (hsettles : Settles { e with now := max e.now target } e') : Passes target e e'

/-- Time passes: only sessions whose task ends meanwhile change. -/
theorem advances_passes {target : Nat} (h : e.state.Keeps (handsOf e) accepted kicked)
    (hpasses : Passes target e e') : Advances e e' accepted kicked ∧ AllWait e' := by
  induction hpasses with
  | @deadline e m e' d hd hnext hsettles hrest ih =>
    have hclock := advances_clock h d
    have hsteps := hclock.trans (advances_runs hclock.keeps hsettles.runs)
    obtain ⟨hadvances, hwaits⟩ := ih hsteps.keeps
    exact ⟨hsteps.trans hadvances, hwaits⟩
  | @last e e' hlast hsettles =>
    have hclock := advances_clock h (max e.now target)
    exact ⟨hclock.trans (advances_runs hclock.keeps hsettles.runs), hsettles.waits⟩

theorem respects_passes {target : Nat} (h : e.state.Keeps (handsOf e) accepted kicked)
    (hpasses : Passes target e e') :
    Respects e e' accepted accepted kicked fun t =>
      (handsOf e).Hold t ∧ ¬ (handsOf e').Hold t := by
  obtain ⟨hadvances, hwaits⟩ := advances_passes h hpasses
  refine ⟨hadvances.keeps, hwaits, fun t ht hnot => hadvances.sameOf t ht fun hheld => ?_⟩
  by_contra hreturned
  exact hnot ⟨hheld, hreturned⟩

theorem passes_advanceTo (target : Nat) (h : e.state.Keeps (handsOf e) accepted kicked)
    (hwaits : AllWait e) : Passes target e (e.advanceTo target) := by
  -- the clock stops at a deadline and goes on, comes to the target, or finds no deadline
  fun_induction Endpoint.advanceTo target e with
  | case1 e d hd hnext ih =>
    have hclock := advances_clock h d
    have hsettles := settles_settle hclock.keeps
    exact .deadline hd hnext hsettles
      (ih (advances_runs hclock.keeps hsettles.runs).keeps hsettles.waits)
  | case2 e d hd hnext =>
    refine .last (fun d' hd' => ?_) (settles_settle (advances_clock h _).keeps)
    obtain rfl := Option.some.inj (hd.symm.trans hd')
    exact hnext
  | case3 e hnone =>
    refine .last (fun d hd => ?_) (.refl fun n c hc => ?_)
    · rw [hnone] at hd
      cases hd
    · exact waits_of_no_deadline (hwaits n c hc) (deadline?_of_none hnone hc)

/-! ## 3. The node -/

namespace Request

/-- The user whose sessions a request is about. -/
def user : Request → Int64
  | .subscribe uid _ | .unsubscribe uid _ | .kick uid => uid

/-- The sessions that a request detaches for good. -/
def detached (accepted : List SessionRef) : Request → List SessionRef
  | .kick uid => accepted.filter fun t => t.uid = uid
  | .subscribe _ _ | .unsubscribe _ _ => []

variable {node : Node} {hands : Hands}

theorem keeps_script (h : node.Keeps hands accepted kicked) (r : Request) :
    (r.script.run node).1.Keeps hands accepted (kicked ++ r.detached accepted) := by
  cases r with
  | subscribe uid gids =>
    rw [script, Script.run_subscribeUser h.orderly.groupWriter, Request.detached, List.append_nil]
    exact h.regroupUser (fun g s hs hg => hg.subscribe h.orderly.distinct hs gids)
      (fun g s t hne => g.groupsOf_subscribe_of_ne hne gids) uid
  | unsubscribe uid gids =>
    rw [script, Script.run_unsubscribeUser h.orderly.groupWriter, Request.detached, List.append_nil]
    exact h.regroupUser (fun g s hs hg => hg.unsubscribe h.orderly.distinct hs gids)
      (fun g s t hne => g.groupsOf_unsubscribe_of_ne hne gids) uid
  | kick uid => exact h.kick uid

theorem sameOf_script (h : node.Keeps hands accepted kicked) (r : Request) (ht : t ∈ accepted)
    (huid : t.uid ≠ r.user) : node.SameOf t (r.script.run node).1 := by
  cases r with
  | subscribe uid gids =>
    rw [script, Script.run_subscribeUser h.orderly.groupWriter]
    exact h.sameOf_regroupUser (fun g s t hne => g.groupsOf_subscribe_of_ne hne gids) ht huid
  | unsubscribe uid gids =>
    rw [script, Script.run_unsubscribeUser h.orderly.groupWriter]
    exact h.sameOf_regroupUser (fun g s t hne => g.groupsOf_unsubscribe_of_ne hne gids) ht huid
  | kick uid => exact h.sameOf_kick ht huid

theorem box_script (h : node.Keeps hands accepted kicked) (r : Request) (ht : t ∈ accepted)
    (huid : t.uid ≠ r.user) :
    (r.script.run node).1.post.box t.slot = node.post.box t.slot := by
  cases r with
  | subscribe uid gids => rw [script, Script.run_subscribeUser h.orderly.groupWriter]
  | unsubscribe uid gids => rw [script, Script.run_unsubscribeUser h.orderly.groupWriter]
  | kick uid =>
    rw [script, Script.run_kick h.orderly.indexWriter h.orderly.groupWriter]
    exact Node.Keeps.box_foldl_close_of_ne
      (fun s hs => h.slot_ne_of_mem_ofUser hs ht (.inr huid)) node.post

end Request

/-- A change of the node that leaves the mailboxes of all sessions that it does not concern. -/
theorem changed_node {node : Node} (h : e.state.Keeps (handsOf e) accepted kicked)
    (hwaits : AllWait e) (hkeeps : node.Keeps (handsOf e) accepted kicked')
    (hsame : ∀ t ∈ accepted, ¬ concerned t → e.state.SameOf t node)
    (hbox : ∀ t ∈ accepted, ¬ concerned t → node.post.box t.slot = e.state.post.box t.slot)
    (log : List LogLine) :
    Changed e { e with state := node, log } accepted accepted kicked' concerned := by
  refine ⟨hkeeps, hsame, fun t _ hnot n hn => isCalm_of_waits fun c hc => ?_⟩
  -- the task of a session whose mailbox is as before waits as before
  refine Task.idle_of_box (hwaits n c hc) fun s hs => ?_
  obtain rfl : s = t := Option.some.inj (hs.symm.trans ((handsOf_of_some hc).symm.trans hn))
  exact hbox s (h.accepted_of_hold s ⟨n, hn⟩) hnot

theorem changed_request (h : e.state.Keeps (handsOf e) accepted kicked) (hwaits : AllWait e)
    (r : Request) (log : List LogLine) :
    Changed e { e with state := (r.script.run e.state).1, log } accepted accepted
      (kicked ++ r.detached accepted) fun t => t.uid = r.user :=
  changed_node h hwaits (r.keeps_script h) (fun _ ht huid => r.sameOf_script h ht huid)
    (fun _ ht huid => r.box_script h ht huid) log

/-- A packet concerns no session: tasks write what it queues, and go on. -/
theorem changed_deliver (h : e.state.Keeps (handsOf e) accepted kicked) (hwaits : AllWait e)
    (packet : Wire.Packet) (log : List LogLine) :
    Changed e { e with state := (e.state.deliver packet).2.1, log } accepted accepted kicked
      fun _ => False := by
  refine ⟨h.deliver packet, fun t _ _ => Node.Keeps.sameOf_deliver t e.state packet,
    fun t _ _ n hn c v hc htask => ?_⟩
  -- the packet may have queued something for the session, but not closed it
  refine (isCalm_of_waits (hwaits n) c v hc htask).of_cancelled ?_
  obtain ⟨queue, hbox⟩ := (h.box_deliver packet v.session.slot).1
  show ((e.state.deliver packet).2.1.post.box _).cancelled = _
  rw [hbox]

/-! ## 4. New clients -/

section Place

variable {c : Client Task} {node : Node}

theorem handsOf_place (node : Node) (log : List LogLine) :
    handsOf (Endpoint.place { e with state := node, log } name c) n =
      if n = name then c.task.session? else handsOf e n := by
  show ((e.clients.insert name c).get? n).bind _ = _
  rw [Table.get?_insert]
  by_cases hn : n = name
  · rw [if_pos hn.symm, if_pos hn]
    rfl
  · rw [if_neg (Ne.symm hn), if_neg hn]
    rfl

/-- A client comes under a free name, perhaps with a session that the node did not know. -/
theorem changed_place (h : e.state.Keeps (handsOf e) accepted kicked) (hwaits : AllWait e)
    (log : List LogLine) (hnew : ∀ t ∈ accepted, c.task.session? ≠ some t)
    (hkeeps : node.Keeps (handsOf (Endpoint.place { e with state := node, log } name c))
      accepted' kicked)
    (hsame : ∀ t ∈ accepted, e.state.SameOf t node)
    (hbox : ∀ t ∈ accepted, node.post.box t.slot = e.state.post.box t.slot) :
    Changed e (Endpoint.place { e with state := node, log } name c) accepted accepted' kicked
      fun _ => False := by
  refine ⟨hkeeps, fun t ht _ => hsame t ht, fun t ht _ n hn => isCalm_of_waits fun c' hc' => ?_⟩
  -- the task of the new client serves none of the sessions before
  have hne : n ≠ name := by
    intro hname
    rw [handsOf_place, if_pos hname] at hn
    exact hnew t ht hn
  have hc : e.clients.get? n = some c' :=
    ((Table.get?_insert _ _ _ _).trans (if_neg hne.symm)).symm.trans hc'
  -- all others see the mailboxes that they saw
  refine Task.idle_of_box (hwaits n c' hc) fun s hs => ?_
  exact hbox s (h.accepted_of_hold s ⟨n, (handsOf_of_some hc).trans hs⟩)

theorem changed_place_none (h : e.state.Keeps (handsOf e) accepted kicked) (hwaits : AllWait e)
    (hfree : handsOf e name = none) (hc : c.task.session? = none) :
    Changed e (e.place name c) accepted accepted kicked fun _ => False := by
  have hhands : handsOf (e.place name c) = handsOf e := by
    funext n
    refine (handsOf_place e.state e.log).trans ?_
    split
    · next hn => rw [hn, hc, hfree]
    · rfl
  refine changed_place h hwaits e.log (fun t _ => ?_) (hhands ▸ h) (fun t _ => .refl t _)
    fun _ _ => rfl
  rw [hc]
  exact nofun

theorem changed_admit (h : e.state.Keeps (handsOf e) accepted kicked) (hwaits : AllWait e)
    (hfree : handsOf e name = none) {id : UInt64} {uid : Int64} {token : String} {opened : Node}
    (hopen : e.state.openSession id uid token false = (s, opened))
    (hid : ∀ t ∈ accepted, t.id ≠ id) (gids : List Int64) (hc : c.task.session? = some s)
    (log : List LogLine) :
    Changed e
      (Endpoint.place { e with state := ((Script.enter s gids).run opened).1, log } name c)
      accepted (accepted ++ [s]) kicked fun _ => False := by
  refine changed_place h hwaits log (fun t ht => ?_) ?_
    (fun _ ht => h.sameOf_enter hopen hid gids ht) fun _ ht => h.box_enter hopen gids ht
  · rw [hc]
    exact fun hst => (h.fresh hopen).2.1 (Option.some.inj hst ▸ ht)
  · refine h.enter hopen hid gids hfree ?_ fun n hn => ?_
    · rw [handsOf_place, if_pos rfl, hc]
    · rw [handsOf_place, if_neg hn]

end Place

end Switchboard.Gateway
