import Switchboard.Proofs.Gateway.Operations

/-!
# Lifecycle — which sessions a gateway has after any run

A run is a list of events, each followed by as many steps of the tasks as there are to take, in any
order. Beside the server, its history says which sessions were accepted, and which of them a command
has kicked; from that and from the tasks that still run, the registries can be told.
-/

namespace Switchboard.Gateway

open Session WebSocket

/-! ## 1. Runs -/

/-- What happens to a gateway from outside. -/
inductive Event where
  /-- A client connects; if it is let in, its session has the id, which its generator gives next. -/
  | connect (id : UInt64) (name : String) (request : Http.Request)
  /-- Bytes come from a client, be they frames or not. -/
  | receive (name : String) (bytes : Bytes)
  /-- A client goes: nothing more comes, and writing fails. -/
  | drop (name : String)
  /-- A client stops reading, so that writing comes to a halt. -/
  | stall (name : String)
  | resume (name : String)
  | advance (span : Nat)
  /-- A packet or a command comes over a link. -/
  | accept (envelope : Wire.Envelope)
  | join (uid gid : Int64)

/-- A client comes when whoever had its name has been dropped. -/
def Server.arrive (server : Server) (id : UInt64) (name : String) (request : Http.Request)
    (dropped : Endpoint Node Task) : Server :=
  { server with ids := ⟨id - 1⟩, endpoint := dropped }.place name (server.reception? request)

/-- The session of a client that is answered in this way. -/
def Server.arrivals (server : Server) (id : UInt64) : Option Admission → List SessionRef
  | some (.admitted uid token) => [⟨server.node.post.boxes.size, id, uid, token⟩]
  | some (.answered _) | some (.refused _) | none => []

namespace Event

/-- The event, and then the steps of one task after the other. -/
def run (server : Server) : Event → Server
  | .connect id name request => { server with ids := ⟨id - 1⟩ }.connect name request
  | .receive name bytes => { server with endpoint := (server.endpoint.receive name bytes).2 }
  | .drop name => { server with endpoint := server.endpoint.drop name }
  | .stall name => { server with endpoint := server.endpoint.stall name }
  | .resume name => { server with endpoint := server.endpoint.resume name }
  | .advance span => { server with endpoint := server.endpoint.advance span }
  | .accept envelope => server.accept envelope
  | .join uid gid => server.join uid gid

/-- What the event does to a client, if it is about one that is there. -/
def touch? : Event → Option (String × (Client Task → Client Task))
  | .receive name bytes => some (name, Client.hear bytes)
  | .drop name => some (name, Client.drop)
  | .stall name => some (name, Client.stall)
  | .resume name => some (name, Client.resume)
  | .connect .. | .advance _ | .accept _ | .join .. => none

/-- What the event comes to, in whatever order the tasks take their steps. -/
inductive Leads (server : Server) : Event → Server → Prop where
  | connect {id : UInt64} {name : String} {request : Http.Request}
      {dropped e' : Endpoint Node Task}
      (hdropped : Settles (server.endpoint.alter name Client.drop) dropped)
      (hsettles : Settles (server.arrive id name request dropped).endpoint e') :
      Leads server (.connect id name request)
        { server.arrive id name request dropped with endpoint := e' }
  | touch {event : Event} {name : String} {f : Client Task → Client Task}
      {e' : Endpoint Node Task} (htouch : event.touch? = some (name, f))
      (hsettles : Settles (server.endpoint.alter name f) e') :
      Leads server event { server with endpoint := e' }
  | advance {span : Nat} {e' : Endpoint Node Task}
      (hpasses : Passes (server.endpoint.now + span) server.endpoint e') :
      Leads server (.advance span) { server with endpoint := e' }
  | accept {envelope : Wire.Envelope} {e' : Endpoint Node Task}
      (hsettles : Settles
        { server.endpoint with
          state := (server.node.accept envelope).1
          log := server.endpoint.log ++ (server.node.accept envelope).2 } e') :
      Leads server (.accept envelope) { server with endpoint := e' }
  | join {uid gid : Int64} : Leads server (.join uid gid) (server.join uid gid)

/-- The session that the event brings, if a client is let in. -/
def admitted (server : Server) : Event → List SessionRef
  | .connect id _ request => server.arrivals id (server.reception? request)
  | _ => []

/-- The request of an event that is a command in order. -/
def request? : Event → Option Request
  | .accept (.command command) => (Request.ofCommand? command).bind Except.toOption
  | _ => none

/-- The sessions that the event detaches from the registries, out of all that were accepted. -/
def detached (accepted : List SessionRef) (event : Event) : List SessionRef :=
  (event.request?.map (Request.detached accepted)).getD []

/-- The event is about the session: about the socket behind it, about its user, or, when time
passes, its task has come to its end. -/
def Concerns (server server' : Server) (t : SessionRef) : Event → Prop
  | .connect _ name _ | .receive name _ | .drop name | .stall name | .resume name =>
    handsOf server.endpoint name = some t
  | .advance _ => (handsOf server.endpoint).Hold t ∧ ¬ (handsOf server'.endpoint).Hold t
  | .accept (.command command) =>
    ∃ request, (Event.accept (.command command)).request? = some request ∧ t.uid = request.user
  | .accept (.packet _) | .join _ _ => False

end Event

/-- A server with the sessions that it has ever accepted, in order, and those of them whose user was
kicked since. -/
structure History where
  server : Server
  accepted : List SessionRef := []
  kicked : List SessionRef := []

namespace History

def next (h : History) (event : Event) : History where
  server := event.run h.server
  accepted := h.accepted ++ event.admitted h.server
  kicked := h.kicked ++ event.detached h.accepted

/-- A server that starts without clients. -/
def start (pipeSize : Nat) (tokens : Auth.TokenTable) (directory : Directory) : History where
  server := { endpoint := { state := {}, pipeSize }, tokens, directory }

def after (pipeSize : Nat) (tokens : Auth.TokenTable) (directory : Directory)
    (events : List Event) : History :=
  events.foldl next (start pipeSize tokens directory)

/-- The history after one event more, in whatever order the tasks have taken their steps. -/
structure Leads (h : History) (event : Event) (h' : History) : Prop where
  server : event.Leads h.server h'.server
  accepted : h'.accepted = h.accepted ++ event.admitted h.server
  kicked : h'.kicked = h.kicked ++ event.detached h.accepted

/-- The histories that a list of events can lead to. -/
inductive Reaches (pipeSize : Nat) (tokens : Auth.TokenTable) (directory : Directory) :
    List Event → History → Prop where
  | start : Reaches pipeSize tokens directory [] (start pipeSize tokens directory)
  | next {events : List Event} {event : Event} {h h' : History}
      (hbefore : Reaches pipeSize tokens directory events h) (hleads : h.Leads event h') :
      Reaches pipeSize tokens directory (events ++ [event]) h'

/-- The generator of ids gave no id twice. -/
def OwnIds (h : History) : Prop := (h.accepted.map SessionRef.id).Nodup

def Runs (h : History) (s : SessionRef) : Prop :=
  ∃ name c v, h.server.endpoint.clients.get? name = some c ∧ c.task = .serving v ∧ v.session = s

/-- The node fits its history, and every task has to wait. -/
structure Settled (h : History) : Prop where
  keeps : h.server.node.Keeps (handsOf h.server.endpoint) h.accepted h.kicked
  waits : AllWait h.server.endpoint

end History

/-! ## 2. One event -/

section Connect

variable {server : Server} {accepted kicked : List SessionRef}

theorem size_eq_of_keeps {node node' : Node} {hands hands' : Hands}
    (h : node.Keeps hands accepted kicked) (h' : node'.Keeps hands' accepted kicked) :
    node'.post.boxes.size = node.post.boxes.size := by
  have hrange := h'.slots.symm.trans h.slots
  have hlength := congrArg List.length hrange
  rwa [List.length_range, List.length_range] at hlength

/-- Only who is admitted brings a session. -/
theorem changed_place_server (h : server.node.Keeps (handsOf server.endpoint) accepted kicked)
    (hwaits : AllWait server.endpoint) {name : String} (hfree : handsOf server.endpoint name = none)
    (reception? : Option Admission)
    (hnew : ∀ s ∈ server.arrivals server.ids.next.1 reception?, ∀ t ∈ accepted, t.id ≠ s.id) :
    Changed server.endpoint (server.place name reception?).endpoint accepted
      (accepted ++ server.arrivals server.ids.next.1 reception?) kicked fun _ => False := by
  have hnobody : ∀ c : Client Task, c.task.session? = none →
      Changed server.endpoint (server.endpoint.place name c) accepted (accepted ++ []) kicked
        fun _ => False := by
    intro c hc
    rw [List.append_nil]
    exact changed_place_none h hwaits hfree hc
  rcases reception? with - | response | closing | ⟨uid, token⟩
  · exact hnobody _ rfl
  · exact hnobody _ rfl
  · exact hnobody _ rfl
  · exact changed_admit h hwaits hfree rfl (hnew _ List.mem_cons_self) _ rfl _

/-- A client comes, after whoever had its name has gone. -/
theorem changed_arrive (h : server.node.Keeps (handsOf server.endpoint) accepted kicked)
    {id : UInt64} {name : String} {request : Http.Request} {dropped : Endpoint Node Task}
    (hdropped : Settles (server.endpoint.alter name Client.drop) dropped)
    (hrespects : Respects server.endpoint dropped accepted accepted kicked
      (handsOf server.endpoint name = some ·))
    (hnew : ∀ s ∈ (Event.connect id name request).admitted server, ∀ t ∈ accepted, t.id ≠ s.id) :
    Changed dropped (server.arrive id name request dropped).endpoint accepted
      (accepted ++ (Event.connect id name request).admitted server) kicked fun _ => False := by
  let before : Server := { server with ids := ⟨id - 1⟩, endpoint := dropped }
  -- dropping the old client gives out no slot, and the generator goes on to the id
  have harrivals : (Event.connect id name request).admitted server =
      before.arrivals before.ids.next.1 (server.reception? request) := by
    have hsize : dropped.state.post.boxes.size = server.node.post.boxes.size :=
      size_eq_of_keeps h hrespects.keeps
    have hid : before.ids.next.1 = id := UInt64.sub_add_cancel id 1
    unfold Event.admitted Server.arrivals Server.node
    rw [hid, hsize]
    rfl
  rw [harrivals] at hnew ⊢
  exact @changed_place_server before accepted kicked hrespects.keeps hrespects.waits name
    (handsOf_of_dropped h hdropped) _ hnew

end Connect

section Accept

variable {e : Endpoint Node Task} {accepted kicked : List SessionRef}

/-- A command that is not in order changes nothing, and the others are requests. -/
theorem changed_obey (h : e.state.Keeps (handsOf e) accepted kicked) (hwaits : AllWait e)
    (command : Wire.Command) (log : List LogLine) :
    Changed e { e with state := (e.state.obey command).1, log } accepted accepted
      (kicked ++ (Event.accept (.command command)).detached accepted) fun t =>
        ∃ request, (Event.accept (.command command)).request? = some request ∧
          t.uid = request.user := by
  have hrequest? : (Event.accept (.command command)).request? =
      (Request.ofCommand? command).bind Except.toOption := rfl
  unfold Node.obey Event.detached
  rw [hrequest?]
  cases hof : Request.ofCommand? command with
  | none =>
    -- an unknown kind
    dsimp only [Option.bind_none, Option.map_none, Option.getD_none]
    rw [List.append_nil]
    exact changed_node h hwaits h (fun t _ _ => .refl t _) (fun _ _ _ => rfl) log
  | some read =>
    cases read with
    | error fault =>
      -- arguments out of order
      dsimp only [Option.bind_some, Except.toOption, Option.map_none, Option.getD_none]
      rw [List.append_nil]
      exact changed_node h hwaits h (fun t _ _ => .refl t _) (fun _ _ _ => rfl) log
    | ok request =>
      dsimp only [Option.bind_some, Except.toOption, Option.map_some, Option.getD_some]
      have hdone := changed_request h hwaits request log
      refine ⟨hdone.keeps, fun t ht hnot => hdone.sameOf t ht fun huid => ?_,
        fun t ht hnot => hdone.calm t ht fun huid => ?_⟩
      · exact hnot ⟨request, rfl, huid⟩
      · exact hnot ⟨request, rfl, huid⟩

theorem changed_accept {server : Server}
    (h : server.node.Keeps (handsOf server.endpoint) accepted kicked)
    (hwaits : AllWait server.endpoint) (server' : Server) (envelope : Wire.Envelope)
    (log : List LogLine) :
    Changed server.endpoint
      { server.endpoint with state := (server.node.accept envelope).1, log } accepted accepted
      (kicked ++ (Event.accept envelope).detached accepted)
      ((Event.accept envelope).Concerns server server') := by
  cases envelope with
  | command command => exact changed_obey h hwaits command log
  | packet packet =>
    show Changed _ _ accepted accepted (kicked ++ []) _
    rw [List.append_nil]
    exact changed_deliver h hwaits packet log

end Accept

namespace Event

theorem task_touch {event : Event} {name : String} {f : Client Task → Client Task}
    (htouch : event.touch? = some (name, f)) (c : Client Task) : (f c).task = c.task := by
  cases event with
  | receive name' bytes =>
    obtain ⟨-, rfl⟩ := Prod.mk.inj (Option.some.inj htouch)
    exact task_hear bytes c
  | drop name' | stall name' | resume name' =>
    obtain ⟨-, rfl⟩ := Prod.mk.inj (Option.some.inj htouch)
    rfl
  | connect | advance | accept | join => cases htouch

/-- An event that is about a client brings no session, and concerns the one behind it. -/
theorem of_touch {event : Event} {name : String} {f : Client Task → Client Task}
    (htouch : event.touch? = some (name, f)) (server server' : Server)
    (accepted : List SessionRef) :
    event.admitted server = [] ∧ event.detached accepted = [] ∧
      ∀ t, event.Concerns server server' t ↔ handsOf server.endpoint name = some t := by
  cases event with
  | receive name' | drop name' | stall name' | resume name' =>
    obtain ⟨rfl, -⟩ := Prod.mk.inj (Option.some.inj htouch)
    exact ⟨rfl, rfl, fun t => .rfl⟩
  | connect | advance | accept | join => cases htouch

end Event

namespace History

variable {h h' : History} {event : Event}

/-- The ids of before are given once, and none of them to a session that the event brings. -/
theorem OwnIds.of_accepted (hids : h'.OwnIds)
    (haccepted : h'.accepted = h.accepted ++ event.admitted h.server) :
    h.OwnIds ∧ ∀ s ∈ event.admitted h.server, ∀ t ∈ h.accepted, t.id ≠ s.id := by
  unfold OwnIds at hids ⊢
  rw [haccepted, List.map_append, List.nodup_append] at hids
  refine ⟨hids.1, fun s hs t ht => ?_⟩
  exact hids.2.2 _ (List.mem_map_of_mem ht) _ (List.mem_map_of_mem hs)

/-- Every event keeps the history, and changes nothing of a session that it is not about. -/
theorem respects_leads (hsettled : h.Settled) (hleads : h.Leads event h') (hids : h'.OwnIds) :
    Respects h.server.endpoint h'.server.endpoint h.accepted h'.accepted h'.kicked
      (event.Concerns h.server h'.server) := by
  obtain ⟨-, hnew⟩ := hids.of_accepted hleads.accepted
  obtain ⟨hkeeps, hwaits⟩ := hsettled
  obtain ⟨hserver, haccepted, hkicked⟩ := hleads
  rw [haccepted, hkicked]
  generalize h'.server = server' at hserver ⊢
  cases hserver with
  | @connect id name request dropped e' hdropped hsettles =>
    have hdrop : Respects h.server.endpoint dropped h.accepted h.accepted h.kicked
        (handsOf h.server.endpoint name = some ·) :=
      (changed_drop hkeeps hwaits name).settles (fun _ ht => ht) hdropped
    have harrive := (changed_arrive hkeeps hdropped hdrop hnew).settles
      (fun _ ht => List.mem_append_left _ ht) hsettles
    show Respects _ _ _ _ (h.kicked ++ []) _
    rw [List.append_nil]
    exact hdrop.trans (fun _ ht => ht) harrive.anyway
  | touch htouch hsettles =>
    have hdone := (changed_alter hkeeps hwaits (Event.task_touch htouch)).settles
      (fun _ ht => ht) hsettles
    obtain ⟨hadmitted, hdetached, hconcerns⟩ := Event.of_touch htouch h.server _ h.accepted
    rw [hadmitted, hdetached, List.append_nil, List.append_nil]
    exact ⟨hdone.keeps, hdone.waits, fun t ht hnot =>
      hdone.sameOf t ht fun hname => hnot ((hconcerns t).2 hname)⟩
  | advance hpasses =>
    show Respects _ _ _ (h.accepted ++ []) (h.kicked ++ []) _
    rw [List.append_nil, List.append_nil]
    exact respects_passes hkeeps hpasses
  | accept hsettles =>
    show Respects _ _ _ (h.accepted ++ []) _ _
    rw [List.append_nil]
    exact (changed_accept hkeeps hwaits _ _ _).settles (fun _ ht => ht) hsettles
  | join =>
    show Respects _ _ _ (h.accepted ++ []) (h.kicked ++ []) _
    rw [List.append_nil, List.append_nil]
    exact .refl hkeeps hwaits

/-- To let one task after the other settle is one of the orders. -/
theorem leads_next (hsettled : h.Settled) (event : Event) (hids : (h.next event).OwnIds) :
    h.Leads event (h.next event) := by
  obtain ⟨hkeeps, hwaits⟩ := hsettled
  refine ⟨?_, rfl, rfl⟩
  show event.Leads h.server (event.run h.server)
  have htouch : ∀ {name f}, event.touch? = some (name, f) →
      event.Leads h.server
        { h.server with endpoint := (h.server.endpoint.alter name f).settle } := fun htouch =>
    .touch htouch (settles_settle (changed_alter hkeeps hwaits (Event.task_touch htouch)).keeps)
  cases event with
  | connect id name request =>
    have hdrop := changed_drop hkeeps hwaits name
    have hdropped := settles_settle hdrop.keeps
    have harrive := changed_arrive hkeeps hdropped (hdrop.settles (fun _ ht => ht) hdropped)
      (hids.of_accepted rfl).2
    exact .connect hdropped (settles_settle harrive.keeps)
  | receive name bytes =>
    show Event.Leads h.server _
      { h.server with endpoint := (h.server.endpoint.receive name bytes).2 }
    unfold Endpoint.receive
    split
    · exact htouch rfl
    · next hdead =>
      -- nobody hears what a client sends that is not there any more
      have hsettles : Settles (h.server.endpoint.alter name (Client.hear bytes))
          h.server.endpoint := by
        unfold Endpoint.alter
        rw [Table.modify_of_get? fun c hc => ?_]
        · exact .refl hwaits
        · rw [hc] at hdead
          exact if_neg hdead
      exact .touch rfl hsettles
  | drop name | stall name | resume name => exact htouch rfl
  | advance span => exact .advance (passes_advanceTo _ hkeeps hwaits)
  | accept envelope =>
    exact .accept (settles_settle (changed_accept hkeeps hwaits h.server _ _).keeps)
  | join uid gid => exact .join

/-! ## 3. All runs -/

variable {pipeSize : Nat} {tokens : Auth.TokenTable} {directory : Directory}

theorem Settled.leads (hsettled : h.Settled) (hleads : h.Leads event h') (hids : h'.OwnIds) :
    h'.Settled :=
  ⟨(respects_leads hsettled hleads hids).keeps, (respects_leads hsettled hleads hids).waits⟩

theorem after_append (events : List Event) (event : Event) :
    after pipeSize tokens directory (events ++ [event]) =
      (after pipeSize tokens directory events).next event := by
  unfold after
  rw [List.foldl_append]
  rfl

theorem settled_of_reaches {events : List Event}
    (hreaches : Reaches pipeSize tokens directory events h) (hids : h.OwnIds) : h.Settled := by
  -- event by event, with the history so far settled
  induction hreaches with
  | start => exact ⟨Node.keeps_empty, fun _ _ hc => nomatch hc⟩
  | next _ hleads ih => exact (ih (hids.of_accepted hleads.accepted).1).leads hleads hids

theorem reaches_after (events : List Event)
    (hids : (after pipeSize tokens directory events).OwnIds) :
    Reaches pipeSize tokens directory events (after pipeSize tokens directory events) := by
  induction events using List.reverseRecOn with
  | nil => exact .start
  | append_singleton events event ih =>
    rw [after_append] at hids ⊢
    have hbefore := (OwnIds.of_accepted hids rfl).1
    exact (ih hbefore).next (leads_next (settled_of_reaches (ih hbefore) hbefore) event hids)

theorem settled_after (events : List Event)
    (hids : (after pipeSize tokens directory events).OwnIds) :
    (after pipeSize tokens directory events).Settled :=
  settled_of_reaches (reaches_after events hids) hids

theorem hold_iff_runs (s : SessionRef) : (handsOf h.server.endpoint).Hold s ↔ h.Runs s := by
  constructor
  · rintro ⟨name, hname⟩
    obtain ⟨c, hc, hs⟩ := Option.bind_eq_some_iff.1 hname
    cases htask : c.task with
    | serving v =>
      rw [htask] at hs
      exact ⟨name, c, v, hc, htask, Option.some.inj hs⟩
    | refusing => rw [htask] at hs; cases hs
    | finished => rw [htask] at hs; cases hs
  · rintro ⟨name, c, v, hc, htask, rfl⟩
    refine ⟨name, (handsOf_of_some hc).trans ?_⟩
    rw [htask]
    rfl

/-- What the registries and mailboxes tell when every task has to wait: a session is registered, by
its id and by its user, while its task runs and nobody has kicked it; a group has the registered
sessions that have joined it, each once; and of a session whose task is over nothing is left. -/
structure Tidy (h : History) : Prop where
  waits : AllWait h.server.endpoint
  registered : ∀ s, s ∈ h.server.node.index.all ↔ s ∈ h.accepted ∧ h.Runs s ∧ s ∉ h.kicked
  once : h.server.node.index.all.Nodup
  byId : ∀ id s, h.server.node.index.byId.get? id = some s ↔
    s ∈ h.server.node.index.all ∧ s.id = id
  ofUser : ∀ uid s, s ∈ h.server.node.index.ofUser uid ↔
    s ∈ h.server.node.index.all ∧ s.uid = uid
  ofUserOnce : ∀ uid, (h.server.node.index.ofUser uid).Nodup
  members : ∀ gid s, s ∈ h.server.node.groups.members gid ↔
    s ∈ h.server.node.index.all ∧ gid ∈ h.server.node.groups.groupsOf s
  membersOnce : ∀ gid, (h.server.node.groups.members gid).Nodup
  returned : ∀ s ∈ h.accepted, ¬ h.Runs s →
    h.server.node.post.isClosed s = true ∧ (h.server.node.post.box s.slot).queue = [] ∧
      h.server.node.groups.groupsOf s = [] ∧ s ∉ h.server.node.index.all ∧
      (∀ uid, s ∉ h.server.node.index.ofUser uid) ∧ ∀ gid, s ∉ h.server.node.groups.members gid

theorem Settled.members (hsettled : h.Settled) (gid : Int64) (s : SessionRef) :
    s ∈ h.server.node.groups.members gid ↔
      s ∈ h.server.node.index.all ∧ gid ∈ h.server.node.groups.groupsOf s := by
  have hcoherent := hsettled.keeps.orderly.coherent
  constructor
  · intro hs
    have hknown := hcoherent.known_of_mem hs
    have hgid := (hcoherent.mem_iff hknown gid).1 hs
    refine ⟨?_, hgid⟩
    -- out of the index it would be in no group
    by_contra hout
    rw [hsettled.keeps.outside s hknown hout] at hgid
    exact List.not_mem_nil hgid
  · -- a session in the index is known to the groups, whose sides agree
    rintro ⟨hs, hgid⟩
    exact (hcoherent.mem_iff (hsettled.keeps.orderly.known_of_mem s hs) gid).2 hgid

theorem Settled.tidy (hsettled : h.Settled) : h.Tidy := by
  have hkeeps := hsettled.keeps
  have hrepresents := hkeeps.orderly.represents
  have hregistered : ∀ s, s ∈ h.server.node.index.all ↔
      s ∈ h.accepted ∧ h.Runs s ∧ s ∉ h.kicked := by
    intro s
    rw [hkeeps.registered, hold_iff_runs]
  refine
    { waits := hsettled.waits
      registered := hregistered
      once := hrepresents.nodup
      byId := hrepresents.get?_byId
      ofUser := fun uid s => hrepresents.mem_ofUser
      ofUserOnce := fun uid => hrepresents.ofUser_eq uid ▸ hrepresents.nodup.filter _
      members := hsettled.members
      membersOnce := hkeeps.orderly.coherent.nodup_members
      returned := fun s hs hover => ?_ }
  obtain ⟨hclosed, hqueue⟩ := hkeeps.returned s hs fun hheld => hover ((hold_iff_runs s).1 hheld)
  have hout : s ∉ h.server.node.index.all := fun hin => hover ((hregistered s).1 hin).2.1
  refine ⟨hclosed, hqueue, hkeeps.outside s hs hout, hout, fun uid hin => ?_, fun gid hin => ?_⟩
  · exact hout (hrepresents.mem_ofUser.1 hin).1
  · exact hout ((hsettled.members gid s).1 hin).1

/-- At the end of every run, in whatever order the tasks take their steps, the gateway is tidy, and
no event changes the registration or the groups of a session that it is not about. To let one task
after the other settle is one of the orders. -/
theorem tidy_after (pipeSize : Nat) (tokens : Auth.TokenTable) (directory : Directory)
    (events : List Event) :
    (∀ h, Reaches pipeSize tokens directory events h → h.OwnIds →
      h.Tidy ∧ ∀ event h', h.Leads event h' → h'.OwnIds → ∀ s ∈ h.accepted,
        ¬ event.Concerns h.server h'.server s →
          (s ∈ h'.server.node.index.all ↔ s ∈ h.server.node.index.all) ∧
            h'.server.node.groups.groupsOf s = h.server.node.groups.groupsOf s ∧
            ∀ gid, s ∈ h'.server.node.groups.members gid ↔
              s ∈ h.server.node.groups.members gid) ∧
    ((after pipeSize tokens directory events).OwnIds →
      Reaches pipeSize tokens directory events (after pipeSize tokens directory events) ∧
        ∀ event, ((after pipeSize tokens directory events).next event).OwnIds →
          (after pipeSize tokens directory events).Leads event
            ((after pipeSize tokens directory events).next event)) := by
  refine ⟨fun h hreaches hids => ?_, fun hids => ⟨reaches_after events hids, fun event =>
    leads_next (settled_after events hids) event⟩⟩
  have hsettled : h.Settled := settled_of_reaches hreaches hids
  refine ⟨hsettled.tidy, fun event h' hleads hids' s hs hnot => ?_⟩
  -- the buckets follow from the index and the sets of groups, before the event and after it
  obtain ⟨hregistered, hgroups⟩ := (respects_leads hsettled hleads hids').sameOf s hs hnot
  refine ⟨hregistered, hgroups, fun gid => ?_⟩
  rw [(hsettled.leads hleads hids').members, hsettled.members]
  exact and_congr hregistered (iff_of_eq (congrArg (gid ∈ ·) hgroups))

/-! ### A run with two devices of one user -/

def visit (token : String) : Http.Request where
  method := "GET"
  target := "/ws"
  headers := [("connection", Text.Utf8.encode "upgrade"), ("upgrade", Text.Utf8.encode "websocket"),
    ("sec-websocket-key", []), ("sec-websocket-version", Text.Utf8.encode "13"),
    ("authorization", Text.Utf8.encode ("Bearer " ++ token))]
  body := []

def visiting : List Event :=
  [.connect 7 "phone" (visit "red"), .connect 9 "laptop" (visit "red"),
    .accept (.command ⟨"sub_group", .ofList [("uid", "1"), ("gids", "5")]⟩)]

def visits : History := after 65536 (Auth.TokenTable.empty.insert 1 "red") .empty visiting

def phone : SessionRef := ⟨0, 7, 1, "red"⟩

theorem tidy_after_visits :
    visits.Tidy ∧ phone ∈ visits.server.node.index.all ∧
      phone ∈ (visits.next (.drop "laptop")).server.node.index.all := by
  have hids : visits.OwnIds := by
    unfold OwnIds
    decide +kernel
  have hnext : (visits.next (.drop "laptop")).OwnIds := by
    unfold OwnIds
    decide +kernel
  obtain ⟨hall, hown⟩ := tidy_after 65536 (Auth.TokenTable.empty.insert 1 "red") .empty visiting
  obtain ⟨hreaches, hleads⟩ := hown hids
  obtain ⟨htidy, hframe⟩ := hall visits hreaches hids
  have hphone : phone ∈ visits.server.node.index.all := by decide +kernel
  have hdrop := hframe (.drop "laptop") _ (hleads _ hnext) hnext phone (by decide +kernel)
    (by unfold Event.Concerns; decide +kernel)
  exact ⟨htidy, hphone, hdrop.1.2 hphone⟩

end History

end Switchboard.Gateway
