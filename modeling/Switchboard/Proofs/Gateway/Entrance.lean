import Switchboard.Proofs.Config
import Switchboard.Proofs.Gateway.Lifecycle
import Switchboard.Proofs.Session.Attendance
import Switchboard.Startup

/-!
# Entrance — who is let in, and what is left of who is not

A client comes last of all, while the tasks of the others wait. So its own task alone takes steps: a
refused client is told why and that is all, and an admitted one has its session registered and its
first heartbeat sent. Nothing else changes. A client whose pipe does not hold the response is never
answered.
-/

namespace Switchboard

/-! ## 1. The directory -/

namespace Directory

theorem mem_groupsOf_join (d : Directory) (uid gid uid' gid' : Int64) :
    gid' ∈ (d.join uid gid).groupsOf uid' ↔ gid' ∈ d.groupsOf uid' ∨ (uid = uid' ∧ gid' = gid) := by
  show gid' ∈ ((d.members.insert uid _).get? uid').getD [] ↔ _
  rw [Table.get?_insert]
  split
  · next huid =>
    subst huid
    rw [Option.getD_some]
    split
    · next hin => exact ⟨.inl, fun h => h.elim id fun h => h.2 ▸ hin⟩
    · simp
  · next huid => simp [huid, groupsOf, Table.getD]

theorem mem_groupsOf_joinAll (d : Directory) (uid : Int64) (gids : List Int64) (uid' gid : Int64) :
    gid ∈ (gids.foldl (fun d gid => d.join uid gid) d).groupsOf uid' ↔
      gid ∈ d.groupsOf uid' ∨ (uid = uid' ∧ gid ∈ gids) := by
  induction gids generalizing d with
  | nil => simp
  | cons gid' gids ih =>
    rw [List.foldl_cons, ih, mem_groupsOf_join, List.mem_cons, or_assoc, ← and_or_left]

/-- Entries of one user count together. -/
theorem mem_groupsOf_ofEntries (entries : List (Int64 × List Int64)) (uid gid : Int64) :
    gid ∈ (ofEntries entries).groupsOf uid ↔ ∃ e ∈ entries, e.1 = uid ∧ gid ∈ e.2 := by
  suffices hall : ∀ d : Directory,
      gid ∈ (entries.foldl (fun d e => e.2.foldl (fun d gid => d.join e.1 gid) d) d).groupsOf uid ↔
        gid ∈ d.groupsOf uid ∨ ∃ e ∈ entries, e.1 = uid ∧ gid ∈ e.2 by
    exact (hall empty).trans (or_iff_right List.not_mem_nil)
  induction entries with
  | nil => simp
  | cons e entries ih =>
    intro d
    rw [List.foldl_cons, ih, mem_groupsOf_joinAll, or_assoc]
    simp only [List.mem_cons, exists_eq_or_imp]

end Directory

namespace Gateway

open Session WebSocket

/-! ## 2. The first steps of a task -/

section FirstSteps

variable {now capacity : Nat} {node : Node}

/-- Nothing holds a close frame up, so a refused client has it at once. -/
theorem run_refusing (frame : Message) :
    WebSocket.Turn.run now
        { socket := Socket.write { pipe := { capacity } } frame
          task := .refusing, state := node } =
      ({ socket := (Socket.write { pipe := { capacity } } frame).close, task := .finished
         state := node } : Turn) :=
  rfl

/-- Before a client has sent anything, only a heartbeat wakes the task of its session up. -/
theorem isReady_fresh {v : Serving} {socket : Socket} (hbox : node.post.box v.session.slot = {})
    (hreader : socket.reader = { role := .server }) (hgone : socket.gone = false) (w : Wakeup) :
    v.isReady now socket node w = (decide (w = .tick) && decide (v.nextTick ≤ now)) := by
  cases w with
  | closed =>
    rw [Serving.isReady, hbox]
    rfl
  | frame =>
    rw [Serving.isReady, hreader, hgone]
    rfl
  | payload =>
    rw [Serving.isReady, hbox]
    rfl
  | tick => exact (Bool.true_and _).symm

/-- The first step of a session is its first heartbeat, and then it waits for the next. -/
theorem run_serving {s : SessionRef} (hbox : node.post.box s.slot = {}) :
    WebSocket.Turn.run now
        { socket := { pipe := { capacity } }
          task := .serving { session := s, lastSeen := now, nextTick := now }, state := node } =
      ({ socket := Socket.write { pipe := { capacity } } (.ping [])
         task := .serving { session := s, lastSeen := now, nextTick := now + pingInterval }
         state := node } : Turn) := by
  have hpinged : Task.step? now { pipe := { capacity } } node
      (.serving { session := s, lastSeen := now, nextTick := now }) =
        some { socket := Socket.write { pipe := { capacity } } (.ping [])
               task := .serving { session := s, lastSeen := now, nextTick := now + pingInterval
                                  write := some .ping }
               state := node } := by
    show (Serving.order.find? _).map _ = _
    rw [funext (isReady_fresh hbox rfl rfl)]
    simp only [Nat.le_refl, decide_true, Bool.and_true]
    show some (Serving.tick _ _ _ _) = _
    rw [Serving.tick, Nat.sub_self, if_neg (Nat.not_lt_zero _)]
  have hwritten : Task.step? now (Socket.write { pipe := { capacity } } (.ping [])) node
      (.serving { session := s, lastSeen := now, nextTick := now + pingInterval
                  write := some .ping }) =
        some { socket := Socket.write { pipe := { capacity } } (.ping [])
               task := .serving { session := s, lastSeen := now, nextTick := now + pingInterval }
               state := node } := rfl
  have hidle : Task.step? now (Socket.write { pipe := { capacity } } (.ping [])) node
      (.serving { session := s, lastSeen := now, nextTick := now + pingInterval }) = none := by
    have hlater : ¬ now + pingInterval ≤ now := Nat.not_le.2 (Nat.lt_add_of_pos_right (by decide))
    show (Serving.order.find? _).map _ = _
    rw [funext (isReady_fresh hbox rfl rfl)]
    simp only [hlater, decide_false, Bool.and_false]
    rfl
  show WebSocket.Turn.settle now (_ + 4) _ = _
  rw [settle_of_step hpinged, settle_of_step hwritten, settle_of_idle hidle]
  rfl

end FirstSteps

/-! ## 3. A client comes -/

section Arrival

variable {e : Endpoint Node Task} {name : String} {accepted kicked : List SessionRef}

/-- Dropping nobody does nothing. -/
theorem drop_of_free (hwaits : AllWait e) (hfree : e.clients.get? name = none) :
    e.drop name = e := by
  have hclients : e.clients.modify name Client.drop = e.clients :=
    Table.modify_of_get? fun c hc => nomatch hfree.symm.trans hc
  rw [Endpoint.drop, Endpoint.alter, hclients]
  exact settle_of_allWait hwaits

/-- The endpoint has one client more, and the others are as they were. -/
structure Arrived (before after : Endpoint Node Task) (name : String) (c : Client Task)
    (node : Node) : Prop where
  state : after.state = node
  client : after.clients.get? name = some c
  others : ∀ n, n ≠ name → after.clients.get? n = before.clients.get? n

/-- Only the task of the client who comes takes steps. -/
theorem arrived_place {node : Node} (log : List LogLine) {c : Client Task} {turn : Turn}
    (hfree : e.clients.get? name = none)
    (hwaits : ∀ n c, e.clients.get? n = some c → c.task.step? e.now c.socket node = none)
    (hturn : WebSocket.Turn.run e.now { socket := c.socket, task := c.task, state := node } =
      turn) :
    Arrived e (Endpoint.place { e with state := node, log } name c).settle name
      { c with socket := turn.socket, task := turn.task } turn.state := by
  let arriving : Endpoint Node Task := Endpoint.place { e with state := node, log } name c
  have hget : arriving.clients.get? name = some c := (Table.get?_insert ..).trans (if_pos rfl)
  have hothers : ∀ n, n ≠ name → arriving.clients.get? n = e.clients.get? n :=
    fun n hne => (Table.get?_insert ..).trans (if_neg (Ne.symm hne))
  have hsettle : arriving.settle = arriving.settleClient name :=
    settle_insert hfree fun n hne c' hc' => hwaits n c' ((hothers n hne).symm.trans hc')
  show Arrived e arriving.settle name _ _
  rw [hsettle]
  refine ⟨?_, ?_, fun n hne => (get?_settleClient_of_ne hne).trans (hothers n hne)⟩
  · rw [settleClient_of_some hget]
    exact congrArg Turn.state hturn
  · rw [get?_settleClient_self hget]
    exact congrArg (fun turn : Turn => some { c with socket := turn.socket, task := turn.task })
      hturn

end Arrival

/-! ## 4. A session opens -/

/-- The node with a new session, registered and in these groups. -/
def Node.entered (node : Node) (s : SessionRef) (gids : List Int64) : Node :=
  { node with
    post := (node.post.openBox false).2
    groups := node.groups.subscribe s gids
    index := node.index.add s }

/-- The session that the next admitted client gets. -/
def Server.newcomer (server : Server) (uid : Int64) (token : String) : SessionRef :=
  ⟨server.node.post.boxes.size, server.ids.next.1, uid, token⟩

/-- The registries have one session more, in these groups, and are otherwise as they were. -/
structure Entered (before after : Node) (s : SessionRef) (gids : List Int64) : Prop where
  all : after.index.all = before.index.all ++ [s]
  byId : after.index.byId.get? s.id = some s
  ofUser : ∀ uid, after.index.ofUser uid =
    if uid = s.uid then before.index.ofUser uid ++ [s] else before.index.ofUser uid
  groups : ∀ gid, gid ∈ after.groups.groupsOf s ↔ gid ∈ gids
  groupsOnce : (after.groups.groupsOf s).Nodup
  members : ∀ gid, after.groups.members gid =
    if gid ∈ gids then before.groups.members gid ++ [s] else before.groups.members gid
  fresh : ∀ gid, s ∉ before.groups.members gid
  slots : after.post.boxes.size = before.post.boxes.size + 1
  kept : ∀ t : SessionRef, t.slot < before.post.boxes.size →
    after.post.box t.slot = before.post.box t.slot ∧
      after.groups.groupsOf t = before.groups.groupsOf t

section Opening

variable {node : Node} {hands : Hands} {accepted kicked : List SessionRef} {s : SessionRef}

theorem run_enter_opened (hindex : node.indexWriter = true) (hgroups : node.groupWriter = true)
    (s : SessionRef) (gids : List Int64) :
    (Script.enter s gids).run { node with post := (node.post.openBox false).2 } =
      (node.entered s gids, []) := by
  let opened : Node := { node with post := (node.post.openBox false).2 }
  have hindex' : opened.indexWriter = true := hindex
  have hgroups' : opened.groupWriter = true := hgroups
  exact Script.run_enter hindex' hgroups' s gids

theorem openSession_eq {server : Server} (hindex : server.node.indexWriter = true)
    (hgroups : server.node.groupWriter = true) (uid : Int64) (token : String) :
    server.openSession uid token =
      (server.newcomer uid token,
        { server with
          ids := server.ids.next.2
          endpoint := { server.endpoint with
            state := server.node.entered (server.newcomer uid token)
              (server.directory.groupsOf uid)
            log := server.endpoint.log ++ [] } }) := by
  have hrun := run_enter_opened hindex hgroups (server.newcomer uid token)
    (server.directory.groupsOf uid)
  exact congrArg (fun r : Node × List LogLine => (server.newcomer uid token,
    { server with
      ids := server.ids.next.2
      endpoint := { server.endpoint with state := r.1, log := server.endpoint.log ++ r.2 } })) hrun

theorem box_entered (node : Node) (s : SessionRef) (gids : List Int64) (slot : Nat) :
    (node.entered s gids).post.box slot =
      if slot = node.post.boxes.size then {} else node.post.box slot :=
  Post.box_openBox node.post false slot

theorem entered (h : node.Keeps hands accepted kicked) (hslot : s.slot = node.post.boxes.size)
    (hid : ∀ t ∈ accepted, t.id ≠ s.id) (gids : List Int64) :
    Entered node (node.entered s gids) s gids := by
  have hopen : node.openSession s.id s.uid s.token false =
      (s, { node with post := (node.post.openBox false).2 }) := by
    have hs : (⟨node.post.boxes.size, s.id, s.uid, s.token⟩ : SessionRef) = s := by rw [← hslot]
    exact Prod.ext hs rfl
  obtain ⟨-, -, hslots, -⟩ := h.fresh hopen
  have horderly := h.orderly_entered hopen hid gids
  rw [run_enter_opened h.orderly.indexWriter h.orderly.groupWriter] at horderly
  have hrepresents := horderly.represents
  have hcoherent := h.orderly.coherent
  have hunknown : ∀ gid, ∀ t ∈ node.groups.members gid, t.id ≠ s.id :=
    fun gid t ht => hid t (hcoherent.known_of_mem ht)
  refine
    { all := hrepresents.all_eq
      byId := (hrepresents.get?_byId s.id s).2 ⟨by simp, rfl⟩
      ofUser := fun uid => ?_
      groups := fun gid => ?_
      groupsOnce := horderly.coherent.nodup_groupsOf s
      members := fun gid => ?_
      fresh := fun gid hs => hunknown gid s hs rfl
      slots := Post.size_openBox node.post false
      kept := fun t ht => ⟨?_, ?_⟩ }
  · rw [hrepresents.ofUser_eq, h.orderly.represents.ofUser_eq, List.filter_append]
    by_cases huid : s.uid = uid
    · simp [huid]
    · simp [huid, Ne.symm huid]
  · show gid ∈ (node.groups.subscribe s gids).groupsOf s ↔ _
    rw [Groups.mem_groupsOf_subscribe, hcoherent.unknown s hslots]
    simp
  · show (node.groups.subscribe s gids).members gid = _
    have hany : (node.groups.members gid).any (·.same s) = false :=
      List.any_eq_false.2 fun t ht hsame => hunknown gid t ht (of_decide_eq_true hsame)
    rw [Groups.members_subscribe, hany]
    simp
  · exact (box_entered node s gids t.slot).trans (if_neg (Nat.ne_of_lt ht))
  · exact node.groups.groupsOf_subscribe_of_ne (hslot ▸ Nat.ne_of_gt ht) gids

end Opening

/-! ## 5. Whether the client is let in -/

/-- The client sees one frame and the end, and but for that nothing has changed. -/
structure Rejected (before after : Server) (name : String) (code : UInt16) (reason : String) :
    Prop where
  seen : (after.endpoint.look name).1 =
    [.response 101 [], .message (.close (some (code, reason))), .ended]
  finished : (after.endpoint.clients.get? name).map Client.task = some .finished
  node : after.node = before.node
  ids : after.ids = before.ids
  others : ∀ n, n ≠ name → after.endpoint.clients.get? n = before.endpoint.clients.get? n

/-- The client sees nothing, and but for its connection nothing has changed. -/
structure Unanswered (before after : Server) (name : String) : Prop where
  unseen : (after.endpoint.look name).1 = []
  finished : (after.endpoint.clients.get? name).map Client.task = some .finished
  node : after.node = before.node
  ids : after.ids = before.ids
  others : ∀ n, n ≠ name → after.endpoint.clients.get? n = before.endpoint.clients.get? n

/-- There is one session more, with the next id and in the groups that the directory has for its
user, and but for that nothing has changed. -/
structure Opened (before after : Server) (name : String) (s : SessionRef) : Prop where
  serves : ∃ c v, after.endpoint.clients.get? name = some c ∧ c.task = .serving v ∧ v.session = s
  ids : after.ids = before.ids.next.2
  entered : Entered before.node after.node s (before.directory.groupsOf s.uid)
  others : ∀ n, n ≠ name → after.endpoint.clients.get? n = before.endpoint.clients.get? n

/-- The directory is the one that a gateway starts with when its table of groups is `raw`. -/
def Seeded (directory : Directory) (raw : String) : Prop :=
  ∃ env config ids pipeSize, Config.gateway env = .ok config ∧
    Config.text? env "CHATLINK_USER_GROUPS" = some raw ∧
    directory = (Startup.gatewayServer config ids pipeSize).directory

theorem Seeded.mem_groupsOf {directory : Directory} {raw : String} (h : Seeded directory raw)
    (uid gid : Int64) : gid ∈ directory.groupsOf uid ↔ Config.Lists raw uid gid := by
  obtain ⟨env, config, ids, pipeSize, hconfig, hraw, rfl⟩ := h
  rw [← Config.mem_readGroups_iff (Config.readGroups_of_gateway hconfig hraw)]
  exact Directory.mem_groupsOf_ofEntries config.userGroups uid gid

section Identify

variable {tokens : Auth.TokenTable} {headers : Http.Headers} {query : Http.Query} {token : String}
  {fault : Auth.Fault}

theorem identify_of_no_token (h : Auth.presentedToken headers query = .error fault) :
    Server.identify tokens headers query = .refused (.noToken fault) := by
  rw [Server.identify, h]

theorem identify_of_unknown (h : Auth.presentedToken headers query = .ok token)
    (hunknown : tokens.identify token = .error fault) :
    Server.identify tokens headers query = .refused (.unknownToken fault) := by
  simp only [Server.identify, h, hunknown]

theorem identify_of_known {uid : Int64} (h : Auth.presentedToken headers query = .ok token)
    (hknown : tokens.identify token = .ok uid) :
    Server.identify tokens headers query = .admitted uid token := by
  simp only [Server.identify, h, hknown]

end Identify

section Reception

variable {server : Server} {request : Http.Request} {admission : Admission}

theorem reception?_of_fits (h : Server.admission server.tokens request = admission)
    (hfits : admission.responseSize ≤ server.endpoint.pipeSize) :
    server.reception? request = some admission := by
  simp only [Server.reception?, h, if_pos hfits]

theorem reception?_of_too_long (h : Server.admission server.tokens request = admission)
    (hlong : server.endpoint.pipeSize < admission.responseSize) :
    server.reception? request = none := by
  simp only [Server.reception?, h, if_neg (Nat.not_le.2 hlong)]

/-- Before its token is looked at, a client that asks for a session is answered in one way. -/
theorem responseSize_identify (tokens : Auth.TokenTable) (headers : Http.Headers)
    (query : Http.Query) :
    (Server.identify tokens headers query).responseSize = Http.acceptSize [] := by
  unfold Server.identify
  split
  · rfl
  · split <;> rfl

end Reception

section Connect

variable {server : Server} {name : String} {request : Http.Request}
  {accepted kicked : List SessionRef}

theorem admission_eq_identify (tokens : Auth.TokenTable) {url : Http.Url}
    (hurl : request.url? = some url) (hpath : url.path = Server.sessionPath)
    (hupgrade : Http.checkUpgrade request true = .ok ()) :
    Server.admission tokens request =
      Server.identify tokens request.headers (Http.Query.ofBytes url.query) := by
  have hmethod : request.method = "GET" := by
    by_contra hother
    rw [Http.checkUpgrade, if_pos hother] at hupgrade
    cases hupgrade
  rw [Server.admission, hurl]
  show Server.route _ _ _ = _
  rw [Server.route, if_neg (not_not_intro hpath), hmethod, if_neg (by decide), hupgrade]

theorem unanswered_connect (hwaits : AllWait server.endpoint)
    (hfree : server.endpoint.clients.get? name = none)
    (hreception : server.reception? request = none) :
    Unanswered server (server.connect name request) name := by
  let c : Client Task := .stranded server.endpoint.pipeSize .finished
  have harrived : Arrived server.endpoint (server.endpoint.place name c).settle name _ _ :=
    arrived_place server.endpoint.log hfree hwaits rfl
  have hconnect : server.connect name request =
      { server with endpoint := (server.endpoint.place name c).settle } := by
    unfold Server.connect
    simp only [drop_of_free hwaits hfree, hreception]
    rfl
  rw [hconnect]
  refine ⟨?_, ?_, harrived.state, rfl, harrived.others⟩
  · show (Endpoint.look _ name).1 = _
    rw [Endpoint.look, harrived.client]
    rfl
  · show Option.map _ (Table.get? _ name) = _
    rw [harrived.client]
    rfl

theorem rejected_connect (hwaits : AllWait server.endpoint)
    (hfree : server.endpoint.clients.get? name = none) {closing : Closing}
    (hreception : server.reception? request = some (.refused closing)) :
    Rejected server (server.connect name request) name closing.code closing.reason := by
  let c : Client Task := .upgraded server.endpoint.pipeSize [closing.frame] .refusing
  have harrived : Arrived server.endpoint (server.endpoint.place name c).settle name _ _ :=
    arrived_place server.endpoint.log hfree hwaits (run_refusing closing.frame)
  have hconnect : server.connect name request =
      { server with endpoint := (server.endpoint.place name c).settle } := by
    unfold Server.connect
    simp only [drop_of_free hwaits hfree, hreception]
    rfl
  rw [hconnect]
  refine ⟨?_, ?_, harrived.state, rfl, harrived.others⟩
  · show (Endpoint.look _ name).1 = _
    rw [Endpoint.look, harrived.client]
    rfl
  · show Option.map _ (Table.get? _ name) = _
    rw [harrived.client]
    rfl

theorem opened_connect (h : server.node.Keeps (handsOf server.endpoint) accepted kicked)
    (hwaits : AllWait server.endpoint) (hfree : server.endpoint.clients.get? name = none)
    (hid : ∀ t ∈ accepted, t.id ≠ server.ids.next.1) {uid : Int64} {token : String}
    (hreception : server.reception? request = some (.admitted uid token)) :
    Opened server (server.connect name request) name (server.newcomer uid token) := by
  let s := server.newcomer uid token
  let node := server.node.entered s (server.directory.groupsOf uid)
  have hbox := box_entered server.node s (server.directory.groupsOf uid)
  have hwaits' : ∀ n c, server.endpoint.clients.get? n = some c →
      c.task.step? server.endpoint.now c.socket node = none := by
    -- the mailbox of every other session is as it was
    refine fun n c hc => Task.idle_of_box (hwaits n c hc) fun t ht => ?_
    have hin : t ∈ accepted := h.accepted_of_hold t ⟨n, (handsOf_of_some hc).trans ht⟩
    exact (hbox t.slot).trans (if_neg (Nat.ne_of_lt (h.slot_lt hin)))
  let c : Client Task := .upgraded server.endpoint.pipeSize []
    (.serving ⟨s, server.endpoint.now, server.endpoint.now, none⟩)
  let opened : Endpoint Node Task :=
    { server.endpoint with state := node, log := server.endpoint.log ++ [] }
  have harrived : Arrived server.endpoint (opened.place name c).settle name _ _ :=
    arrived_place _ hfree hwaits' (run_serving ((hbox s.slot).trans (if_pos rfl)))
  have hconnect : server.connect name request =
      { server with ids := server.ids.next.2, endpoint := (opened.place name c).settle } := by
    have hopen := openSession_eq h.orderly.indexWriter h.orderly.groupWriter uid token
    unfold Server.connect
    simp only [drop_of_free hwaits hfree, hreception, Server.place, hopen]
    rfl
  rw [hconnect]
  refine ⟨⟨_, _, harrived.client, rfl, rfl⟩, rfl, ?_, harrived.others⟩
  show Entered server.node (Endpoint.state _) s _
  rw [harrived.state]
  exact entered h rfl hid _

end Connect

/-! ## 6. The pipes stay as wide as they are -/

section Pipes

theorem pipeSize_settleClient (e : Endpoint Node Task) (name : String) :
    (e.settleClient name).pipeSize = e.pipeSize := by
  simp only [Endpoint.settleClient]
  split <;> rfl

theorem pipeSize_settle (e : Endpoint Node Task) : e.settle.pipeSize = e.pipeSize :=
  List.foldlRecOn (motive := fun e' : Endpoint Node Task => e'.pipeSize = e.pipeSize)
    e.clients.keys Endpoint.settleClient rfl
    fun e' h name _ => (pipeSize_settleClient e' name).trans h

theorem pipeSize_advanceTo (target : Nat) (e : Endpoint Node Task) :
    (e.advanceTo target).pipeSize = e.pipeSize := by
  fun_induction Endpoint.advanceTo target e with
  | case1 e d hd hstop ih => exact ih.trans (pipeSize_settle _)
  | case2 e d hd hstop => exact pipeSize_settle _
  | case3 e hd => rfl

theorem pipeSize_receive (e : Endpoint Node Task) (name : String) (bytes : Bytes) :
    (e.receive name bytes).2.pipeSize = e.pipeSize := by
  unfold Endpoint.receive
  split
  · exact pipeSize_settle _
  · rfl

theorem pipeSize_place (server : Server) (name : String) (reception? : Option Admission) :
    (server.place name reception?).endpoint.pipeSize = server.endpoint.pipeSize := by
  rcases reception? with - | response | closing | ⟨uid, token⟩ <;> rfl

theorem pipeSize_connect (server : Server) (name : String) (request : Http.Request) :
    (server.connect name request).endpoint.pipeSize = server.endpoint.pipeSize := by
  have hdrop : (server.endpoint.drop name).pipeSize = server.endpoint.pipeSize := pipeSize_settle _
  exact (pipeSize_settle _).trans ((pipeSize_place _ _ _).trans hdrop)

theorem pipeSize_run (server : Server) (event : Event) :
    (event.run server).endpoint.pipeSize = server.endpoint.pipeSize := by
  cases event with
  | connect id name request => exact pipeSize_connect { server with ids := ⟨id - 1⟩ } name request
  | receive name bytes => exact pipeSize_receive _ name bytes
  | drop name | stall name | resume name => exact pipeSize_settle _
  | advance span => exact pipeSize_advanceTo _ _
  | accept envelope => exact pipeSize_settle _
  | join uid gid => rfl

end Pipes

namespace History

theorem pipeSize_after (pipeSize : Nat) (tokens : Auth.TokenTable) (directory : Directory)
    (events : List Event) :
    (after pipeSize tokens directory events).server.endpoint.pipeSize = pipeSize := by
  induction events using List.reverseRecOn with
  | nil => rfl
  | append_singleton events event ih =>
    rw [after_append]
    exact (pipeSize_run _ event).trans ih

theorem directory_place (server : Server) (name : String) (reception? : Option Admission) :
    (server.place name reception?).directory = server.directory := by
  rcases reception? with - | response | closing | ⟨uid, token⟩ <;> rfl

/-- Only joining changes the directory. -/
theorem directory_run (server : Server) {event : Event} (h : ∀ uid gid, event ≠ .join uid gid) :
    (event.run server).directory = server.directory := by
  cases event with
  | connect id name request => exact directory_place _ _ _
  | join uid gid => exact absurd rfl (h uid gid)
  | _ => rfl

theorem directory_after {pipeSize : Nat} {tokens : Auth.TokenTable} {directory : Directory}
    {events : List Event} (h : ∀ uid gid, .join uid gid ∉ events) :
    (after pipeSize tokens directory events).server.directory = directory := by
  induction events using List.reverseRecOn with
  | nil => rfl
  | append_singleton events event ih =>
    have hevents := ih fun uid gid hmem => h uid gid (List.mem_append_left _ hmem)
    rw [after_append]
    refine (directory_run _ fun uid gid heq => h uid gid ?_).trans hevents
    exact heq ▸ List.mem_append_right _ (List.mem_singleton_self _)

/-- A pipe that holds the answer to an upgrade is enough for a handshake. Without a token, or with
one that is nobody's, a client is told so in one frame, and nothing else comes of it. With a token
in order it gets one new session, with the next id, and in exactly the groups of its user. In a
gateway that was started with a table of groups these are the groups that some field lists for the
user, and the session is in each of them once. In a pipe that is too small for the answer it is
never seen, and nothing comes of the connection. -/
theorem handshake_outcome (pipeSize : Nat) (tokens : Auth.TokenTable) (directory : Directory)
    (events : List Event) (hown : (after pipeSize tokens directory events).OwnIds) (ids : Sequence)
    (hnew : ∀ t ∈ (after pipeSize tokens directory events).accepted, t.id ≠ ids.next.1)
    (name : String)
    (hfree : (after pipeSize tokens directory events).server.endpoint.clients.get? name = none)
    (request : Http.Request) (url : Http.Url) (hurl : request.url? = some url)
    (hpath : url.path = Server.sessionPath) (hupgrade : Http.checkUpgrade request true = .ok ()) :
    let server := { (after pipeSize tokens directory events).server with ids }
    let presented := Auth.presentedToken request.headers (Http.Query.ofBytes url.query)
    (Http.acceptSize [] ≤ pipeSize →
      (∀ fault, presented = .error fault →
        Rejected server (server.connect name request) name 1007 fault.message) ∧
      (∀ token fault, presented = .ok token → server.tokens.identify token = .error fault →
        Rejected server (server.connect name request) name 4004 fault.message) ∧
      (∀ token uid, presented = .ok token → server.tokens.identify token = .ok uid →
        Opened server (server.connect name request) name (server.newcomer uid token) ∧
        ∀ raw, Seeded directory raw → (∀ uid gid, .join uid gid ∉ events) → ∀ gid,
          (gid ∈ (server.connect name request).node.groups.groupsOf (server.newcomer uid token) ↔
            Config.Lists raw uid gid) ∧
          (Config.Lists raw uid gid → ((server.connect name request).node.groups.members gid).count
            (server.newcomer uid token) = 1))) ∧
    (pipeSize < Http.acceptSize [] → Unanswered server (server.connect name request) name) := by
  intro server presented
  have hsettled := settled_after events hown
  have hkeeps : server.node.Keeps (handsOf server.endpoint) _ _ := hsettled.keeps
  have hwaits : AllWait server.endpoint := hsettled.waits
  have hadmission := admission_eq_identify server.tokens hurl hpath hupgrade
  have hpipe : server.endpoint.pipeSize = pipeSize :=
    pipeSize_after pipeSize tokens directory events
  have hsize := responseSize_identify server.tokens request.headers (Http.Query.ofBytes url.query)
  refine ⟨fun hfits => ?_, fun hlong => unanswered_connect hwaits hfree
    (reception?_of_too_long hadmission (hpipe.trans_lt (hlong.trans_eq hsize.symm)))⟩
  have hreception := reception?_of_fits hadmission (hsize.trans_le (hfits.trans_eq hpipe.symm))
  refine ⟨fun fault hpresented => ?_, fun token fault hpresented hunknown => ?_,
    fun token uid hpresented hknown => ?_⟩
  · rw [identify_of_no_token hpresented] at hreception
    exact rejected_connect hwaits hfree hreception
  · rw [identify_of_unknown hpresented hunknown] at hreception
    exact rejected_connect hwaits hfree hreception
  · rw [identify_of_known hpresented hknown] at hreception
    have hopened := opened_connect hkeeps hwaits hfree hnew hreception
    refine ⟨hopened, fun raw hseeded hjoins gid => ?_⟩
    have hlists : gid ∈ server.directory.groupsOf uid ↔ Config.Lists raw uid gid := by
      rw [show server.directory = directory from directory_after hjoins]
      exact hseeded.mem_groupsOf uid gid
    refine ⟨(hopened.entered.groups gid).trans hlists, fun hlisted => ?_⟩
    have hin : gid ∈ server.directory.groupsOf (server.newcomer uid token).uid := hlists.2 hlisted
    rw [hopened.entered.members, if_pos hin, List.count_append,
      List.count_eq_zero_of_not_mem (hopened.entered.fresh gid), List.count_singleton_self]

/-! ### A gateway with one user on the phone -/

/-- Two fields of the table are of one user, and have a group in common. -/
def cafeVariables : Environment := fun name =>
  ([("CHATLINK_LINK_TARGETS", "http://kitchen"), ("CHATLINK_ACCESS_TOKENS", "1:red"),
    ("CHATLINK_USER_GROUPS", "1:10|20,2:5,1:20|30")].lookup name).map Text.Utf8.encode

def cafeConfig : GatewayConfig where
  linkTargets := ["http://kitchen"]
  nameStem := "chatlink-gw"
  accessTokens := [(1, "red")]
  userGroups := [(1, [10, 20]), (2, [5]), (1, [20, 30])]

def cafe : History :=
  after 65536 (.ofPairs cafeConfig.accessTokens) (.ofEntries cafeConfig.userGroups)
    [.connect 7 "phone" (visit "red")]

def cafeServer : Server := { cafe.server with ids := ⟨8⟩ }

def anonymousVisit : Http.Request := { visit "red" with headers := (visit "red").headers.take 4 }

def laptop : SessionRef := ⟨1, 9, 1, "red"⟩

theorem lists_cafe (gid : Int64) :
    Config.Lists "1:10|20,2:5,1:20|30" 1 gid ↔ gid ∈ [10, 20, 30] := by
  have hread : Config.readGroups "1:10|20,2:5,1:20|30" = .ok cafeConfig.userGroups := by
    decide +kernel
  rw [← Config.mem_readGroups_iff hread]
  have hentries : (∃ e ∈ cafeConfig.userGroups, e.1 = 1 ∧ gid ∈ e.2) ↔
      (gid = 10 ∨ gid = 20) ∨ gid = 20 ∨ gid = 30 := by simp [cafeConfig]
  simp only [hentries, List.mem_cons, List.not_mem_nil, or_false]
  tauto

/-- The laptop comes without a token, then with a wrong one, then with the right one. -/
theorem handshake_outcome_cafe :
    Rejected cafeServer (cafeServer.connect "laptop" anonymousVisit) "laptop" 1007
      "missing access token" ∧
    Rejected cafeServer (cafeServer.connect "laptop" (visit "blue")) "laptop" 4004
      "invalid access token" ∧
    Opened cafeServer (cafeServer.connect "laptop" (visit "red")) "laptop" laptop ∧
    (∀ gid, gid ∈ (cafeServer.connect "laptop" (visit "red")).node.groups.groupsOf laptop ↔
      gid ∈ [10, 20, 30]) ∧
    ((cafeServer.connect "laptop" (visit "red")).node.groups.members 20).count laptop = 1 := by
  have hown : cafe.OwnIds := by
    unfold OwnIds
    decide +kernel
  have hnew : ∀ t ∈ cafe.accepted, t.id ≠ (Sequence.mk 8).next.1 := by decide +kernel
  have hfree : cafe.server.endpoint.clients.get? "laptop" = none := by decide +kernel
  unfold cafe at hown hnew hfree
  have hhandshake := fun request hurl hupgrade =>
    (handshake_outcome 65536 (.ofPairs cafeConfig.accessTokens) (.ofEntries cafeConfig.userGroups)
      _ hown ⟨8⟩ hnew "laptop" hfree request ⟨none, none, "/ws"⟩ hurl (by decide +kernel)
      hupgrade).1 (by decide +kernel)
  obtain ⟨hmissing, -⟩ := hhandshake anonymousVisit (by decide +kernel) (by decide +kernel)
  obtain ⟨-, hunknown, -⟩ := hhandshake (visit "blue") (by decide +kernel) (by decide +kernel)
  obtain ⟨-, -, hknown⟩ := hhandshake (visit "red") (by decide +kernel) (by decide +kernel)
  have hlaptop : cafeServer.newcomer 1 "red" = laptop := by decide +kernel
  have hseeded : Seeded (.ofEntries cafeConfig.userGroups) "1:10|20,2:5,1:20|30" :=
    ⟨cafeVariables, cafeConfig, {}, 65536, by decide +kernel, by decide +kernel, rfl⟩
  obtain ⟨hopened, hgroups⟩ := hknown "red" 1 (by decide +kernel) (by decide +kernel)
  have hlaptops := hgroups _ hseeded (by simp)
  rw [← hlaptop]
  refine ⟨hmissing .missing (by decide +kernel),
    hunknown "blue" .invalid (by decide +kernel) (by decide +kernel), hopened,
    fun gid => (hlaptops gid).1.trans (lists_cafe gid),
    (hlaptops 20).2 ((lists_cafe 20).2 (by simp))⟩

end History

end Gateway

end Switchboard
