import Switchboard.Proofs.Gateway.Course
import Switchboard.Proofs.Gateway.Verdict
import Switchboard.Proofs.WebSocket.Streaming

/-!
# Heartbeat — when a silent client is closed

The task of a session takes the heartbeats of its diary one by one: each either pings the client or
ends the session, as the verdict has it, as long as nothing else ends the session and no write is
held up.
-/

namespace Switchboard.Gateway

open Session WebSocket

/-! ## 1. Schedules -/

/-- The client is there and reads, so that every write is over at once. -/
structure Prompt (socket : Socket) : Prop where
  there : socket.gone = false
  reading : socket.pipe.reading = true
  flushed : socket.isFlushed = true

theorem Prompt.write {socket : Socket} (h : Prompt socket) (m : Message) :
    Prompt (socket.write m) :=
  ⟨h.there, (Pipe.reading_write _ _).trans h.reading, Pipe.isFlushed_write h.reading m⟩

theorem Prompt.reply {socket : Socket} (h : Prompt socket) (reader : Reader) (m : Message) :
    Prompt ({ socket with reader }.reply m) := by
  have hreader : Prompt { socket with reader } := ⟨h.there, h.reading, h.flushed⟩
  cases m with
  | ping bytes => exact hreader.write (.pong bytes)
  | text | binary | pong | close => exact hreader

/-- A write that is over at once keeps no task waiting. -/
theorem Prompt.step?_ne_none {now : Nat} {socket : Socket} {node : Node} {v : Serving} {w : Write}
    (h : Prompt socket) (hwrite : v.write = some w) : v.step? now socket node ≠ none := by
  have hthere : ¬ socket.gone = true := by simp [h.there]
  unfold Serving.step? Serving.pursue?
  rw [hwrite]
  dsimp only
  rw [if_neg hthere, if_pos h.flushed]
  exact nofun

theorem Prompt.write_eq_none {now : Nat} {socket : Socket} {node : Node} {v : Serving}
    (h : Prompt socket) (hidle : v.step? now socket node = none) : v.write = none := by
  cases hwrite : v.write with
  | none => rfl
  | some w => exact absurd hidle (h.step?_ne_none hwrite)

theorem sentSince_reply (socket : Socket) (reader : Reader) (m : Message) :
    Diary.Plain (Pipe.sentSince socket.pipe ({ socket with reader }.reply m).pipe) := by
  have hnone : Diary.Plain (Pipe.sentSince socket.pipe socket.pipe) := by
    rw [Pipe.sentSince_self]
    exact fun _ hm => nomatch hm
  cases m with
  | ping bytes =>
    have hpong : Pipe.sentSince socket.pipe (socket.pipe.write (.pong bytes)) = [.pong bytes] :=
      Pipe.sentSince_write _ _
    show Diary.Plain (Pipe.sentSince socket.pipe (socket.pipe.write (.pong bytes)))
    rw [hpong]
    simp [Diary.Plain, Closing.frame]
  | text | binary | pong | close => exact hnone

theorem plain_ofPayload (bytes : Bytes) : Diary.Plain [.ofPayload bytes] := by
  unfold Message.ofPayload
  split <;> simp [Diary.Plain, Closing.frame]

namespace Journal

/-- What a client sends are whole messages, and none that closes the connection. -/
def Whole (bytes : Bytes) : Prop :=
  ∃ ms, Reader.Spells { role := .server, pending := bytes } ms ∧ ms ≠ [] ∧
    ∀ m ∈ ms, ∀ reason, m ≠ .close reason

/-- The task of the session has to wait, or is over. -/
def Rests (j : Journal) (name : String) (s : SessionRef) : Prop :=
  ∀ x ∈ served? j.endpoint name, x.2.session = s → x.2.step? j.now x.1.socket j.node = none

/-- What the client of a session may do. What it sends comes before the heartbeat of the same
moment; it does not stop reading, and it does not go. -/
def Gesture.IsRegular (now : Nat) (v : Serving) : Gesture → Prop
  | .send bytes => v.nextTick ≠ now + pingInterval ∧ Whole bytes
  | .resume => True
  | .stall | .drop => False

/-- What may be done while a session is served. A heartbeat is taken when everything that came is
read, time passes when the task has to wait, and nobody kicks the user. -/
def IsRegular (j : Journal) (name : String) (c : Client Task) (v : Serving) : Act → Prop
  | .touch n gesture => n = name → Gesture.IsRegular j.now v gesture
  | .step n choice => n = name → choice = some .tick → c.socket.reader.next = .starved
  | .pass _ => v.step? j.now c.socket j.node = none
  | .accept (.command command) => Request.ofCommand? command ≠ some (.ok (.kick v.session.uid))
  | .accept (.packet _) | .join _ _ _ _ _ => True

/-- Every act of a run is in order for the session. -/
def Regular (name : String) (s : SessionRef) : Journal → List Act → Prop
  | _, [] => True
  | j, a :: acts =>
    (∀ x ∈ served? j.endpoint name, x.2.session = s → j.IsRegular name x.1 x.2 a) ∧
      Regular name s (j.act a) acts

/-! ## 2. What holds meanwhile -/

/-- A session that goes on, after so many heartbeats and with these messages not read yet. -/
structure Attended (now : Nat) (d : Diary) (box : Mailbox) (socket : Socket) (v : Serving)
    (n : Nat) (unread : List Message) : Prop where
  beaten : d.Beaten now n
  due : now ≤ d.tick n
  nextTick : v.nextTick = d.tick n
  timeouts : d.timeouts = []
  write : v.write ≠ some .close
  prompt : Prompt socket
  uncancelled : box.cancelled = false
  role : socket.reader.role = .server
  spells : socket.reader.Spells unread
  unclosed : ∀ m ∈ unread, ∀ reason, m ≠ .close reason
  fresh : unread ≠ [] → now ∈ d.arrivals
  seen : unread = [] → v.lastSeen = d.lastHeard now

/-- A session whose verdict is being written. -/
structure Doomed (now : Nat) (d : Diary) (socket : Socket) (v : Serving) (n : Nat) : Prop where
  sentenced : d.Sentenced now n
  moment : now = d.tick n
  write : v.write = some .close
  nextTick : v.nextTick = now + pingInterval
  prompt : Prompt socket

section Steps

variable {now n : Nat} {d : Diary} {box : Mailbox} {socket : Socket} {node : Node}
  {v v' : Serving} {unread : List Message} {choice : Option Wakeup} {turn : Turn}

/-- Nothing ends the task of a session that goes on. -/
theorem Attended.not_ending (h : Attended now d box socket v n unread) :
    ¬ Serving.Ending now socket v := by
  intro hending
  cases hending with
  | gone hgone => simp [h.prompt.there] at hgone
  | closed hwrite => exact h.write hwrite
  | late hwrite hfull => simp [h.prompt.flushed] at hfull
  | broken hwrite hstarved hnext =>
    rcases h.spells.next with hnone | ⟨reader, hpart⟩ | ⟨m, hm, reader, hmessage⟩
    · exact hstarved hnone
    · obtain ⟨reason, hclose⟩ := hnext _ _ hpart
      cases hclose
    · obtain ⟨reason, hclose⟩ := hnext _ _ hmessage
      exact h.unclosed m hm reason (Option.some.inj hclose)

theorem Attended.part (h : Attended now d box socket v n unread) {reader : Reader}
    (hnext : socket.reader.next = .frame none reader) :
    Attended now d box { socket with reader } v n unread :=
  { h with
    prompt := ⟨h.prompt.there, h.prompt.reading, h.prompt.flushed⟩
    role := (Reader.role_next hnext).trans h.role
    spells := h.spells.of_part hnext }

/-- A message is read, which came just now. -/
theorem Attended.heard (h : Attended now d box socket v n unread) {m : Message} {reader : Reader}
    (hnext : socket.reader.next = .frame (some m) reader) {ms : List Message}
    (hplain : Diary.Plain ms) :
    ∃ rest, Attended now (d.write now ms) box ({ socket with reader }.reply m)
      { v with lastSeen := now } n rest := by
  obtain ⟨rest, rfl, hspells⟩ := h.spells.of_message hnext
  have hnow := h.fresh (List.cons_ne_nil _ _)
  have hreader : ({ socket with reader }.reply m).reader = reader := Serving.reader_reply _ m
  refine ⟨rest,
    { beaten := h.beaten.write (Diary.pings_write_of_plain hplain)
      due := h.due
      nextTick := h.nextTick
      timeouts := (Diary.timeouts_write_of_plain hplain).trans h.timeouts
      write := h.write
      prompt := h.prompt.reply reader m
      uncancelled := h.uncancelled
      role := ?_
      spells := ?_
      unclosed := fun m hm => h.unclosed m (List.mem_cons_of_mem _ hm)
      fresh := fun _ => hnow
      seen := fun _ => (Diary.lastHeard_self h.beaten.opened hnow).symm }⟩
  · rw [hreader]
    exact (Reader.role_next hnext).trans h.role
  · rw [hreader]
    exact hspells

theorem Attended.payload (h : Attended now d box socket v n unread) (handle : Handle)
    (deadline : Nat) (bytes : Bytes) {box' : Mailbox} (hbox : box'.cancelled = box.cancelled) :
    Attended now (d.write now [.ofPayload bytes]) box' (socket.write (.ofPayload bytes))
      { v with write := some (.payload handle deadline) } n unread :=
  { h with
    beaten := h.beaten.write (Diary.pings_write_of_plain (plain_ofPayload bytes))
    timeouts := (Diary.timeouts_write_of_plain (plain_ofPayload bytes)).trans h.timeouts
    write := nofun
    prompt := h.prompt.write _
    uncancelled := hbox.trans h.uncancelled }

/-- Whether a heartbeat is the last one is seen from when the client was last heard from. -/
theorem Attended.overdue_iff (h : Attended now d box socket v n unread) (hdue : v.nextTick ≤ now)
    (hstarved : socket.reader.next = .starved) :
    now = d.tick n ∧ (d.Overdue n ↔ silenceLimit < now - v.lastSeen) := by
  have hnow : now = d.tick n := Nat.le_antisymm h.due (h.nextTick ▸ hdue)
  have hseen := h.seen (h.spells.of_starved hstarved)
  refine ⟨hnow, ?_⟩
  unfold Diary.Overdue
  rw [← hnow, hseen]

theorem Attended.ping (h : Attended now d box socket v n unread) (hdue : v.nextTick ≤ now)
    (hstarved : socket.reader.next = .starved) (hheard : now - v.lastSeen ≤ silenceLimit) :
    Attended now (d.write now [.ping []]) box (socket.write (.ping []))
      { v with nextTick := v.nextTick + pingInterval, write := some .ping } (n + 1) unread := by
  obtain ⟨hnow, hoverdue⟩ := h.overdue_iff hdue hstarved
  have hspared : ¬ d.Overdue n := fun hn => Nat.not_lt_of_le hheard (hoverdue.1 hn)
  have hsucc := d.tick_succ n
  exact
    { h with
      beaten := h.beaten.ping hnow hspared
      due := by
        rw [Diary.tick_write, hsucc, ← hnow]
        exact Nat.le_add_right _ _
      nextTick := by
        rw [Diary.tick_write, hsucc, ← h.nextTick]
      timeouts := (d.timeouts_write_ping now).trans h.timeouts
      write := nofun
      prompt := h.prompt.write _ }

theorem Attended.silence (h : Attended now d box socket v n unread) (hdue : v.nextTick ≤ now)
    (hstarved : socket.reader.next = .starved) (hsilent : silenceLimit < now - v.lastSeen) :
    Doomed now (d.write now [Closing.silence.frame]) (socket.write Closing.silence.frame)
      { v with nextTick := v.nextTick + pingInterval, write := some .close } n := by
  obtain ⟨hnow, hoverdue⟩ := h.overdue_iff hdue hstarved
  refine ⟨h.beaten.silence hnow (hoverdue.2 hsilent) h.timeouts, hnow, rfl, ?_, h.prompt.write _⟩
  show v.nextTick + pingInterval = now + pingInterval
  rw [h.nextTick, ← hnow]

/-- A step of the task: the session goes on, or it has its verdict. -/
theorem Attended.taken (h : Attended now d (node.post.box v.session.slot) socket v n unread)
    (htaken : v.Taken now socket node choice turn) (htask : turn.task = .serving v')
    (hstarved : choice = some .tick → socket.reader.next = .starved) :
    (∃ n' unread', Attended now (d.write now (Pipe.sentSince socket.pipe turn.socket.pipe))
      (turn.state.post.box v.session.slot) turn.socket v' n' unread') ∨
    ∃ n', Doomed now (d.write now (Pipe.sentSince socket.pipe turn.socket.pipe)) turn.socket v'
      n' := by
  have hwrite : ∀ m, Pipe.sentSince socket.pipe (socket.write m).pipe = [m] :=
    fun m => Pipe.sentSince_write _ _
  cases htaken with
  | part _ hnext =>
    cases htask
    rw [Pipe.sentSince_self, Diary.write_nil]
    exact .inl ⟨n, unread, h.part hnext⟩
  | heard _ hnext =>
    cases htask
    obtain ⟨rest, hrest⟩ := h.heard hnext (sentSince_reply socket _ _)
    exact .inl ⟨n, rest, hrest⟩
  | @payload handle rest _ hqueue =>
    cases htask
    rw [hwrite]
    have hslot : v.session.slot < node.post.boxes.size := Post.lt_size_of_queue (by simp [hqueue])
    have hbox := congrArg Mailbox.cancelled
      (Post.box_modify_self hslot node.post.pool fun m => { m with queue := rest })
    exact .inl ⟨n, unread, h.payload _ _ _ hbox⟩
  | ping _ hdue hheard =>
    cases htask
    rw [hwrite]
    exact .inl ⟨n + 1, unread, h.ping hdue (hstarved rfl) hheard⟩
  | silence _ hdue hsilent =>
    cases htask
    rw [hwrite]
    exact .inr ⟨n, h.silence hdue (hstarved rfl) hsilent⟩
  | closing _ hcancelled => simp [h.uncancelled] at hcancelled
  | written =>
    cases htask
    rw [Pipe.sentSince_self, Diary.write_nil]
    exact .inl ⟨n, unread, { h with write := nofun }⟩
  | ended log hending => exact absurd hending h.not_ending

/-- The client sends something. -/
theorem Attended.send (h : Attended now d box socket v n unread) {bytes : Bytes}
    (hearly : v.nextTick ≠ now + pingInterval) (hwhole : Whole bytes) :
    ∃ unread', Attended now (d.arrive now) box (socket.receive bytes) v n unread' := by
  obtain ⟨ms, hspells, hsome, hunclosed⟩ := hwhole
  -- the heartbeat before the next one was not at this moment
  have hlater : ∀ k < n, d.tick k < now := by
    intro k hk
    have hle := h.beaten.early k hk
    refine Nat.lt_of_le_of_ne hle fun hsame => ?_
    cases n with
    | zero => cases hk
    | succ n =>
      have hlast : d.tick n = now := by
        have hk' := d.tick_le (Nat.lt_succ_iff.1 hk)
        have hn := h.beaten.early n (Nat.lt_succ_self n)
        omega
      rw [h.nextTick, d.tick_succ, hlast] at hearly
      exact hearly rfl
  have hnow : now ∈ (d.arrive now).arrivals := List.mem_append_right _ (List.mem_singleton_self _)
  refine ⟨unread ++ ms,
    { h with
      beaten := h.beaten.arrive hlater
      prompt := ⟨h.prompt.there, h.prompt.reading, h.prompt.flushed⟩
      spells := h.spells.feed h.role hspells
      unclosed := ?_
      fresh := fun _ => hnow
      seen := ?_ }⟩
  · intro m hm
    rcases List.mem_append.1 hm with hm | hm
    · exact h.unclosed m hm
    · exact hunclosed m hm
  · exact fun hnil => absurd (List.append_eq_nil_iff.1 hnil).2 hsome

theorem prompt_gesture {now : Nat} {c : Client Task} (h : Prompt c.socket) {gesture : Gesture}
    (hregular : Gesture.IsRegular now v gesture) : Prompt (gesture.apply c).socket := by
  cases gesture with
  | send bytes => exact ⟨h.there, h.reading, h.flushed⟩
  | resume => exact ⟨h.there, (Pipe.reading_flush _).trans rfl, rfl⟩
  | stall => exact hregular.elim
  | drop => exact hregular.elim

theorem Attended.gesture {c : Client Task} (h : Attended now d box c.socket v n unread)
    {gesture : Gesture} (hregular : Gesture.IsRegular now v gesture) :
    ∃ unread', Attended now (gesture.note now d) box (gesture.apply c).socket v n unread' := by
  cases gesture with
  | send bytes => exact h.send hregular.1 hregular.2
  | resume => exact ⟨unread, { h with prompt := prompt_gesture h.prompt hregular }⟩
  | stall => exact hregular.elim
  | drop => exact hregular.elim

theorem Attended.enqueue (h : Attended now d box socket v n unread) (number : Nat)
    (payloads : List Bytes) {box' : Mailbox} (hbox : box'.cancelled = box.cancelled) :
    Attended now (d.enqueue number payloads) box' socket v n unread :=
  { h with
    beaten := h.beaten.enqueue number payloads
    uncancelled := hbox.trans h.uncancelled }

/-- Time passes while the task has to wait, until the next heartbeat at most. -/
theorem Attended.wait (h : Attended now d box socket v n unread)
    (hidle : v.step? now socket node = none) {now' : Nat} (hle : now ≤ now')
    (hclock : ∀ t, v.deadline? = some t → now' ≤ max now t) :
    Attended now' d box socket v n unread := by
  have hwrite : v.write = none := h.prompt.write_eq_none hidle
  have hstarved : socket.reader.next = .starved := by
    have hframe := Serving.not_isReady_of_idle hwrite hidle .frame
    unfold Serving.isReady at hframe
    dsimp only at hframe
    rw [h.prompt.there, Bool.false_or] at hframe
    exact Decidable.not_not.1 (of_decide_eq_false hframe)
  have hread : unread = [] := h.spells.of_starved hstarved
  have hdue : now' ≤ max now v.nextTick := by
    refine hclock v.nextTick ?_
    rw [Serving.deadline?, hwrite]
  exact
    { h with
      beaten := h.beaten.wait hle
      due := by
        rw [h.nextTick] at hdue
        exact Nat.le_trans hdue (Nat.max_le.2 ⟨h.due, Nat.le_refl _⟩)
      fresh := fun hsome => absurd hread hsome
      seen := fun hnil => (h.seen hnil).trans (Diary.lastHeard_eq h.beaten.arrived hle).symm }

/-- The verdict is written, and then the task is over. -/
theorem Doomed.taken (h : Doomed now d socket v n) (htaken : v.Taken now socket node choice turn) :
    ∃ log, turn = v.finish socket node log := by
  rcases htaken.writing h.write with ⟨hclose, -⟩ | ⟨-, hfinish⟩
  · exact absurd rfl hclose
  · exact hfinish

/-- Nothing is read any more while the verdict is written. -/
theorem Doomed.gesture {c : Client Task} (h : Doomed now d c.socket v n) {gesture : Gesture}
    (hregular : Gesture.IsRegular now v gesture) :
    Doomed now (gesture.note now d) (gesture.apply c).socket v n := by
  cases gesture with
  | send bytes => exact absurd h.nextTick hregular.1
  | resume => exact { h with prompt := prompt_gesture h.prompt hregular }
  | stall => exact hregular.elim
  | drop => exact hregular.elim

end Steps

/-! ## 3. Runs -/

/-- How a session stands when its run has been in order so far. -/
inductive Standing (j : Journal) (name : String) (s : SessionRef) : Prop where
  | attended {c : Client Task} {v : Serving} {n : Nat} {unread : List Message}
      (hserved : served? j.endpoint name = some (c, v)) (hsession : v.session = s)
      (h : Attended j.now (j.diary s.slot) (j.box s) c.socket v n unread)
  | doomed {c : Client Task} {v : Serving} {n : Nat}
      (hserved : served? j.endpoint name = some (c, v)) (hsession : v.session = s)
      (h : Doomed j.now (j.diary s.slot) c.socket v n)
  | ended {n : Nat} (hover : j.Over s) (h : (j.diary s.slot).Sentenced j.now n)

variable {j : Journal} {name : String} {s : SessionRef} {c : Client Task} {v : Serving} {n : Nat}
  {unread : List Message} {a : Act}

/-- A packet, or a command that kicks somebody else, leaves the mailbox open. -/
theorem cancelled_accept (hsound : j.Sound) (hs : v.session ∈ j.sessions)
    {envelope : Wire.Envelope} (hregular : j.IsRegular name c v (.accept envelope)) :
    ((j.accept envelope).box v.session).cancelled = (j.box v.session).cancelled := by
  obtain ⟨kicked, hkeeps⟩ := hsound
  cases envelope with
  | packet packet =>
    obtain ⟨queue, hbox⟩ := (hkeeps.box_deliver packet v.session.slot).1
    show ((j.node.deliver packet).2.1.post.box v.session.slot).cancelled = _
    rw [hbox]
    rfl
  | command command => exact congrArg Mailbox.cancelled (hkeeps.box_obey hs hregular)

theorem Attended.act (hsound : j.Sound) (hserved : served? j.endpoint name = some (c, v))
    (h : Attended j.now (j.diary v.session.slot) (j.box v.session) c.socket v n unread)
    (hregular : j.IsRegular name c v a) : Standing (j.act a) name v.session := by
  have hcourse := hsound.course hserved a
  generalize j.act a = j' at hcourse ⊢
  generalize hserved' : served? j'.endpoint name = after at hcourse
  cases hcourse with
  | @step choice turn v' htaken htask =>
    have hsession := htaken.session htask
    have hdiary := diary_take j name c v turn
    rcases h.taken htaken htask (hregular rfl) with ⟨n', unread', h'⟩ | ⟨n', h'⟩
    · rw [← hdiary] at h'
      exact .attended hserved' hsession h'
    · rw [← hdiary] at h'
      exact .doomed hserved' hsession h'
  | ended htaken htask => exact absurd (htaken.finish htask).1 h.not_ending
  | touch gesture hthere =>
    obtain ⟨unread', h'⟩ := h.gesture (hregular rfl)
    rw [← diary_touch j name v gesture] at h'
    exact .attended hserved' rfl h'
  | accept envelope =>
    have hbox := cancelled_accept hsound (hsound.mem_sessions hserved) hregular
    exact .attended hserved' rfl (h.enqueue _ _ hbox)
  -- the clock stops at the next heartbeat
  | pass span =>
    exact .attended hserved' rfl (h.wait hregular (j.le_clock span)
      fun t ht => clock_le hserved ht span)
  | other hsame =>
    rw [← hsame.now, ← hsame.diary, ← hsame.box] at h
    exact .attended hserved' rfl h

theorem Doomed.act (hsound : j.Sound) (hserved : served? j.endpoint name = some (c, v))
    (h : Doomed j.now (j.diary v.session.slot) c.socket v n)
    (hregular : j.IsRegular name c v a) : Standing (j.act a) name v.session := by
  have hcourse := hsound.course hserved a
  generalize j.act a = j' at hcourse ⊢
  generalize hserved' : served? j'.endpoint name = after at hcourse
  cases hcourse with
  | step htaken htask =>
    obtain ⟨log, rfl⟩ := h.taken htaken
    cases htask
  | ended htaken htask =>
    obtain ⟨log, rfl⟩ := h.taken htaken
    have hsent : Pipe.sentSince c.socket.pipe (v.finish c.socket j.node log).socket.pipe = [] :=
      Pipe.sentSince_shut _
    have hdiary := diary_take j name c v (v.finish c.socket j.node log)
    rw [hsent, Diary.write_nil] at hdiary
    refine .ended (hsound.over_take hserved htask) (n := n) ?_
    rw [hdiary]
    exact h.sentenced
  | touch gesture hthere =>
    have h' := h.gesture (hregular rfl)
    rw [← diary_touch j name v gesture] at h'
    exact .doomed hserved' rfl h'
  | accept envelope =>
    exact .doomed hserved' rfl { h with sentenced := h.sentenced.enqueue _ _ }
  -- no time passes while the task can go on
  | pass span => exact absurd hregular (h.prompt.step?_ne_none h.write)
  | other hsame =>
    rw [← hsame.now, ← hsame.diary] at h
    exact .doomed hserved' rfl h

theorem Standing.act (hsound : j.Sound) (h : Standing j name s)
    (hregular : ∀ x ∈ served? j.endpoint name, x.2.session = s → j.IsRegular name x.1 x.2 a) :
    Standing (j.act a) name s := by
  cases h with
  | attended hserved hsession h =>
    subst hsession
    exact h.act hsound hserved (hregular _ hserved rfl)
  | doomed hserved hsession h =>
    subst hsession
    exact h.act hsound hserved (hregular _ hserved rfl)
  | @ended n hover h =>
    obtain ⟨hover', hdiary⟩ := hsound.over_act hover a
    have h' := h.wait (j.now_le_act a)
    rw [← hdiary] at h'
    exact .ended hover' h'

theorem Standing.after (hsound : j.Sound) (h : Standing j name s) {acts : List Act}
    (hregular : Regular name s j acts) : Standing (j.after acts) name s := by
  induction acts generalizing j with
  | nil => exact h
  | cons a acts ih => exact ih (hsound.act a) (h.act hsound hregular.1) hregular.2

/-! ## 4. The verdict is exact -/

/-- All that the session had to do up to a time is done. -/
def IsPast (j : Journal) (name : String) (s : SessionRef) (t : Nat) : Prop :=
  t < j.now ∨ t = j.now ∧ j.Rests name s

/-- A session that has to wait has taken its heartbeats. -/
theorem Attended.lt_tick (hserved : served? j.endpoint name = some (c, v))
    (h : Attended j.now (j.diary v.session.slot) (j.box v.session) c.socket v n unread) {t : Nat}
    (ht : j.IsPast name v.session t) : t < (j.diary v.session.slot).tick n := by
  rcases ht with hlt | ⟨rfl, hrests⟩
  · exact Nat.lt_of_lt_of_le hlt h.due
  · have hidle := hrests _ hserved rfl
    have hwrite : v.write = none := h.prompt.write_eq_none hidle
    have htick := Serving.not_isReady_of_idle hwrite hidle .tick
    rw [← h.nextTick]
    exact Nat.lt_of_not_le (of_decide_eq_false htick)

theorem Doomed.not_past (hserved : served? j.endpoint name = some (c, v))
    (h : Doomed j.now (j.diary v.session.slot) c.socket v n) {t : Nat}
    (ht : j.IsPast name v.session t) : t < (j.diary v.session.slot).tick n := by
  rcases ht with hlt | ⟨rfl, hrests⟩
  · rw [← h.moment]
    exact hlt
  · exact absurd (hrests _ hserved rfl) (h.prompt.step?_ne_none h.write)

/-- What the diary of a session tells of its heartbeats, for the times that are past. -/
structure Exact (j : Journal) (name : String) (s : SessionRef) (d : Diary) : Prop where
  timeouts : ∀ t, j.IsPast name s t → (t ∈ d.timeouts ↔ d.Verdict t)
  verdict : ∀ t ∈ d.timeouts, d.Verdict t ∧ t ≤ j.now
  pings : ∀ k, j.IsPast name s (d.tick k) → (d.tick k ∈ d.pings ↔ ∀ i ≤ k, ¬ d.Overdue i)
  spared : ∀ t ∈ d.pings, ∃ k, t = d.tick k ∧ t ≤ j.now ∧ ∀ i ≤ k, ¬ d.Overdue i
  once : d.pings.Nodup
  ended : ∀ t ∈ d.timeouts, j.IsPast name s t → j.Over s
  served : d.timeouts = [] → ∃ c v, served? j.endpoint name = some (c, v) ∧ v.session = s

theorem Attended.exact (hserved : served? j.endpoint name = some (c, v))
    (h : Attended j.now (j.diary v.session.slot) (j.box v.session) c.socket v n unread) :
    Exact j name v.session (j.diary v.session.slot) := by
  have hno : ∀ t, t ∉ (j.diary v.session.slot).timeouts := by
    rw [h.timeouts]
    exact fun t => List.not_mem_nil
  -- a heartbeat that is past has been taken
  have htaken : ∀ k, j.IsPast name v.session ((j.diary v.session.slot).tick k) → k < n :=
    fun k hk => Nat.lt_of_not_le fun hle =>
      Nat.not_le_of_lt (h.lt_tick hserved hk) (Diary.tick_le _ hle)
  refine
    { timeouts := fun t ht => ⟨fun hmem => absurd hmem (hno t), ?_⟩
      verdict := fun t hmem => absurd hmem (hno t)
      pings := fun k hk => ⟨fun _ i hi => ?_, fun _ => h.beaten.tick_mem_pings.2 (htaken k hk)⟩
      spared := fun t ht => ?_
      once := h.beaten.nodup
      ended := fun t hmem => absurd hmem (hno t)
      served := fun _ => ⟨c, v, hserved, rfl⟩ }
  · rintro ⟨k, rfl, hoverdue, -⟩
    exact absurd hoverdue (h.beaten.spared k (htaken k ht))
  · exact h.beaten.spared i (Nat.lt_of_le_of_lt hi (htaken k hk))
  · obtain ⟨k, hk, rfl⟩ := h.beaten.mem_pings.1 ht
    exact ⟨k, rfl, h.beaten.early k hk, fun i hi => h.beaten.spared i (Nat.lt_of_le_of_lt hi hk)⟩

/-- The diary of a session that has had its verdict. -/
theorem exact_of_sentenced {d : Diary} (h : d.Sentenced j.now n)
    (hover : j.IsPast name s (d.tick n) → j.Over s) : Exact j name s d := by
  have hverdict : d.Verdict (d.tick n) := ⟨n, rfl, h.overdue, h.spared⟩
  have hmem : ∀ t, t ∈ d.timeouts ↔ t = d.tick n := by
    rw [h.timeouts]
    exact fun t => List.mem_singleton
  refine
    { timeouts := fun t _ => ?_
      verdict := fun t ht => ?_
      pings := fun k _ => ?_
      spared := fun t ht => ?_
      once := h.nodup
      ended := fun t ht => ?_
      served := fun hnil => ?_ }
  · rw [hmem]
    exact ⟨fun ht => ht ▸ hverdict, fun ht => ht.unique hverdict⟩
  · rw [(hmem t).1 ht]
    exact ⟨hverdict, h.reached⟩
  -- those before the verdict, and no other
  · rw [h.tick_mem_pings]
    refine ⟨fun hk i hi => h.spared i (Nat.lt_of_le_of_lt hi hk), fun hall => ?_⟩
    exact Nat.lt_of_not_le fun hle => hall n hle h.overdue
  · obtain ⟨k, hk, rfl⟩ := h.mem_pings.1 ht
    exact ⟨k, rfl, h.early k hk, fun i hi => h.spared i (Nat.lt_of_le_of_lt hi hk)⟩
  · rw [(hmem t).1 ht]
    exact hover
  · simp [h.timeouts] at hnil

theorem Standing.exact (h : Standing j name s) : Exact j name s (j.diary s.slot) := by
  cases h with
  | attended hserved hsession h =>
    subst hsession
    exact h.exact hserved
  | doomed hserved hsession h =>
    subst hsession
    refine exact_of_sentenced h.sentenced fun hpast => ?_
    exact absurd (h.not_past hserved hpast) (Nat.lt_irrefl _)
  | ended hover h => exact exact_of_sentenced h fun _ => hover

/-- A session begins with a heartbeat to take and nothing to read. -/
theorem Standing.join (hsound : j.Sound) (name : String) (id : UInt64) (uid : Int64)
    (token : String) (gids : List Int64) :
    Standing (j.join name id uid token gids) name (j.newcomer id uid token) := by
  have hattended : Attended j.now { opened := j.now } {}
      (j.visitor (j.newcomer id uid token)).socket (j.beginning (j.newcomer id uid token)) 0 [] :=
    { beaten := Diary.beaten_zero j.now
      due := Nat.le_refl _
      nextTick := rfl
      timeouts := rfl
      write := nofun
      prompt := ⟨rfl, rfl, rfl⟩
      uncancelled := rfl
      role := rfl
      spells := .done .server
      unclosed := fun _ hm => nomatch hm
      fresh := fun hsome => absurd rfl hsome
      seen := fun _ => rfl }
  rw [← j.diary_join name id uid token gids, ← hsound.box_join name id uid token gids]
    at hattended
  exact .attended (j.served?_join name id uid token gids) rfl hattended

/-- Let a session be admitted and everything be in order for it from then on: writes are over at
once, what comes at the moment of a heartbeat is read before it, and nothing else ends the session.
Then it is closed for its silence at the verdict and at no other time, and each heartbeat before
sends one ping. So the client is closed more than the limit after its last frame, and less than a
heartbeat later; who is heard from often enough never is, and who falls silent always. -/
theorem timed_out_at_verdict (room : Nat) (before : List Act) (name : String) (id : UInt64)
    (uid : Int64) (token : String) (gids : List Int64) (acts : List Act)
    (hfree : served? ((start room).after before).endpoint name = none)
    (hid : ∀ s ∈ ((start room).after before).sessions, s.id ≠ id)
    (hregular : Regular name (((start room).after before).newcomer id uid token)
      (((start room).after before).act (.join name id uid token gids)) acts) :
    let s := ((start room).after before).newcomer id uid token
    let j := (start room).after (before ++ [.join name id uid token gids] ++ acts)
    let d := j.diary s.slot
    d.opened = ((start room).after before).now ∧ Exact j name s d ∧
      (∀ t ∈ d.timeouts, silenceLimit < t - d.lastHeard t ∧
        t - d.lastHeard t ≤ silenceLimit + pingInterval) ∧
      ((∀ t, d.opened ≤ t → t ≤ j.now → t - d.lastHeard t ≤ silenceLimit) → d.timeouts = []) ∧
      (j.IsPast name s (d.lastHeard j.now + (silenceLimit + pingInterval)) →
        ∃ t ∈ d.timeouts, t ≤ d.lastHeard j.now + (silenceLimit + pingInterval)) := by
  intro s j d
  have hsound : ((start room).after before).Sound := (sound_start room).after before
  have hact : ((start room).after before).act (.join name id uid token gids) =
      ((start room).after before).join name id uid token gids :=
    if_pos ⟨by rw [hfree]; rfl, hid⟩
  have hj : j = (((start room).after before).join name id uid token gids).after acts := by
    rw [← hact, ← after_concat, ← after_append]
  rw [hact] at hregular
  have hsound' := hact ▸ hsound.act (.join name id uid token gids)
  have hexact : Exact j name s d := by
    have hstanding := (Standing.join hsound name id uid token gids).after hsound' hregular
    rw [← hj] at hstanding
    exact hstanding.exact
  have hopened : d.opened = ((start room).after before).now := by
    have hs : s ∈ (((start room).after before).join name id uid token gids).sessions :=
      List.mem_append_right _ (List.mem_singleton_self _)
    have hafter := hsound'.opened_after hs acts
    rw [← hj, diary_join] at hafter
    exact hafter
  refine ⟨hopened, hexact, fun t ht => (hexact.verdict t ht).1.bounds, fun hheard => ?_,
    fun hpast => ?_⟩
  · refine List.eq_nil_iff_forall_not_mem.2 fun t ht => ?_
    obtain ⟨hverdict, hle⟩ := hexact.verdict t ht
    have hafter : d.opened ≤ t := by
      obtain ⟨k, rfl, -⟩ := hverdict
      exact Nat.le_add_right _ _
    exact Nat.not_lt_of_le (hheard t hafter hle) hverdict.bounds.1
  · have hsilent : d.lastHeard j.now + (silenceLimit + pingInterval) ≤ j.now := by
      rcases hpast with hlt | ⟨heq, -⟩
      · exact Nat.le_of_lt hlt
      · exact Nat.le_of_eq heq
    obtain ⟨t, hverdict, hle⟩ := Diary.exists_verdict_of_silent hsilent
    have ht : j.IsPast name s t := by
      rcases Nat.lt_or_eq_of_le hle with hlt | rfl
      · exact .inl (Nat.lt_of_lt_of_le hlt hsilent)
      · exact hpast
    exact ⟨t, (hexact.timeouts t ht).2 hverdict, hle⟩

/-- The phone answers once, ten seconds after the first ping, and is not heard from again. -/
def quietPhone : List Act :=
  [.step "phone" (some .tick), .step "phone" none, .pass 10000,
    .touch "phone" (.send [138, 128, 0, 0, 0, 0]), .step "phone" (some .frame),
    .pass 45000, .step "phone" (some .tick), .step "phone" none,
    .pass 45000, .step "phone" (some .tick), .step "phone" none,
    .pass 45000, .step "phone" (some .tick), .step "phone" none]

theorem whole_pong : Whole [138, 128, 0, 0, 0, 0] := by
  have hnext : Reader.next { role := .server, pending := [138, 128, 0, 0, 0, 0] } =
      .frame (some (.pong [])) { role := .server } := by
    decide +kernel
  exact ⟨[.pong []], .message hnext (.done .server), by simp, by simp⟩

theorem timed_out_at_verdict_quietPhone :
    let d := ((start 64).after (.join "phone" 7 1 "red" [] :: quietPhone)).diary 0
    d.pings = [0, 45000, 90000] ∧ d.timeouts = [135000] ∧ d.Verdict 135000 ∧
      ((start 64).after (.join "phone" 7 1 "red" [] :: quietPhone)).Over ⟨0, 7, 1, "red"⟩ := by
  intro d
  have hregular : Regular "phone" ((start 64).newcomer 7 1 "red")
      ((start 64).act (.join "phone" 7 1 "red" [])) quietPhone := by
    refine ⟨?_, ?_, ?_, ?send, ?_, ?_, ?_, ?_, ?_, ?_, ?_, ?_, ?_, ?_, trivial⟩
    case send =>
      intro x hx _ _
      refine ⟨?_, whole_pong⟩
      revert x
      decide +kernel
    all_goals
      simp only [IsRegular]
      decide +kernel
  obtain ⟨-, hexact, -⟩ := timed_out_at_verdict 64 [] "phone" 7 1 "red" [] quietPhone rfl
    (fun _ hs => nomatch hs) hregular
  have htimeouts : d.timeouts = [135000] := by decide +kernel
  have hmem : 135000 ∈ d.timeouts := by simp [htimeouts]
  have hrests : ((start 64).after (.join "phone" 7 1 "red" [] :: quietPhone)).Rests "phone"
      ⟨0, 7, 1, "red"⟩ := by
    unfold Rests
    decide +kernel
  have hnow : ((start 64).after (.join "phone" 7 1 "red" [] :: quietPhone)).now = 135000 := by
    decide +kernel
  exact ⟨by decide +kernel, htimeouts, (hexact.verdict _ hmem).1,
    hexact.ended _ hmem (.inr ⟨hnow.symm, hrests⟩)⟩

end Journal

end Switchboard.Gateway
