import Switchboard.Proofs.Gateway.Traffic

/-!
# Queueing — every client gets what was queued for it, in that order

Of the copies that are queued for a session some have been written, the rest still waits, and none
is between. When the task of the session returns, what waits is dropped. Copies are queued in the
order of the envelopes that they come from.
-/

namespace Switchboard

/-! ## 1. Copies -/

namespace WebSocket

/-- Payloads go out as texts or as binary messages, everything else as messages of other kinds. -/
def Message.isData : Message → Bool
  | .text _ | .binary _ => true
  | .ping _ | .pong _ | .close _ => false

theorem Message.isData_ofPayload (bytes : Bytes) : (Message.ofPayload bytes).isData = true := by
  unfold Message.ofPayload
  cases Text.Utf8.decode? bytes <;> rfl

end WebSocket

namespace Gateway

open Session WebSocket

namespace Diary

/-- The data whose writing has begun. -/
def begun (d : Diary) : List Message := (d.sent.map Prod.snd).filter Message.isData

/-- What the queued copies are written as. -/
def copies (d : Diary) : List Message := d.queued.map fun e => .ofPayload e.2

theorem begun_write (d : Diary) (now : Nat) (messages : List Message) :
    (d.write now messages).begun = d.begun ++ messages.filter Message.isData := by
  simp [begun, write, Function.comp_def]

theorem copies_enqueue (d : Diary) (number : Nat) (payloads : List Bytes) :
    (d.enqueue number payloads).copies = d.copies ++ payloads.map .ofPayload := by
  simp [copies, enqueue, Function.comp_def]

end Diary

end Gateway

/-! ## 2. Queues that nobody touches -/

namespace Session

/-- The mailboxes have the same in their queues, and those that are read from are. -/
structure Post.Still (before after : Post) : Prop where
  pool : before.pool.Later after.pool
  size : after.boxes.size = before.boxes.size
  queue : ∀ slot, (after.box slot).queue = (before.box slot).queue
  receiving : ∀ slot, (after.box slot).receiving = (before.box slot).receiving

namespace Post

theorem Still.refl (post : Post) : post.Still post :=
  ⟨Pool.Later.refl _, rfl, fun _ => rfl, fun _ => rfl⟩

theorem Still.trans {first second third : Post} (h : first.Still second) (h' : second.Still third) :
    first.Still third where
  pool := h.pool.trans h'.pool
  size := h'.size.trans h.size
  queue slot := (h'.queue slot).trans (h.queue slot)
  receiving slot := (h'.receiving slot).trans (h.receiving slot)

theorem still_of_later {post : Post} {pool : Pool} (h : post.pool.Later pool) :
    post.Still { post with pool } :=
  ⟨h, rfl, fun _ => rfl, fun _ => rfl⟩

theorem still_close (post : Post) (s : SessionRef) : post.Still (post.close s) := by
  refine ⟨Pool.Later.refl _, size_close post s, fun slot => ?_, fun slot => ?_⟩ <;>
    rcases post.box_close_cases s slot with hsame | hclosed
  · rw [hsame]
  · rw [hclosed]
  · rw [hsame]
  · rw [hclosed]

end Post

/-- What is in the pool keeps its bytes. -/
theorem Pool.Later.bytes {pool pool' : Pool} (h : pool.Later pool') {handle : Handle}
    (hsome : (pool.get? handle).isSome) :
    (pool'.get? handle).isSome ∧ pool'.bytes handle = pool.bytes handle := by
  obtain ⟨p, hp⟩ := Option.isSome_iff_exists.1 hsome
  obtain ⟨p', hp', hbytes, -⟩ := h handle p hp
  refine ⟨by rw [hp']; rfl, ?_⟩
  rw [bytes_eq_map, bytes_eq_map, hp, hp', Option.map_some, Option.map_some, hbytes]

end Session

namespace Gateway

open Session WebSocket

theorem Node.still_mutate (node : Node) (op : IndexChange) :
    node.post.Still (node.mutate op).2.1.post := by
  rw [node.post_mutate]
  exact .refl _

theorem Node.still_regroup (node : Node) (op : GroupChange) :
    node.post.Still (node.regroup op).1.post := by
  rw [node.post_regroup]
  exact .refl _

namespace Crowd

variable {c c' : Crowd}

theorem still_act {i : Nat} {script : Script} (h : c.act i script = some c') :
    c.node.post.Still c'.node.post := by
  cases script with
  | done => cases h
  | find | groupsOf =>
    obtain rfl : _ = c' := Option.some.inj h
    exact .refl _
  | close s next =>
    obtain rfl : _ = c' := Option.some.inj h
    exact Post.still_close _ s
  | mutate op next =>
    simp only [act] at h
    split at h <;> obtain rfl : _ = c' := Option.some.inj h
    · exact .refl _
    · exact c.node.still_mutate op
  | regroup op next =>
    simp only [act] at h
    split at h <;> obtain rfl : _ = c' := Option.some.inj h
    · exact .refl _
    · exact c.node.still_regroup op

/-- Scripts only ever close mailboxes. -/
theorem still_move {m : Move} (h : c.move? m = some c') : c.node.post.Still c'.node.post := by
  cases m with
  | job i =>
    simp only [move?] at h
    split at h
    · exact still_act h
    · cases h
  | indexWriter =>
    simp only [move?, writeIndex] at h
    split at h
    · cases h
    · split at h <;> obtain rfl : _ = c' := Option.some.inj h <;> exact c.node.still_mutate _
  | groupWriter =>
    simp only [move?, writeGroups] at h
    split at h
    · cases h
    · split at h <;> obtain rfl : _ = c' := Option.some.inj h <;> exact c.node.still_regroup _
  | abandon i =>
    simp only [move?] at h
    split at h
    · obtain rfl : _ = c' := Option.some.inj h
      exact .refl _
    · cases h

end Crowd

/-- A target that takes its copy has it at the end of its queue, and one that does not takes
nothing. -/
theorem Delivery.step_cases (h : Handle) (post : Post) (s : SessionRef) :
    ((post.box s.slot).takes = true ∧ (step h { post } s).count = 1 ∧
      (step h { post } s).post = ⟨post.pool.retain h, post.boxes.modify s.slot fun m =>
        { m with queue := m.queue ++ [h] }⟩) ∨
    ((step h { post } s).count = 0 ∧ post.Still (step h { post } s).post) := by
  by_cases htakes : (post.box s.slot).takes = true
  · rw [step_of_takes (d := { post }) htakes]
    exact .inl ⟨htakes, rfl, rfl⟩
  · refine .inr ?_
    by_cases hclosed : post.isClosed s = true
    · rw [step_of_isClosed (d := { post }) hclosed]
      exact ⟨rfl, .refl _⟩
    · have hopen := Bool.eq_false_iff.2 hclosed
      refine ⟨?_, ?_⟩
      · rw [step, hopen, Post.send_of_not_takes htakes]
        rfl
      · rw [post_step_of_refused (d := { post }) hopen (Bool.eq_false_iff.2 htakes)]
        have hback := (Pool.later_retain post.pool h).trans (Pool.later_release _ h)
        exact (Post.still_of_later hback).trans (Post.still_close _ s)

/-- A step that goes on either writes the payload that is first in its queue, or writes no data and
leaves the queues as they are. -/
theorem Serving.Taken.data {now : Nat} {socket : Socket} {node : Node} {v v' : Serving}
    {choice : Option Wakeup} {turn : Turn} (h : v.Taken now socket node choice turn)
    (htask : turn.task = .serving v') :
    (node.post.Still turn.state.post ∧
      (Pipe.sentSince socket.pipe turn.socket.pipe).filter Message.isData = []) ∨
    ∃ handle rest, (node.post.box v.session.slot).queue = handle :: rest ∧
      turn.state.post = ⟨node.post.pool, node.post.boxes.modify v.session.slot fun m =>
        { m with queue := rest }⟩ ∧
      Pipe.sentSince socket.pipe turn.socket.pipe = [.ofPayload (node.post.pool.bytes handle)] := by
  cases h with
  | part => exact .inl ⟨.refl _, by simp⟩
  | @heard message reader =>
    refine .inl ⟨.refl _, ?_⟩
    cases message <;> simp [Socket.reply, Socket.write, Message.isData]
  | payload hwrite hqueue => exact .inr ⟨_, _, hqueue, rfl, Pipe.sentSince_write _ _⟩
  | ping | silence | closing =>
    exact .inl ⟨.refl _, by simp [Socket.write, Closing.frame, Message.isData]⟩
  | written hwrite hclose hflushed hpool => exact .inl ⟨Post.still_of_later hpool, by simp⟩
  | ended => cases htask

/-! ## 3. A session and its queue -/

/-- What was queued has been written or waits, and only a queue that was dropped has lost any. -/
structure Lossless (pool : Pool) (m : Mailbox) (d : Diary) : Prop where
  held : ∀ h ∈ m.queue, (pool.get? h).isSome
  copies : ∃ lost, d.copies = d.begun ++ m.queue.map (fun h => .ofPayload (pool.bytes h)) ++ lost ∧
    (m.receiving = true → lost = [])

namespace Lossless

variable {pool pool' : Pool} {m m' : Mailbox} {d d' : Diary}

theorem begun_prefix (h : Lossless pool m d) : d.begun <+: d.copies := by
  obtain ⟨lost, hcopies, -⟩ := h.copies
  rw [hcopies, List.append_assoc]
  exact List.prefix_append _ _

theorem fresh (now : Nat) : Lossless pool {} { opened := now } :=
  ⟨fun _ hh => absurd hh List.not_mem_nil, [], rfl, fun _ => rfl⟩

theorem still (h : Lossless pool m d) (hlater : pool.Later pool') (hqueue : m'.queue = m.queue)
    (hreceiving : m'.receiving = m.receiving) (hcopies : d'.copies = d.copies)
    (hbegun : d'.begun = d.begun) : Lossless pool' m' d' := by
  obtain ⟨lost, hlossless, hlost⟩ := h.copies
  refine ⟨fun handle hh => (hlater.bytes (h.held handle (hqueue ▸ hh))).1, lost, ?_, ?_⟩
  · have hbytes : m.queue.map (fun h => Message.ofPayload (pool'.bytes h)) =
        m.queue.map fun h => .ofPayload (pool.bytes h) := by
      refine List.map_congr_left fun handle hh => ?_
      rw [(hlater.bytes (h.held handle hh)).2]
    rw [hcopies, hbegun, hqueue, hbytes, hlossless]
  · rwa [hreceiving]

theorem push (h : Lossless pool m d) (hreceiving : m.receiving = true) {handle : Handle}
    (hhandle : (pool.get? handle).isSome) (number : Nat) :
    Lossless pool { m with queue := m.queue ++ [handle] }
      (d.enqueue number [pool.bytes handle]) := by
  obtain ⟨lost, hcopies, hlost⟩ := h.copies
  obtain rfl := hlost hreceiving
  refine ⟨fun handle' hh => ?_, [], ?_, fun _ => rfl⟩
  · rcases List.mem_append.1 hh with hold | hnew
    · exact h.held handle' hold
    · rwa [List.mem_singleton.1 hnew]
  · rw [Diary.copies_enqueue, hcopies]
    simp [Diary.enqueue, Diary.begun]

theorem pop (h : Lossless pool m d) {handle : Handle} {rest : List Handle}
    (hqueue : m.queue = handle :: rest) (now : Nat) :
    Lossless pool { m with queue := rest } (d.write now [.ofPayload (pool.bytes handle)]) := by
  obtain ⟨lost, hcopies, hlost⟩ := h.copies
  refine ⟨fun handle' hh => h.held handle' (hqueue ▸ List.mem_cons_of_mem _ hh), lost, ?_, hlost⟩
  rw [hqueue] at hcopies
  rw [Diary.begun_write]
  simpa [Diary.copies, Diary.write, Message.isData_ofPayload] using hcopies

theorem drop (h : Lossless pool m d) :
    Lossless pool { m with queue := [], receiving := false } d := by
  obtain ⟨lost, hcopies, -⟩ := h.copies
  refine ⟨fun _ hh => absurd hh List.not_mem_nil,
    m.queue.map (fun h => .ofPayload (pool.bytes h)) ++ lost, ?_, nofun⟩
  rw [hcopies, List.map_nil, List.append_nil, List.append_assoc]

end Lossless

/-! ## 4. All sessions -/

/-- The session that a connection serves has its slot. -/
def Stage.Of (slot : Nat) : Stage → Prop
  | .entering s _ => s.slot = slot
  | .serving v => v.session.slot = slot
  | .leaving _ | .gone => True

/-- What holds of a connection at any moment, with the mailbox of its slot. A copy has the number of
the envelope that it comes from. -/
structure Connection.Kept (c : Connection) (slot : Nat) (pool : Pool) (m : Mailbox)
    (heard : List Wire.Envelope) : Prop where
  lossless : Lossless pool m c.diary
  gone : c.stage = .gone ↔ m.receiving = false
  dropped : m.receiving = false → m.queue = []
  own : c.stage.Of slot
  ordered : (c.diary.queued.map Prod.fst).Pairwise (· ≤ ·)
  origin : ∀ e ∈ c.diary.queued,
    ∃ packet, heard[e.1]? = some (.packet packet) ∧ packet.payload = e.2

/-- A connection later, for whose session no copy has been queued and no data written. -/
structure Connection.Alike (c : Connection) (slot : Nat) (c' : Connection) : Prop where
  queued : c'.diary.queued = c.diary.queued
  begun : c'.diary.begun = c.diary.begun
  gone : c'.stage = .gone ↔ c.stage = .gone
  own : c.stage.Of slot → c'.stage.Of slot

theorem Connection.Alike.refl (c : Connection) (slot : Nat) : c.Alike slot c :=
  ⟨rfl, rfl, Iff.rfl, id⟩

theorem getElem?_of_prefix {α : Type} {l l' : List α} (h : l <+: l') {i : Nat} {a : α}
    (ha : l[i]? = some a) : l'[i]? = some a := by
  obtain ⟨hi, rfl⟩ := List.getElem?_eq_some_iff.1 ha
  exact List.prefix_iff_getElem?.1 h i hi

theorem Connection.Kept.still {c c' : Connection} {slot : Nat} {pool pool' : Pool}
    {m m' : Mailbox} {heard heard' : List Wire.Envelope} (h : c.Kept slot pool m heard)
    (hpool : pool.Later pool') (hqueue : m'.queue = m.queue)
    (hreceiving : m'.receiving = m.receiving) (halike : c.Alike slot c')
    (hheard : heard <+: heard') : c'.Kept slot pool' m' heard' where
  lossless := by
    refine h.lossless.still hpool hqueue hreceiving ?_ halike.begun
    rw [Diary.copies, halike.queued, Diary.copies]
  gone := by rw [halike.gone, hreceiving, h.gone]
  dropped hclosed := by
    rw [hqueue]
    exact h.dropped (hreceiving ▸ hclosed)
  own := halike.own h.own
  ordered := halike.queued ▸ h.ordered
  origin e he := by
    obtain ⟨packet, hpacket, hbytes⟩ := h.origin e (halike.queued ▸ he)
    exact ⟨packet, getElem?_of_prefix hheard hpacket, hbytes⟩

namespace Connection

theorem kept_none (slot : Nat) (pool : Pool) (heard : List Wire.Envelope) :
    none.Kept slot pool { receiving := false } heard where
  lossless := ⟨fun _ hh => absurd hh List.not_mem_nil, [], rfl, fun _ => rfl⟩
  gone := ⟨fun _ => rfl, fun _ => rfl⟩
  dropped _ := rfl
  own := trivial
  ordered := List.Pairwise.nil
  origin _ he := absurd he List.not_mem_nil

theorem kept_fresh {stage : Stage} {slot : Nat} (hstage : stage ≠ .gone) (hown : stage.Of slot)
    (socket : Socket) (now : Nat) (pool : Pool) (heard : List Wire.Envelope) :
    Kept ⟨socket, stage, { opened := now }⟩ slot pool {} heard where
  lossless := .fresh now
  gone := ⟨fun hgone => absurd hgone hstage, nofun⟩
  dropped _ := rfl
  own := hown
  ordered := List.Pairwise.nil
  origin _ he := absurd he List.not_mem_nil

variable {c : Connection} {slot : Nat} {pool : Pool} {m : Mailbox} {heard : List Wire.Envelope}

/-- A copy of the last envelope comes behind all copies that there are. -/
theorem Kept.push (h : c.Kept slot pool m heard) (hreceiving : m.receiving = true) {number : Nat}
    {handle : Handle} (hlast : number + 1 = heard.length) (hheld : (pool.get? handle).isSome)
    (horigin : ∃ packet, heard[number]? = some (.packet packet) ∧
      packet.payload = pool.bytes handle) :
    Kept { c with diary := c.diary.enqueue number [pool.bytes handle] } slot pool
      { m with queue := m.queue ++ [handle] } heard where
  lossless := h.lossless.push hreceiving hheld number
  gone := h.gone
  dropped hclosed := by simp [hreceiving] at hclosed
  own := h.own
  ordered := by
    -- all copies so far come from envelopes that were heard
    have hle : ∀ e ∈ c.diary.queued, e.1 ≤ number := by
      intro e he
      obtain ⟨packet, hpacket, -⟩ := h.origin e he
      have hlt := (List.getElem?_eq_some_iff.1 hpacket).1
      omega
    show (List.map Prod.fst (c.diary.queued ++ [_])).Pairwise _
    rw [List.map_append, List.map_singleton]
    refine List.pairwise_append.2 ⟨h.ordered, List.pairwise_singleton _ _, fun n hn n' hn' => ?_⟩
    obtain ⟨e, he, rfl⟩ := List.mem_map.1 hn
    obtain rfl := List.mem_singleton.1 hn'
    exact hle e he
  origin e he := by
    rcases List.mem_append.1 he with hold | hnew
    · exact h.origin e hold
    · obtain rfl : e = (number, pool.bytes handle) := by simpa using hnew
      exact horigin

theorem Kept.pop (h : c.Kept slot pool m heard) (hopen : c.stage ≠ .gone) {handle : Handle}
    {rest : List Handle} (hqueue : m.queue = handle :: rest) {stage : Stage}
    (hstage : stage ≠ .gone) (hown : stage.Of slot) (socket : Socket) (now : Nat) :
    Kept ⟨socket, stage, c.diary.write now [.ofPayload (pool.bytes handle)]⟩ slot pool
      { m with queue := rest } heard where
  lossless := h.lossless.pop hqueue now
  gone := ⟨fun hgone => absurd hgone hstage, fun hclosed => absurd (h.gone.2 hclosed) hopen⟩
  dropped hclosed := absurd (h.gone.2 hclosed) hopen
  own := hown
  ordered := h.ordered
  origin := h.origin

theorem Kept.drop (h : c.Kept slot pool m heard) {pool' : Pool} (hlater : pool.Later pool')
    (socket : Socket) :
    Kept ⟨socket, .gone, c.diary⟩ slot pool' { m with queue := [], receiving := false } heard where
  lossless := h.lossless.drop.still hlater rfl rfl rfl rfl
  gone := ⟨fun _ => rfl, fun _ => rfl⟩
  dropped _ := rfl
  own := trivial
  ordered := h.ordered
  origin := h.origin

end Connection

namespace Traffic

variable {t t' : Traffic} {slot : Nat}

/-- The same packet as before is being queued, or none. -/
def Carries (d d' : Duty) : Prop :=
  ∀ number h targets, d' = .queueing number h targets → ∃ targets', d = .queueing number h targets'

theorem carries_refl (d : Duty) : Carries d d := fun _ _ targets h => ⟨targets, h⟩

/-- The packet that is being queued is the last envelope that has come. -/
structure Due (t : Traffic) (number : Nat) (h : Handle) : Prop where
  last : number + 1 = t.heard.length
  held : (t.node.post.pool.get? h).isSome
  origin : ∃ packet, t.heard[number]? = some (.packet packet) ∧
    packet.payload = t.node.post.pool.bytes h

structure InOrder (t : Traffic) : Prop where
  kept : ∀ slot, (t.connections slot).Kept slot t.node.post.pool (t.node.post.box slot) t.heard
  due : ∀ number h targets, t.duty = .queueing number h targets → t.Due number h

theorem alike_setConnection {c : Connection} (h : (t.connections slot).Alike slot c)
    (slot' : Nat) :
    (t.connections slot').Alike slot' ((t.setConnection slot c).connections slot') := by
  by_cases hslot : slot' = slot
  · rw [hslot, connections_setConnection_self]
    exact h
  · rw [connections_setConnection_of_ne t hslot]
    exact .refl _ _

theorem Due.still {number : Nat} {h : Handle} (hdue : t.Due number h)
    (hpool : t.node.post.pool.Later t'.node.post.pool) (hheard : t'.heard = t.heard) :
    t'.Due number h where
  last := hheard ▸ hdue.last
  held := (hpool.bytes hdue.held).1
  origin := by
    rw [hheard, (hpool.bytes hdue.held).2]
    exact hdue.origin

/-- Whatever leaves the queues alone and has nothing to do with an envelope keeps the order. -/
theorem InOrder.still (h : t.InOrder) (hpost : t.node.post.Still t'.node.post)
    (halike : ∀ slot, (t.connections slot).Alike slot (t'.connections slot))
    (hheard : t'.heard = t.heard) (hduty : Carries t.duty t'.duty) : t'.InOrder where
  kept slot := (h.kept slot).still hpost.pool (hpost.queue slot) (hpost.receiving slot)
    (halike slot) (hheard ▸ List.prefix_refl _)
  due number handle targets hqueueing := by
    obtain ⟨targets', hbefore⟩ := hduty number handle targets hqueueing
    exact (h.due number handle targets' hbefore).still hpost.pool hheard

/-- What an event does to one slot and its mailbox, when all others stay as they are. -/
theorem InOrder.at_slot (h : t.InOrder) (slot : Nat)
    (hpool : t.node.post.pool.Later t'.node.post.pool)
    (hbox : ∀ slot', slot' ≠ slot → t'.node.post.box slot' = t.node.post.box slot')
    (hconnection : ∀ slot', slot' ≠ slot → t'.connections slot' = t.connections slot')
    (hheard : t'.heard = t.heard) (hduty : Carries t.duty t'.duty)
    (hkept : (t'.connections slot).Kept slot t'.node.post.pool (t'.node.post.box slot) t.heard) :
    t'.InOrder where
  kept slot' := by
    rw [hheard]
    by_cases hslot : slot' = slot
    · rw [hslot]
      exact hkept
    · rw [hbox slot' hslot, hconnection slot' hslot]
      exact (h.kept slot').still hpool rfl rfl (.refl _ _) (List.prefix_refl _)
  due number handle targets hqueueing := by
    obtain ⟨targets', hbefore⟩ := hduty number handle targets hqueueing
    exact (h.due number handle targets' hbefore).still hpool hheard

/-! ## 5. What each event keeps -/

theorem inOrder_start (room : Nat) : ({ room } : Traffic).InOrder where
  kept slot := Connection.kept_none slot _ _
  due _ _ _ hduty := by cases hduty

theorem InOrder.connect (h : t.InOrder) (id : UInt64) (uid : Int64) (token : String)
    (gids : List Int64) : (t.connect id uid token gids).InOrder := by
  have hbox : ∀ slot, (t.connect id uid token gids).node.post.box slot =
      if slot = t.node.post.boxes.size then {} else t.node.post.box slot :=
    Post.box_openBox _ _
  -- the slot is the first that nobody has been given
  refine h.at_slot t.node.post.boxes.size (Pool.Later.refl _) (fun slot hslot => ?_)
    (fun slot hslot => connections_setConnection_of_ne _ hslot _) rfl (carries_refl _) ?_
  · rw [hbox, if_neg hslot]
  · have hconnection : (t.connect id uid token gids).connections t.node.post.boxes.size =
        ⟨{ pipe := { capacity := Http.acceptSize [] + t.room } },
          .entering (t.node.openSession id uid token false).1 t.crowd.jobs.length,
          { opened := t.now }⟩ := connections_setConnection_self _ _ _
    have hentering : Stage.entering (t.node.openSession id uid token false).1
        t.crowd.jobs.length ≠ .gone := nofun
    rw [hbox, if_pos rfl, hconnection]
    exact Connection.kept_fresh hentering rfl _ _ _ _

theorem InOrder.welcome (h : t.InOrder) {s : SessionRef} {job : Nat}
    (hstage : (t.connections slot).stage = .entering s job) : (t.welcome slot s).InOrder := by
  refine h.still (.refl _) (alike_setConnection ⟨rfl, rfl, ?_, ?_⟩) rfl (carries_refl _)
  · simp [hstage]
  · rw [hstage]
    exact id

theorem InOrder.depart (h : t.InOrder) {v : Serving}
    (hstage : (t.connections slot).stage = .serving v) : (t.depart slot v).InOrder := by
  have hpool : t.node.post.pool.Later (v.letGo t.node.post.pool) := by
    unfold Serving.letGo
    split
    · exact Pool.later_release _ _
    · exact .refl _
  refine h.still (Post.still_of_later hpool) (alike_setConnection ⟨rfl, rfl, ?_, ?_⟩) rfl
    (carries_refl _)
  · simp [hstage]
  · exact fun _ => trivial

theorem InOrder.goOn (h : t.InOrder) {v v' : Serving} {choice : Option Wakeup} {turn : Turn}
    (hstage : (t.connections slot).stage = .serving v)
    (htaken : v.Taken t.now (t.connections slot).socket t.node choice turn)
    (htask : turn.task = .serving v') : (t.goOn slot turn v').InOrder := by
  have hown : v.session.slot = slot := by
    have hof := (h.kept slot).own
    rwa [hstage] at hof
  have hown' : v'.session.slot = slot := by rw [htaken.session htask, hown]
  rcases htaken.data htask with ⟨hstill, hnodata⟩ | ⟨handle, rest, hqueue, hpost, hdata⟩
  · refine h.still hstill (alike_setConnection (t := t.withNode turn.state)
      ⟨rfl, ?_, ?_, fun _ => hown'⟩) rfl (carries_refl _)
    · rw [Diary.begun_write, hnodata]
      exact List.append_nil _
    · simp [withNode, hstage]
  -- the payload that is written was the first in the queue
  · rw [hown] at hqueue hpost
    have hsize : slot < t.node.post.boxes.size := Post.lt_size_of_queue (by simp [hqueue])
    refine h.at_slot slot ?_ (fun slot' hslot => ?_)
      (fun slot' hslot => connections_setConnection_of_ne _ hslot _) rfl (carries_refl _) ?_
    · show t.node.post.pool.Later turn.state.post.pool
      rw [hpost]
      exact .refl _
    · show turn.state.post.box slot' = _
      rw [hpost]
      exact Post.box_modify_of_ne _ hslot _ _
    · show Connection.Kept _ slot turn.state.post.pool (turn.state.post.box slot) _
      rw [Traffic.goOn, connections_setConnection_self, hpost, Post.box_modify_self hsize, hdata]
      have hgoing : Stage.serving v' ≠ .gone := nofun
      exact (h.kept slot).pop (by simp [hstage]) hqueue hgoing hown' _ t.now

theorem InOrder.gesture (h : t.InOrder) (slot : Nat) (gesture : Gesture) :
    (t.gesture slot gesture).InOrder := by
  refine h.still (.refl _) (alike_setConnection ⟨?_, ?_, Iff.rfl, id⟩) rfl (carries_refl _)
  · exact gesture.queued_note _ _
  · rw [Diary.begun, gesture.sent_note]
    rfl

theorem InOrder.retire (h : t.InOrder) {job : Nat}
    (hstage : (t.connections slot).stage = .leaving job) : (t.retire slot).InOrder := by
  have hkept := h.kept slot
  have hreceiving : (t.node.post.box slot).receiving = true := by
    rw [← Bool.not_eq_false, ← hkept.gone, hstage]
    exact nofun
  refine h.at_slot slot (Pool.later_releaseAll _ _)
    (fun slot' hslot => Post.box_dropReceiver_of_ne _ hslot)
    (fun slot' hslot => connections_setConnection_of_ne _ hslot _) rfl (carries_refl _) ?_
  rw [Traffic.retire, connections_setConnection_self]
  show Connection.Kept _ slot _ ((t.node.post.dropReceiver slot).box slot) _
  rw [Post.box_dropReceiver_self (Post.lt_size_of_receiving hreceiving)]
  exact hkept.drop (Pool.later_releaseAll _ _) _

theorem InOrder.copyTo (h : t.InOrder) {number : Nat} {handle : Handle} {s : SessionRef}
    {targets : List SessionRef} (hduty : t.duty = .queueing number handle (s :: targets)) :
    (t.copyTo number handle s targets).InOrder := by
  have hdue := h.due number handle _ hduty
  have hcarries : Carries t.duty (.queueing number handle targets) := by
    intro number' handle' targets' hsame
    obtain ⟨rfl, rfl, rfl⟩ := Duty.queueing.inj hsame
    exact ⟨_, hduty⟩
  unfold Traffic.copyTo
  dsimp only
  rcases Delivery.step_cases handle t.node.post s with ⟨htakes, hcount, hpost⟩ | ⟨hcount, hstill⟩
  · rw [hcount, hpost]
    have hlater := Pool.later_retain t.node.post.pool handle
    have hpush := (h.kept s.slot).push (Mailbox.receiving_of_takes htakes) hdue.last hdue.held
      hdue.origin
    refine h.at_slot s.slot hlater (fun slot' hslot => Post.box_modify_of_ne _ hslot _ _)
      (fun slot' hslot => connections_setConnection_of_ne _ hslot _) rfl hcarries ?_
    dsimp only
    rw [connections_setConnection_self]
    show Connection.Kept _ s.slot (t.node.post.pool.retain handle) ((Post.mk _ _).box s.slot) _
    rw [Post.box_modify_self (Delivery.lt_size_of_takes htakes)]
    exact hpush.still hlater rfl rfl (.refl _ _) (List.prefix_refl _)
  -- who takes nothing has nothing noted
  · rw [hcount]
    refine h.still hstill (alike_setConnection (t := t.withPost _) ?_) rfl hcarries
    simp only [List.replicate_zero, Diary.enqueue_nil]
    exact .refl _ _

theorem InOrder.apply (h : t.InOrder) (e : Event) : (t.apply e).InOrder := by
  have hfree : Carries t.duty .free := fun _ _ _ hqueueing => nomatch hqueueing
  have hhappened := t.happened e
  generalize t.apply e = t' at hhappened ⊢
  cases hhappened with
  | connect id uid token gids => exact h.connect id uid token gids
  | welcome hstage => exact h.welcome hstage
  | goOn hstage htaken htask => exact h.goOn hstage htaken htask
  | depart hstage => exact h.depart hstage
  | gesture hthere gesture => exact h.gesture _ gesture
  | retire hstage => exact h.retire hstage
  | move hm => exact h.still (Crowd.still_move hm) (fun slot => .refl _ slot) rfl (carries_refl _)
  | copyTo hduty => exact h.copyTo hduty
  | giveBack hduty =>
    exact h.still (Post.still_of_later (Pool.later_release _ _)) (fun slot => .refl _ slot) rfl
      hfree
  | obeyed hduty => exact h.still (.refl _) (fun slot => .refl _ slot) rfl hfree
  | pass span => exact h.still (.refl _) (fun slot => .refl _ slot) rfl (carries_refl _)
  | idle => exact h

/-- Only a link has the gateway hear anything. -/
theorem heard_apply (t : Traffic) (e : Event) : (t.apply e).heard = t.heard := by
  have hhappened := t.happened e
  generalize t.apply e = t' at hhappened ⊢
  cases hhappened <;> rfl

theorem heard_hear (t : Traffic) (envelope : Wire.Envelope) :
    (t.hear envelope).heard = t.heard ++ [envelope] := by
  unfold Traffic.hear
  dsimp only
  split <;> split <;> rfl

theorem InOrder.heard (h : t.InOrder) {envelope : Wire.Envelope}
    (hpost : t.node.post.Still t'.node.post) (hconnections : t'.connections = t.connections)
    (hheard : t'.heard = t.heard ++ [envelope])
    (hdue : ∀ number handle targets, t'.duty = .queueing number handle targets →
      t'.Due number handle) : t'.InOrder where
  kept slot := by
    refine (h.kept slot).still hpost.pool (hpost.queue slot) (hpost.receiving slot) ?_ ?_
    · rw [hconnections]
      exact .refl _ _
    · rw [hheard]
      exact List.prefix_append _ _
  due := hdue

theorem InOrder.hear (h : t.InOrder) (hfree : t.duty = .free) (envelope : Wire.Envelope) :
    (t.hear envelope).InOrder := by
  have hidle : ∀ number handle targets, t.duty ≠ .queueing number handle targets := by
    intro number handle targets hqueueing
    rw [hfree] at hqueueing
    cases hqueueing
  cases envelope with
  | packet packet =>
    by_cases hnobody : t.node.targets packet = []
    · rw [hear_of_nobody hnobody]
      exact h.heard (.refl _) rfl rfl fun _ _ _ hduty => absurd hduty (hidle _ _ _)
    · rw [hear_of_targets hnobody]
      refine h.heard (Post.still_of_later (Pool.later_create _ _)) rfl rfl ?_
      intro number handle targets hqueueing
      obtain ⟨rfl, rfl, rfl⟩ := Duty.queueing.inj hqueueing
      have hget : (t.node.post.pool.create packet.payload).2.get? (nextHandle t.node.post) =
          some { bytes := packet.payload } := by
        rw [Pool.get?_create, nextHandle, if_pos rfl]
      refine ⟨by simp, ?_, packet, by simp, ?_⟩
      · exact Option.isSome_iff_exists.2 ⟨_, hget⟩
      · show _ = (t.node.post.pool.create packet.payload).2.bytes _
        rw [Pool.bytes_eq_map, hget]
        rfl
  | command command =>
    by_cases hrequest : ∃ request, Request.ofCommand? command = some (.ok request)
    · obtain ⟨request, hrequest⟩ := hrequest
      rw [hear_of_request hrequest]
      exact h.heard (.refl _) rfl rfl fun _ _ _ => Duty.noConfusion
    · rw [hear_of_faulty (not_exists.1 hrequest)]
      exact h.heard (.refl _) rfl rfl fun _ _ _ hduty => absurd hduty (hidle _ _ _)

/-! ## 6. Sessions that have ended -/

/-- A slot was given out, and the task behind it has returned. -/
def Returned (t : Traffic) (slot : Nat) : Prop :=
  slot < t.node.post.boxes.size ∧ (t.connections slot).stage = .gone

/-- Slots that were given out are never taken back. -/
theorem size_le_apply (t : Traffic) (e : Event) :
    t.node.post.boxes.size ≤ (t.apply e).node.post.boxes.size := by
  have hhappened := t.happened e
  generalize t.apply e = t' at hhappened ⊢
  cases hhappened with
  | connect id uid token gids =>
    have hsize : (t.connect id uid token gids).node.post.boxes.size =
        t.node.post.boxes.size + 1 := Post.size_openBox _ _
    exact hsize ▸ Nat.le_succ _
  | @goOn slot choice v v' turn hstage htaken htask =>
    show _ ≤ turn.state.post.boxes.size
    rcases htaken.data htask with ⟨hstill, -⟩ | ⟨_, _, -, hpost, -⟩
    · exact Nat.le_of_eq hstill.size.symm
    · rw [hpost]
      exact Nat.le_of_eq Array.size_modify.symm
  | retire => exact Nat.le_of_eq (Post.size_dropReceiver _ _).symm
  | move hm => exact Nat.le_of_eq (Crowd.still_move hm).size.symm
  | copyTo => exact Nat.le_of_eq (Delivery.size_step (d := { post := t.node.post })).symm
  | welcome | depart | gesture | giveBack | obeyed | pass | idle => exact Nat.le_refl _

/-- No event has anything more to do with it. -/
theorem Returned.apply (h : t.Returned slot) (hinOrder : t.InOrder) (e : Event) :
    (t.apply e).Returned slot ∧ (t.apply e).connections slot = t.connections slot := by
  obtain ⟨hsize, hgone⟩ := h
  have hsame : (t.apply e).connections slot = t.connections slot := by
    -- whoever acts has another slot
    have hne : ∀ {slot' : Nat} {c : Connection} {t' : Traffic},
        (t.connections slot').stage ≠ .gone →
          (t'.setConnection slot' c).connections slot = t'.connections slot := by
      intro slot' c t' hthere
      refine connections_setConnection_of_ne t' ?_ c
      rintro rfl
      exact hthere hgone
    have hhappened := t.happened e
    generalize t.apply e = t' at hhappened ⊢
    cases hhappened with
    | connect id uid token gids =>
      exact connections_setConnection_of_ne _ (Nat.ne_of_lt hsize) _
    | welcome hstage | goOn hstage | depart hstage | retire hstage => exact hne (by simp [hstage])
    | gesture hthere => exact hne hthere
    | @copyTo number handle s targets hduty =>
      by_cases hslot : slot = s.slot
      · subst hslot
        have hclosed := (hinOrder.kept s.slot).gone.1 hgone
        rcases Delivery.step_cases handle t.node.post s with ⟨htakes, -⟩ | ⟨hcount, -⟩
        · rw [Mailbox.receiving_of_takes htakes] at hclosed
          cases hclosed
        · refine (connections_setConnection_self _ _ _).trans ?_
          rw [hcount, List.replicate_zero, Diary.enqueue_nil]
      · exact connections_setConnection_of_ne _ hslot _
    | move | giveBack | obeyed | pass | idle => rfl
  exact ⟨⟨Nat.lt_of_lt_of_le hsize (t.size_le_apply e), hsame ▸ hgone⟩, hsame⟩

theorem Returned.hear (h : t.Returned slot) (envelope : Wire.Envelope) :
    (t.hear envelope).Returned slot ∧
      (t.hear envelope).connections slot = t.connections slot := by
  unfold Traffic.hear
  dsimp only
  split <;> split <;> exact ⟨h, rfl⟩

/-- What waits in the queue of a slot. -/
def waiting (t : Traffic) (slot : Nat) : List Message :=
  (t.node.post.box slot).queue.map fun h => .ofPayload (t.node.post.pool.bytes h)

/-- Until its task returns, nothing that was queued for a session is lost. -/
theorem InOrder.copies_eq (h : t.InOrder) (hthere : (t.connections slot).stage ≠ .gone) :
    (t.connections slot).diary.copies =
      (t.connections slot).diary.begun ++ t.waiting slot := by
  have hkept := h.kept slot
  obtain ⟨lost, hcopies, hlost⟩ := hkept.lossless.copies
  have hreceiving : (t.node.post.box slot).receiving = true := by
    rw [← Bool.not_eq_false, ← hkept.gone]
    exact hthere
  rw [hcopies, hlost hreceiving, List.append_nil]
  rfl

theorem Returned.waiting_eq (h : t.Returned slot) (hinOrder : t.InOrder) : t.waiting slot = [] := by
  have hkept := hinOrder.kept slot
  rw [waiting, hkept.dropped (hkept.gone.1 h.2), List.map_nil]

end Traffic

end Gateway

end Switchboard
