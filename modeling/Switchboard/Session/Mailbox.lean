import Switchboard.Session.Payload

/-!
Sessions and the mailboxes that hold what is queued for them. A mailbox takes payloads until its
session is closed or its receiver is gone; closing it keeps what was queued.
-/

namespace Switchboard.Session

/-- A session as registries hold it. The slot tells two sessions of one id apart. -/
structure SessionRef where
  slot : Nat
  id : UInt64
  uid : Int64
  token : String
  deriving DecidableEq, Repr, Inhabited

namespace SessionRef

/-- Sessions count as the same when their ids agree. -/
def same (s t : SessionRef) : Bool := s.id = t.id

def describe (s : SessionRef) : String :=
  s!"Session \x7b session_id: {s.id}, uid: {s.uid} \x7d"

end SessionRef

/-- A queue of payloads. With `refusing` every delivery fails although the session is open. -/
structure Mailbox where
  queue : List Handle := []
  cancelled : Bool := false
  receiving : Bool := true
  refusing : Bool := false
  deriving DecidableEq, Repr, Inhabited

namespace Mailbox

def isClosed (m : Mailbox) : Bool := m.cancelled || !m.receiving

def takes (m : Mailbox) : Bool := !m.cancelled && m.receiving && !m.refusing

end Mailbox

inductive SendFault where
  | closed (id : UInt64)
  deriving DecidableEq, Repr, Inhabited

def SendFault.message : SendFault → String
  | .closed id => s!"session {id} is closed"

/-- The payloads of a node and the mailboxes of its sessions, by slot. -/
structure Post where
  pool : Pool := {}
  boxes : Array Mailbox := #[]
  deriving DecidableEq, Repr, Inhabited

namespace Post

/-- A mailbox for a new session, with the session's slot. -/
def openBox (post : Post) (refusing : Bool) : Nat × Post :=
  (post.boxes.size, { post with boxes := post.boxes.push { refusing } })

/-- The mailbox of a slot; a slot that was never given out has no receiver. -/
def box (post : Post) (slot : Nat) : Mailbox :=
  (post.boxes[slot]?).getD { receiving := false }

def isClosed (post : Post) (s : SessionRef) : Bool := (post.box s.slot).isClosed

/-- Queues a handle, or gives it back when the mailbox does not take it. -/
def deliver (post : Post) (s : SessionRef) (h : Handle) : Except SendFault Unit × Post :=
  if (post.box s.slot).takes then
    (.ok (), { post with
      boxes := post.boxes.modify s.slot fun m => { m with queue := m.queue ++ [h] } })
  -- a mailbox that refuses is reported as closed, too
  else (.error (.closed s.id), { post with pool := post.pool.release h })

/-- Makes a handle of its own for the delivery. -/
def send (post : Post) (s : SessionRef) (h : Handle) : Except SendFault Unit × Post :=
  { post with pool := post.pool.retain h }.deliver s h

def receive (post : Post) (slot : Nat) : Option Handle × Post :=
  match (post.box slot).queue with
  | [] => (none, post)
  | h :: rest =>
    (some h, { post with boxes := post.boxes.modify slot fun m => { m with queue := rest } })

def close (post : Post) (s : SessionRef) : Post :=
  { post with boxes := post.boxes.modify s.slot fun m => { m with cancelled := true } }

/-- The receiver goes, with all that it has queued. -/
def dropReceiver (post : Post) (slot : Nat) : Post where
  pool := post.pool.releaseAll (post.box slot).queue
  boxes := post.boxes.modify slot fun m => { m with queue := [], receiving := false }

end Post

end Switchboard.Session
