import Switchboard.Session.Mailbox
import Switchboard.Table

/-!
Payload handles and who has them: callers hold some under names, the others wait in mailboxes. Every
way in which a handle comes or goes is one operation here.
-/

namespace Switchboard.Session

structure Custody where
  post : Post := {}
  held : Table String Handle := .empty

namespace Custody

instance : Inhabited Custody := ⟨{}⟩

/-- Gives back the handle held under a name, if there is one. -/
def drop (c : Custody) (name : String) : Custody :=
  match c.held.get? name with
  | none => c
  | some h =>
    { post := { c.post with pool := c.post.pool.release h }
      held := c.held.erase name }

/-- Holds a handle under a name, in the place of the one before. -/
def hold (c : Custody) (name : String) (h : Handle) : Custody :=
  -- the handle of before goes back even when it is on the same payload
  let c := c.drop name
  { c with held := c.held.insert name h }

def create (c : Custody) (name : String) (bytes : Bytes) : Handle × Custody :=
  let (h, pool) := c.post.pool.create bytes
  (h, { c with post := { c.post with pool } }.hold name h)

/-- Takes a second handle on what is held under `name`. -/
def retain (c : Custody) (name new : String) : Custody :=
  match c.held.get? name with
  | none => c
  | some h => { c with post := { c.post with pool := c.post.pool.retain h } }.hold new h

/-- Sends a handle of its own to a session; nothing when no handle is held under the name. -/
def send (c : Custody) (s : SessionRef) (name : String) :
    Option (Except SendFault Unit) × Custody :=
  match c.held.get? name with
  | none => (none, c)
  | some h =>
    let (result, post) := c.post.send s h
    (some result, { c with post })

/-- Receives the next payload and gives its handle back; the answer are its bytes. -/
def receive (c : Custody) (slot : Nat) : Option Bytes × Custody :=
  match c.post.receive slot with
  | (none, post) => (none, { c with post })
  | (some h, post) =>
    (some (post.pool.bytes h), { c with post := { post with pool := post.pool.release h } })

/-- Receives the next payload and holds its handle under a name. -/
def receiveAs (c : Custody) (slot : Nat) (name : String) : Option Bytes × Custody :=
  match c.post.receive slot with
  | (none, post) => (none, { c with post })
  | (some h, post) => (some (post.pool.bytes h), { c with post }.hold name h)

def openSession (c : Custody) (id : UInt64) : SessionRef × Custody :=
  let (slot, post) := c.post.openBox false
  (⟨slot, id, 0, ""⟩, { c with post })

def close (c : Custody) (s : SessionRef) : Custody := { c with post := c.post.close s }

def dropReceiver (c : Custody) (slot : Nat) : Custody :=
  { c with post := c.post.dropReceiver slot }

end Custody

end Switchboard.Session
