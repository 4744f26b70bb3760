import Switchboard.Session.Mailbox
import Switchboard.Table

/-!
The sessions of a node, found by id and by user. Both indexes move together, one operation at a
time; a user without sessions has no bucket.
-/

namespace Switchboard.Session

structure Index where
  byId : Table UInt64 SessionRef := .empty
  byUid : Table Int64 (List SessionRef) := .empty

inductive IndexChange where
  | add (s : SessionRef)
  | remove (s : SessionRef)
  | detachUser (uid : Int64)
  deriving DecidableEq, Repr, Inhabited

namespace Index

instance : Inhabited Index := ⟨{}⟩

def ofUser (x : Index) (uid : Int64) : List SessionRef := x.byUid.getD uid []

def all (x : Index) : List SessionRef := x.byId.values

def size (x : Index) : Nat := x.byId.size

/-- A session whose id is registered already is not added again. -/
def add (x : Index) (s : SessionRef) : Index :=
  if x.byId.contains s.id then x
  else
    { byId := x.byId.insert s.id s
      byUid := x.byUid.insert s.uid (x.ofUser s.uid ++ [s]) }

/-- Takes a session out by its id, and out of the bucket of its own user. -/
def remove (x : Index) (s : SessionRef) : Index :=
  if x.byId.contains s.id then
    let bucket := (x.ofUser s.uid).filter fun t => !t.same s
    { byId := x.byId.erase s.id
      -- the last session of a user takes the bucket with it
      byUid := if bucket.isEmpty then x.byUid.erase s.uid else x.byUid.insert s.uid bucket }
  else x

/-- Takes out all sessions of a user and hands them back. -/
def detachUser (x : Index) (uid : Int64) : List SessionRef × Index :=
  let detached := x.ofUser uid
  (detached,
    { byId := detached.foldl (fun t s => t.erase s.id) x.byId
      byUid := x.byUid.erase uid })

/-- Carries out a mutation; what it answers are the sessions that it detached for the asker. -/
def apply (x : Index) : IndexChange → List SessionRef × Index
  | .add s => ([], x.add s)
  | .remove s => ([], x.remove s)
  | .detachUser uid => x.detachUser uid

end Index

end Switchboard.Session
