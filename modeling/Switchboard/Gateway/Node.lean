import Switchboard.Log
import Switchboard.Session.Groups
import Switchboard.Session.Index

/-!
The sessions of a gateway: their mailboxes, the index that finds them, and their groups. The index
and the groups change only through their writers; once a writer has stopped, mutations handed to it
are dropped and reported.
-/

namespace Switchboard.Gateway

open Session

structure Node where
  post : Post := {}
  index : Index := {}
  groups : Groups := {}
  indexWriter : Bool := true
  groupWriter : Bool := true

namespace Node

instance : Inhabited Node := ⟨{}⟩

/-- A new session, in no index and no group. -/
def openSession (node : Node) (id : UInt64) (uid : Int64) (token : String) (refusing : Bool) :
    SessionRef × Node :=
  let (slot, post) := node.post.openBox refusing
  (⟨slot, id, uid, token⟩, { node with post })

/-- Hands a mutation to the writer of the index and waits for its answer. -/
def mutate (node : Node) (op : IndexChange) : List SessionRef × Node × List LogLine :=
  if node.indexWriter then
    let (answer, index) := node.index.apply op
    (answer, { node with index }, [])
  else ([], node, [failure "session registry writer has stopped, mutation dropped"])

/-- Hands a mutation to the writer of the groups and waits until it is carried out. -/
def regroup (node : Node) (op : GroupChange) : Node × List LogLine :=
  if node.groupWriter then ({ node with groups := node.groups.apply op }, [])
  else (node, [failure "group registry writer has stopped, mutation dropped"])

end Node

end Switchboard.Gateway
