import Switchboard.Session.Mailbox
import Switchboard.Table

/-!
Which sessions are in which groups. The relation is kept from both sides, as buckets of sessions by
group and as sets of groups by session; only the operations here change either. A group without
sessions has no bucket.
-/

namespace Switchboard.Session

structure Groups where
  buckets : Table Int64 (List SessionRef) := .empty
  joined : Table Nat (List Int64) := .empty

inductive GroupChange where
  | subscribe (s : SessionRef) (gids : List Int64)
  | unsubscribe (s : SessionRef) (gids : List Int64)
  deriving DecidableEq, Repr, Inhabited

namespace Groups

instance : Inhabited Groups := ⟨{}⟩

def members (g : Groups) (gid : Int64) : List SessionRef := g.buckets.getD gid []

/-- The groups that a session has joined. -/
def groupsOf (g : Groups) (s : SessionRef) : List Int64 := g.joined.getD s.slot []

def count (g : Groups) : Nat := g.buckets.size

def subscribeOne (g : Groups) (s : SessionRef) (gid : Int64) : Groups :=
  let bucket := g.members gid
  let gids := g.groupsOf s
  -- buckets tell sessions by their ids, the sets of groups by their slots
  { buckets := g.buckets.insert gid (if bucket.any (·.same s) then bucket else bucket ++ [s])
    joined := g.joined.insert s.slot (if gid ∈ gids then gids else gids ++ [gid]) }

def unsubscribeOne (g : Groups) (s : SessionRef) (gid : Int64) : Groups :=
  let bucket := (g.members gid).filter fun t => !t.same s
  -- the last member takes the bucket with it
  { buckets := if bucket.isEmpty then g.buckets.erase gid else g.buckets.insert gid bucket
    joined := g.joined.modify s.slot fun gids => gids.filter (· ≠ gid) }

def subscribe (g : Groups) (s : SessionRef) (gids : List Int64) : Groups :=
  gids.foldl (·.subscribeOne s ·) g

def unsubscribe (g : Groups) (s : SessionRef) (gids : List Int64) : Groups :=
  gids.foldl (·.unsubscribeOne s ·) g

def apply (g : Groups) : GroupChange → Groups
  | .subscribe s gids => g.subscribe s gids
  | .unsubscribe s gids => g.unsubscribe s gids

def unsubscribeAll (g : Groups) (s : SessionRef) : Groups := g.unsubscribe s (g.groupsOf s)

end Groups

end Switchboard.Session
