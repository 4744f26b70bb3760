import Switchboard.Table

/-!
The directory of group memberships, which is asked when a session opens.
-/

namespace Switchboard

/-- The groups of each user, in the order in which they were joined and each once. -/
structure Directory where
  members : Table Int64 (List Int64)

namespace Directory

def empty : Directory := ⟨.empty⟩

instance : Inhabited Directory := ⟨empty⟩

def groupsOf (d : Directory) (uid : Int64) : List Int64 := d.members.getD uid []

def join (d : Directory) (uid gid : Int64) : Directory :=
  let gids := d.groupsOf uid
  ⟨d.members.insert uid (if gid ∈ gids then gids else gids ++ [gid])⟩

def ofEntries (entries : List (Int64 × List Int64)) : Directory :=
  entries.foldl (fun d (uid, gids) => gids.foldl (fun d gid => d.join uid gid) d) empty

end Directory

end Switchboard
