import HubRelay.Host.Disk
import HubRelay.Host.Roster

/-!
A roster and the file that it is kept in.

What is added to the roster is written down at once, and a client that cannot be written down is not
added. Another keeper of the same file knows what was written.
-/

namespace HubRelay

/-- A roster, the disk that it is kept on, and the path of its file. Unlike a switchboard, a keeper
takes any number for a client that it is given. -/
structure Keeper where
  path : String
  disk : Disk := {}
  roster : Roster := {}

/-- A client to be added, and whether the disk breaks down while it is written. -/
structure Insertion where
  uuid : Uuid
  id : ClientId
  broken : Bool := false

namespace Keeper

def load (disk : Disk) (path : String) : Keeper :=
  { path, disk, roster := .ofContents (disk.read? path) }

def reloaded (k : Keeper) : Keeper := load k.disk k.path

def isWritable (k : Keeper) : Bool := k.disk.isReplaceable k.path

def store (k : Keeper) (broken : Bool) : Except HostError Keeper :=
  (k.roster.store k.path (k.isWritable && !broken)).map fun contents =>
    { k with disk := k.disk.write k.path contents }

def insert (k : Keeper) (i : Insertion) : Except HostError Keeper :=
  (k.roster.insert i.uuid i.id k.path (k.isWritable && !i.broken)).map fun (roster, contents) =>
    { k with roster, disk := k.disk.write k.path contents }

def after (k : Keeper) (i : Insertion) : Keeper :=
  match k.insert i with
  | .ok k => k
  | .error _ => k

def run (k : Keeper) (insertions : List Insertion) : Keeper := insertions.foldl after k

end Keeper

end HubRelay
