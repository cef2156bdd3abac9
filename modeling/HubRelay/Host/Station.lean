import HubRelay.Host.Watch

/-!
A switchboard at work: with the disk that its roster is kept on and the watch over its clients.

A station that is closed and opened again on the same disk knows the same clients.
-/

namespace HubRelay

/-- A switchboard, the disk that its roster is kept on, and the watch over its clients. The watch
answers at once whether a process can be linked; deaths are reported later. -/
structure Station where
  board : Switchboard
  disk : Disk := {}
  watch : Watch := {}

namespace Station

def ofDisk (settings : HostSettings) (disk : Disk) : Station :=
  { board := .ofContents settings (disk.read? settings.path), disk }

def reopen (s : Station) : Station := ofDisk s.board.settings s.disk

/-- The watch after what the switchboard asked of it. -/
def follow (s : Station) (calls : List MonitorCall) : Station :=
  { s with watch := calls.foldl Watch.follow s.watch }

/-- Connects a client, where `linkable` says whether its process can be watched. -/
def register (s : Station) (pid : Pid) (callback : Callback) (uuid : Uuid) (linkable : Bool) :
    Except HostError ClientId × Station × List MonitorCall :=
  let path := s.board.settings.path
  let (result, board, effects) :=
    s.board.register pid callback uuid ⟨linkable, s.disk.isReplaceable path⟩
  let disk :=
    match effects.written with
    | some contents => s.disk.write path contents
    | none => s.disk
  (result, { s with board, disk }.follow effects.calls, effects.calls)

def death (s : Station) (pid : Pid) : Station × List MonitorCall :=
  let (board, calls) := s.board.death pid
  ({ s with board }.follow calls, calls)

/-- One round of looking, with the deaths that it reports. -/
def look (s : Station) (living : Pid → Bool) : Station :=
  let (gone, watch) := s.watch.look living
  gone.foldl (fun s pid => (s.death pid).1) { s with watch }

end Station

end HubRelay
