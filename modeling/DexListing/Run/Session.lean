import DexListing.Run.Event

/-!
# Sessions and their temporary files

A session is a host in use: the temporary files made on it that are still to be removed, in the
order of their making, and what happened so far. Cleaning up takes the files from the last one on
and forgets each, whether or not it could be removed.
-/

set_option autoImplicit false

namespace DexListing

/-- A host in use; of the events the newest one comes first. -/
structure Session where
  host : Host
  temporaries : List PathName
  newest : List Event

namespace Session

/-- A session that starts on a host. -/
def start (host : Host) : Session := ⟨host, [], []⟩

/-- A session starts on its host. -/
@[simp] theorem host_start (h : Host) : (start h).host = h := rfl

/-- The events so far, in order. -/
def events (s : Session) : List Event := s.newest.reverse

/-- The session after one more event. -/
def report (s : Session) (e : Event) : Session :=
  { s with newest := e :: s.newest }

/-- An event that is reported comes after the others. -/
theorem events_report (s : Session) (e : Event) : (s.report e).events = s.events ++ [e] := by
  simp [events, report]

/-- The session as if nothing had happened yet. -/
def forgetEvents (s : Session) : Session :=
  { s with newest := [] }

/-- Makes an empty temporary file, to be removed when the session is cleaned up. -/
def createTemporary (s : Session) : Except FileError PathName × Session :=
  match s.host.makeTemporary with
  | .error e => (.error e, s)
  | .ok (path, host) => (.ok path, { s with host, temporaries := s.temporaries ++ [path] })

/-- Removes one temporary file, or reports why it stays. -/
def removeTemporary (s : Session) (path : PathName) : Session :=
  match s.host.unlink path with
  | .error e => s.report (.temporaryLeft path e)
  | .ok host => { s with host }.report (.temporaryRemoved path)

/-- Removes all temporary files of the session, the last one first. -/
def cleanUp (s : Session) : Session :=
  s.temporaries.reverse.foldl removeTemporary { s with temporaries := [] }

end Session

end DexListing
