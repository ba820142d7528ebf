import ArtifactSync.Build.Event

/-!
# Events of a watch

`Change` is what happened to one path of the project, as a watch session takes it. `WatchEvent` is
what the session reports; every one is also one line of JSON.
-/

namespace ArtifactSync

/-- What happened to a path. -/
inductive ChangeKind where
  | add
  | change
  | unlink
  deriving DecidableEq, Repr

/-- What happened to a path seen from the project root. -/
structure Change where
  kind : ChangeKind
  path : Path
  deriving DecidableEq, Repr

/-- The events of a watch. -/
inductive WatchEvent where
  | watchStarted (root : String) (sources : Nat)
  | fileBuilt (source output : String) (trigger : Trigger)
  | fileFailed (source stage message : String)
  | fileRemoved (source output : String)
  | initialBuildComplete (built failed : Nat)
  | sideFileSynced (file : String) (entries : Nat)
  | warning (message : String)
  | error (message : String)
  | shutdown
  deriving DecidableEq, Repr

namespace WatchEvent

open Json

/-- The name of an event and its fields. -/
def members : WatchEvent → List (String × Scalar)
  | watchStarted root sources =>
    [("event", .text "watch_started"), ("root", .text root), ("sources", .number sources)]
  | fileBuilt source output trigger =>
    [("event", .text "file_built"), ("source", .text source), ("output", .text output),
      ("trigger", .text trigger.name)]
  | fileFailed source stage message =>
    [("event", .text "file_failed"), ("source", .text source), ("stage", .text stage),
      ("message", .text message)]
  | fileRemoved source output =>
    [("event", .text "file_removed"), ("source", .text source), ("output", .text output)]
  | initialBuildComplete built failed =>
    [("event", .text "initial_build_complete"), ("built", .number built),
      ("failed", .number failed)]
  | sideFileSynced file entries =>
    [("event", .text "side_file_synced"), ("file", .text file), ("entries", .number entries)]
  | warning message => [("event", .text "warning"), ("message", .text message)]
  | error message => [("event", .text "error"), ("message", .text message)]
  | shutdown => [("event", .text "shutdown")]

/-- The line of an event. -/
def toJson (e : WatchEvent) : String :=
  renderObject (e.members ++ [("command", .text "dev")])

/-- The event of a source that was built. -/
def built (source output : Path) (trigger : Trigger) : WatchEvent :=
  .fileBuilt (String.ofList source.toSlash) (String.ofList output.toSlash) trigger

/-- The event of a source that failed. -/
def ofError (e : BuildError) : WatchEvent :=
  .fileFailed (String.ofList e.source.toSlash) e.stage e.toString

/-- The event of an update. Settings that cannot be merged are worth a warning: nothing was lost. -/
def ofSync : SyncResult → WatchEvent
  | .ok report => .sideFileSynced report.kind.location report.entries
  | .error (.parse path reason) => .warning (SideFileError.parse path reason).toString
  | .error e => .error e.toString

end WatchEvent

end ArtifactSync
