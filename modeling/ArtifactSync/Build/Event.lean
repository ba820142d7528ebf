import ArtifactSync.SideFile.Basic
import ArtifactSync.Text.Json

/-!
# Events of a batch build

What a batch build reports while it runs. Every event is also one line of JSON: its name, its
fields in the order of their declaration, and the command it belongs to.
-/

namespace ArtifactSync

/-- What made a source be built. -/
inductive Trigger where
  /-- It was there at the start. -/
  | initial
  /-- It appeared. -/
  | add
  /-- It changed. -/
  | change
  deriving DecidableEq, Repr

/-- The name of a trigger. -/
def Trigger.name : Trigger → String
  | initial => "initial"
  | add => "add"
  | change => "change"

/-- The events of a batch build. -/
inductive BuildEvent where
  | buildStarted (root : String) (sources : Nat)
  | fileBuilt (source output : String)
  | fileFailed (source stage message : String)
  | sideFileSynced (file : String) (entries : Nat)
  | warning (message : String)
  | buildComplete (built failed : Nat)
  deriving DecidableEq, Repr

namespace BuildEvent

open Json

/-- The name of an event and its fields. -/
def members : BuildEvent → List (String × Scalar)
  | buildStarted root sources =>
    [("event", .text "build_started"), ("root", .text root), ("sources", .number sources)]
  | fileBuilt source output =>
    [("event", .text "file_built"), ("source", .text source), ("output", .text output)]
  | fileFailed source stage message =>
    [("event", .text "file_failed"), ("source", .text source), ("stage", .text stage),
      ("message", .text message)]
  | sideFileSynced file entries =>
    [("event", .text "side_file_synced"), ("file", .text file), ("entries", .number entries)]
  | warning message => [("event", .text "warning"), ("message", .text message)]
  | buildComplete built failed =>
    [("event", .text "build_complete"), ("built", .number built), ("failed", .number failed)]

/-- The line of an event. -/
def toJson (e : BuildEvent) : String :=
  renderObject (e.members ++ [("command", .text "build")])

/-- The event of a source that was built. -/
def built (source output : Path) : BuildEvent :=
  .fileBuilt (String.ofList source.toSlash) (String.ofList output.toSlash)

/-- The event of a source that failed. -/
def ofError (e : BuildError) : BuildEvent :=
  .fileFailed (String.ofList e.source.toSlash) e.stage e.toString

/-- The event of an update: none of its failures ends the build. -/
def ofSync : SyncResult → BuildEvent
  | .ok report => .sideFileSynced report.kind.location report.entries
  | .error e => .warning e.toString

end BuildEvent

end ArtifactSync
