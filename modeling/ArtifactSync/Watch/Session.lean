import ArtifactSync.Build.Executor
import ArtifactSync.Watch.Event

/-!
# Watch sessions

A session knows which sources it tracks and which outputs are to be listed. Changes come in one at a
time, so those of one path apply in the order of their arrival. `Run` is a session with the world it
acts on and the events it has reported so far; each call takes a run to the next.
-/

namespace ArtifactSync

/-- The life of a session. -/
inductive Phase where
  | idle
  | watching
  | closing
  | closed
  deriving DecidableEq, Repr

/-- What one change did. -/
inductive Outcome where
  /-- Nothing changed. -/
  | ignored
  | built
  | failed
  | removed
  deriving DecidableEq, Repr

/-- The state of a session. -/
structure Session where
  sources : PathSet
  outputs : PathSet
  sideFiles : SideFiles
  phase : Phase

/-- A session that has not started. -/
def Session.new (sideFiles : SideFiles) : Session :=
  ⟨.empty, .empty, sideFiles, .idle⟩

/-- A session, the world it acts on, and the events reported so far, in order. -/
structure Run (σ : Type) where
  session : Session
  world : σ
  events : List WatchEvent

namespace Run

variable {σ : Type}

/-- Reports an event. -/
def emit (r : Run σ) (e : WatchEvent) : Run σ :=
  { r with events := r.events ++ [e] }

/-- Starts to track a source. -/
def track (r : Run σ) (source : Path) : Run σ :=
  { r with session := { r.session with sources := r.session.sources.insert source } }

/-- Lists an output. -/
def list (r : Run σ) (output : Path) : Run σ :=
  { r with session := { r.session with outputs := r.session.outputs.insert output } }

/-- Drops a source and its output. -/
def drop (r : Run σ) (source output : Path) : Run σ :=
  { r with session := { r.session with
      sources := r.session.sources.erase source
      outputs := r.session.outputs.erase output } }

/-- Asks for an update of the side files with the outputs as they are now. -/
def requestSync (r : Run σ) (now : Nat) : Run σ :=
  { r with session := { r.session with
      sideFiles := r.session.sideFiles.request r.session.outputs now } }

/-- Moves to another phase. -/
def enter (r : Run σ) (phase : Phase) : Run σ :=
  { r with session := { r.session with phase := phase } }

/-- Builds a source and reports what came of it. -/
def build (r : Run σ) (x : Executor σ) (source : Path) (trigger : Trigger) :
    Option Path × Run σ :=
  match x.build source r.world with
  | (.ok output, s) => (some output, { r with world := s }.emit (.built source output trigger))
  | (.error e, s) => (none, { r with world := s }.emit (.ofError e))

/-- Builds the sources in a list, and counts those that were built and those that failed. A source
that fails is tracked too, so that a later change can mend it. -/
def buildAll (x : Executor σ) : List Path → Run σ → Nat × Nat × Run σ
  | [], r => (0, 0, r)
  | source :: rest, r =>
    match r.build x source .initial with
    | (some output, r) =>
      let (built, failed, r) := buildAll x rest ((r.list output).track source)
      (built + 1, failed, r)
    | (none, r) =>
      let (built, failed, r) := buildAll x rest (r.track source)
      (built, failed + 1, r)

/-- Builds every source there is and begins to watch. Only an idle session starts. -/
def start (r : Run σ) (x : Executor σ) (sources : List Path) (now : Nat) : Run σ :=
  if r.session.phase ≠ .idle then r
  else
    let (built, failed, r) := buildAll x sources r
    ((r.emit (.initialBuildComplete built failed)).requestSync now).enter .watching

/-- A source that was not tracked appeared: it is tracked once it builds. -/
def onAdd (r : Run σ) (x : Executor σ) (source : Path) (now : Nat) : Outcome × Run σ :=
  match r.build x source .add with
  | (some output, r) => (.built, ((r.track source).list output).requestSync now)
  | (none, r) => (.failed, r)

/-- A tracked source changed: the side files are updated if its output was not listed. -/
def onChange (r : Run σ) (x : Executor σ) (source : Path) (now : Nat) : Outcome × Run σ :=
  match r.build x source .change with
  | (some output, r) =>
    if r.session.outputs.contains output then (.built, r)
    else (.built, (r.list output).requestSync now)
  | (none, r) => (.failed, r)

/-- Deletes an output that no source has any more. That it is gone already is as good. -/
def deleteOutput (r : Run σ) (x : Executor σ) (output : Path) : Run σ :=
  match x.removeOutput output r.world with
  | (.ok _, s) => { r with world := s }
  | (.error e, s) =>
    if e.isNotFound then { r with world := s }
    else { r with world := s }.emit
      (.warning s!"could not delete {String.ofList output.toSlash}: {e}")

/-- A tracked source disappeared: its output goes with it. -/
def onUnlink (x : Executor σ) (now : Nat) (r : Run σ) (source : Path) : Run σ :=
  let output := x.outputFor source
  (((r.drop source output).deleteOutput x output).emit
    (.fileRemoved (String.ofList source.toSlash) (String.ofList output.toSlash))).requestSync now

/-- A path that is no tracked source disappeared: it may have been a directory, so every tracked
source below it is gone. -/
def onUnlinkTree (r : Run σ) (x : Executor σ) (dir : Path) (now : Nat) : Outcome × Run σ :=
  let below := if dir.chars = [] then [] else r.session.sources.paths.filter (·.startsWith dir)
  if below = [] then (.ignored, r) else (.removed, below.foldl (onUnlink x now) r)

/-- Applies one change. Only a watching session takes any. -/
def handle (r : Run σ) (x : Executor σ) (change : Change) (now : Nat) : Outcome × Run σ :=
  if r.session.phase ≠ .watching then (.ignored, r)
  else
    let tracked := r.session.sources.contains change.path
    match change.kind with
    | .unlink =>
      if !tracked then r.onUnlinkTree x change.path now
      else if !Artifact.isSource change.path then (.ignored, r)
      else (.removed, onUnlink x now r change.path)
    | .add =>
      if !Artifact.isSource change.path then (.ignored, r)
      else if tracked then r.onChange x change.path now
      else r.onAdd x change.path now
    | .change =>
      if Artifact.isSource change.path && tracked then r.onChange x change.path now
      else (.ignored, r)

/-- Reports updates. -/
def reportSyncs (r : Run σ) (results : List SyncResult) : Run σ :=
  results.foldl (fun r result => r.emit (.ofSync result)) r

/-- Runs the updates that are due. -/
def tick (r : Run σ) (x : Executor σ) (now : Nat) : Run σ :=
  let (results, sideFiles, s) := r.session.sideFiles.poll x.files now r.world
  { r with session := { r.session with sideFiles := sideFiles }, world := s }.reportSyncs results

/-- Runs the updates that are pending, and ends the session. -/
def close (r : Run σ) (x : Executor σ) : Run σ :=
  if r.session.phase = .closed then r
  else
    let r := r.enter .closing
    let (results, sideFiles, s) := r.session.sideFiles.flush x.files r.world
    let r := { r with session := { r.session with sideFiles := sideFiles }, world := s }
    ((r.reportSyncs results).enter .closed).emit .shutdown

end Run

end ArtifactSync
