import ArtifactSync.Build.Event
import ArtifactSync.Build.Executor
import ArtifactSync.Discovery

/-!
# Batch builds

A batch build finds every source, builds them one after another, and writes both side files once at
the end. A source that fails is reported and counted and ends nothing. Only a list of excludes that
is refused, or sources that cannot be found, keep a build from running.
-/

namespace ArtifactSync

/-- Why a run over a whole project cannot begin. -/
inductive StartError where
  | run (cause : RunError)
  /-- The exclude matcher was handed a rooted path. -/
  | rooted (cause : RootedPath)
  deriving DecidableEq, Repr

/-- A failed discovery as the failure of a run. -/
def StartError.ofDiscovery : DiscoveryError → StartError
  | .rootNotFound path => .run (.rootNotFound path)
  | .walk root message => .run (.discovery root message)
  | .rooted cause => .rooted cause

/-- What a project says about a run over it. -/
structure Settings where
  root : Path
  mode : Mode
  excludes : List String
  deriving Repr

/-- What a batch build came to, with the world behind it. -/
structure BatchResult (σ : Type) where
  /-- The sources that were built, in order. -/
  built : List Path
  /-- The sources that failed, in order, each with the text of its error. -/
  failed : List (Path × String)
  /-- The outputs that the side files list. -/
  outputs : PathSet
  events : List BuildEvent
  world : σ

namespace BatchResult

variable {σ : Type}

/-- Whether every source was built. -/
def isSuccess (r : BatchResult σ) : Bool :=
  r.failed.isEmpty

/-- Builds one more source. -/
def build (x : Executor σ) (r : BatchResult σ) (source : Path) : BatchResult σ :=
  match x.build source r.world with
  | (.ok output, s) =>
    { r with
      built := r.built ++ [source]
      outputs := r.outputs.insert output
      events := r.events ++ [.built source output]
      world := s }
  | (.error e, s) =>
    { r with
      failed := r.failed ++ [(source, e.toString)]
      events := r.events ++ [.ofError e]
      world := s }

end BatchResult

namespace Batch

variable {σ : Type}

/-- Builds the sources given and writes the side files. -/
def runOn (x : Executor σ) (mode : Mode) (sources : List Path) (s : σ) : BatchResult σ :=
  let started := [.buildStarted x.root.toString sources.length]
  let r := sources.foldl (BatchResult.build x) ⟨[], [], .empty, started, s⟩
  let sideFiles := (SideFiles.new x.root mode.git mode.vscode 0).request r.outputs 0
  let (results, _, s) := sideFiles.flush x.files r.world
  { r with
    events := r.events ++ results.map .ofSync ++ [.buildComplete r.built.length r.failed.length]
    world := s }

/-- The excludes of a project and the sources found with them. -/
def survey (settings : Settings) (d : Disk) : Except StartError (Excludes × List Path) :=
  match Excludes.ofPatterns settings.root settings.excludes with
  | .error e => .error (.run (.exclude e))
  | .ok excludes =>
    match Discovery.sources d settings.root excludes with
    | .error e => .error (.ofDiscovery e)
    | .ok sources => .ok (excludes, sources)

/-- Builds a project. The view shows the disk that a world holds. -/
def execute (settings : Settings) (files : FileSystem σ) (compiler : Compiler σ)
    (view : σ → Disk) (s : σ) : Except StartError (BatchResult σ) :=
  match survey settings (view s) with
  | .error e => .error e
  | .ok (_, sources) =>
    .ok (runOn ⟨settings.root, settings.mode.kind, files, compiler⟩ settings.mode sources s)

end Batch

end ArtifactSync
