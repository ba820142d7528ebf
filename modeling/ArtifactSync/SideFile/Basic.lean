import ArtifactSync.Error
import ArtifactSync.Path.Set
import ArtifactSync.SideFile.Debouncer
import ArtifactSync.SideFile.EditorExclude
import ArtifactSync.SideFile.IgnoreList

/-!
# Side files

A side file lists the outputs of a project in a region of its own. Updates are asked for whenever
the outputs change, and run once the requests have been quiet for a while, always with the set of
the latest request.
-/

namespace ArtifactSync

/-- The two side files. -/
inductive SideFileKind where
  /-- The version control's ignore list. -/
  | ignoreList
  /-- The editor's exclude list. -/
  | editorExclude
  deriving DecidableEq, Repr

namespace SideFileKind

/-- The place of a side file below the project root. -/
def location : SideFileKind → String
  | ignoreList => ".gitignore"
  | editorExclude => ".vscode/settings.json"

/-- What the file holds after an update, given what it holds now. -/
def render (kind : SideFileKind) (existing : String) (outputs : List Path) :
    Except String String :=
  match kind with
  | ignoreList => .ok (String.ofList (IgnoreList.render existing.toList outputs))
  | editorExclude => (EditorExclude.render existing.toList outputs).map String.ofList

end SideFileKind

/-- One executed update. -/
structure SyncReport where
  kind : SideFileKind
  path : Path
  /-- The number of outputs that the region lists. -/
  entries : Nat
  deriving DecidableEq, Repr

/-- What came of an update. -/
abbrev SyncResult := Except SideFileError SyncReport

/-- One side file, and the outputs that a pending update is to list. -/
structure SideFile where
  kind : SideFileKind
  path : Path
  enabled : Bool
  pending : Debouncer PathSet

namespace SideFile

variable {σ : Type}

/-- A side file of the project at `root`, with nothing pending. -/
def new (kind : SideFileKind) (root : Path) (enabled : Bool) (quiet : Nat) : SideFile :=
  ⟨kind, root.join (Path.ofString kind.location), enabled, .new quiet⟩

/-- Asks for an update with the outputs given, in place of any pending one. A side file that is
switched off takes no requests. -/
def request (f : SideFile) (outputs : PathSet) (now : Nat) : SideFile :=
  if f.enabled then { f with pending := f.pending.push outputs now } else f

/-- Whether an update is pending. -/
def hasPending (f : SideFile) : Bool :=
  f.pending.hasPending

/-- The instant from which the pending update is due. -/
def deadline (f : SideFile) : Option Nat :=
  f.pending.deadline

/-- Makes the directory of a side file, if its path has one in front. -/
def prepare (f : SideFile) (files : FileSystem σ) (s : σ) : Except FsError Unit × σ :=
  match f.path.parent? with
  | some parent => files.createDirs parent s
  | none => (.ok (), s)

/-- What the file holds; nothing if it is not there. -/
def existing (f : SideFile) (files : FileSystem σ) (s : σ) : Except FsError String × σ :=
  match files.read f.path s with
  | (.error cause, s) => if cause.isNotFound then (.ok "", s) else (.error cause, s)
  | answer => answer

/-- Updates the side file so that its region lists exactly the outputs given. There is one write,
or none if what the file holds cannot be merged. -/
def writeNow (f : SideFile) (files : FileSystem σ) (outputs : PathSet) (s : σ) : SyncResult × σ :=
  match f.prepare files s with
  | (.error cause, s) => (.error (.prepare f.path cause), s)
  | (.ok _, s) =>
    match f.existing files s with
    | (.error cause, s) => (.error (.read f.path cause), s)
    | (.ok existing, s) =>
      match f.kind.render existing outputs.paths with
      | .error reason => (.error (.parse f.path reason), s)
      | .ok text =>
        match files.write f.path text s with
        | (.error cause, s) => (.error (.write f.path cause), s)
        | (.ok _, s) => (.ok ⟨f.kind, f.path, outputs.size⟩, s)

/-- Runs the update that has been taken from the pending ones, if there was one. -/
def runTaken (f : SideFile) (files : FileSystem σ) (taken : Option PathSet × Debouncer PathSet)
    (s : σ) : Option SyncResult × SideFile × σ :=
  let f := { f with pending := taken.2 }
  match taken.1 with
  | none => (none, f, s)
  | some outputs =>
    let (result, s) := f.writeNow files outputs s
    (some result, f, s)

/-- Runs the pending update if it is due. -/
def poll (f : SideFile) (files : FileSystem σ) (now : Nat) (s : σ) :
    Option SyncResult × SideFile × σ :=
  f.runTaken files (f.pending.poll now) s

/-- Runs the pending update, due or not. -/
def flush (f : SideFile) (files : FileSystem σ) (s : σ) : Option SyncResult × SideFile × σ :=
  f.runTaken files f.pending.take s

end SideFile

/-- Both side files of a project. -/
structure SideFiles where
  ignoreList : SideFile
  editorExclude : SideFile

namespace SideFiles

variable {σ : Type}

/-- The side files of the project at `root`, of which the mode switches some on. -/
def new (root : Path) (git vscode : Bool) (quiet : Nat) : SideFiles :=
  ⟨.new .ignoreList root git quiet, .new .editorExclude root vscode quiet⟩

/-- Asks for an update of both. -/
def request (f : SideFiles) (outputs : PathSet) (now : Nat) : SideFiles :=
  ⟨f.ignoreList.request outputs now, f.editorExclude.request outputs now⟩

/-- Whether an update is pending. -/
def hasPending (f : SideFiles) : Bool :=
  f.ignoreList.hasPending || f.editorExclude.hasPending

/-- The earliest instant from which a pending update is due. -/
def nextDeadline (f : SideFiles) : Option Nat :=
  match f.ignoreList.deadline, f.editorExclude.deadline with
  | some a, some b => some (min a b)
  | some a, none => some a
  | none, b => b

/-- Runs what is due. -/
def poll (f : SideFiles) (files : FileSystem σ) (now : Nat) (s : σ) :
    List SyncResult × SideFiles × σ :=
  let (first, ignoreList, s) := f.ignoreList.poll files now s
  let (second, editorExclude, s) := f.editorExclude.poll files now s
  (first.toList ++ second.toList, ⟨ignoreList, editorExclude⟩, s)

/-- Runs whatever is pending. -/
def flush (f : SideFiles) (files : FileSystem σ) (s : σ) : List SyncResult × SideFiles × σ :=
  let (first, ignoreList, s) := f.ignoreList.flush files s
  let (second, editorExclude, s) := f.editorExclude.flush files s
  (first.toList ++ second.toList, ⟨ignoreList, editorExclude⟩, s)

end SideFiles

end ArtifactSync
