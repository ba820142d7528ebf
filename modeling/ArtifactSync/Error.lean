import ArtifactSync.Compiler.Basic
import ArtifactSync.FileSystem.Basic

/-!
# Errors

The failures that reach a user, with the text each is shown as. A failed build names the source it
was about, and a failed side file names the file.
-/

namespace ArtifactSync

/-- The failure of one build, at one of its three stages. -/
inductive BuildError where
  | read (source : Path) (cause : FsError)
  | compile (source : Path) (cause : CompileError)
  | write (source output : Path) (cause : FsError)
  deriving DecidableEq, Repr

namespace BuildError

/-- The source that a build was about. -/
def source : BuildError → Path
  | read source _ => source
  | compile source _ => source
  | write source _ _ => source

/-- The name of the stage that failed. -/
def stage : BuildError → String
  | read _ _ => "read"
  | compile _ _ => "transpile"
  | write _ _ _ => "write"

/-- The text of a failed build. -/
def toString : BuildError → String
  | read source cause => s!"cannot read {source}: {cause}"
  | compile source cause => s!"cannot compile {source}: {cause}"
  | write source output cause => s!"cannot write {output} (from {source}): {cause}"

instance : ToString BuildError := ⟨toString⟩

end BuildError

/-- The failure of one update of a side file, at one of its four stages. -/
inductive SideFileError where
  | prepare (path : Path) (cause : FsError)
  | read (path : Path) (cause : FsError)
  /-- What the file holds cannot be merged; it was left as it was. -/
  | parse (path : Path) (reason : String)
  | write (path : Path) (cause : FsError)
  deriving DecidableEq, Repr

namespace SideFileError

/-- The side file that an update was about. -/
def path : SideFileError → Path
  | prepare path _ => path
  | read path _ => path
  | parse path _ => path
  | write path _ => path

/-- The text of a failed update. -/
def toString : SideFileError → String
  | prepare path cause => s!"cannot prepare {path}: {cause}"
  | read path cause => s!"cannot read {path}: {cause}"
  | parse path reason => s!"left {path} unchanged, cannot parse it: {reason}"
  | write path cause => s!"cannot write {path}: {cause}"

instance : ToString SideFileError := ⟨toString⟩

end SideFileError

/-- Why a list of exclude patterns is refused. -/
inductive ExcludeError where
  | tooManyPatterns (count limit : Nat)
  | invalidPattern (pattern message : String)
  | buildFailed (message : String)
  deriving DecidableEq, Repr

/-- The text of a refused list. -/
def ExcludeError.toString : ExcludeError → String
  | tooManyPatterns count limit => s!"{count} exclude patterns exceed the {limit} limit"
  | invalidPattern pattern message => s!"Invalid exclude pattern '{pattern}' - {message}"
  | buildFailed message => s!"Failed to build exclude matcher: {message}"

instance : ToString ExcludeError := ⟨ExcludeError.toString⟩

/-- The failures of a whole run. -/
inductive RunError where
  | discovery (root : Path) (message : String)
  | rootNotFound (path : Path)
  | invalidConfig (file : Path) (message : String)
  | exclude (cause : ExcludeError)
  | watcher (message : String)
  | build (cause : BuildError)
  | sideFile (cause : SideFileError)
  | io (message : String)
  deriving DecidableEq, Repr

/-- The text of a failed run. -/
def RunError.toString : RunError → String
  | discovery root message => s!"failed to discover source files under {root}: {message}"
  | rootNotFound path => s!"project root not found: {path}"
  | invalidConfig file message => s!"invalid config in {file}: {message}"
  | exclude cause => s!"invalid exclude configuration: {cause}"
  | watcher message => s!"failed to start file watcher: {message}"
  | build cause => cause.toString
  | sideFile cause => cause.toString
  | io message => s!"IO error: {message}"

instance : ToString RunError := ⟨RunError.toString⟩

end ArtifactSync
