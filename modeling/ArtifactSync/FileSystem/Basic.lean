import ArtifactSync.Path.Basic

/-!
# File systems

What the builder and the side files need of a file system: four calls on a world of type `σ`, each
of which gives an answer and the world after it. A reading may change the world too, so that a world
can count calls or decide which of them fail. `logged` is the same file system with a record of the
calls it answered.
-/

namespace ArtifactSync

/-- The kinds of input and output errors that are told apart. -/
inductive IoKind where
  | notFound
  | permissionDenied
  | invalidData
  | other
  deriving DecidableEq, Repr

/-- An error of the operating system, with its text. -/
structure IoError where
  kind : IoKind
  text : String
  deriving DecidableEq, Repr

/-- Why a call on a file system failed. -/
inductive FsError where
  | notFound (path : Path)
  | permissionDenied (path : Path)
  /-- The file is there but its bytes are not UTF-8. -/
  | notText (path : Path)
  | io (text : String)
  | other (message : String)
  deriving DecidableEq, Repr

namespace FsError

/-- An error of the operating system, with the path it is about where its kind calls for one. -/
def ofIo (path : Path) (e : IoError) : FsError :=
  match e.kind with
  | .notFound => .notFound path
  | .permissionDenied => .permissionDenied path
  | .invalidData => .notText path
  | .other => .io e.text

/-- Whether the error only says that the file is not there. -/
def isNotFound : FsError → Bool
  | .notFound _ => true
  | _ => false

/-- The text of an error. -/
def toString : FsError → String
  | .notFound path => s!"File not found: {path}"
  | .permissionDenied path => s!"Permission denied: {path}"
  | .notText path => s!"Not a UTF-8 text file: {path}"
  | .io text => s!"I/O error: {text}"
  | .other message => message

instance : ToString FsError := ⟨toString⟩

end FsError

/-- The calls on a file system whose worlds have type `σ`. -/
structure FileSystem (σ : Type) where
  /-- The text of a file. -/
  read : Path → σ → Except FsError String × σ
  /-- Puts a text in place of whatever a file held. -/
  write : Path → String → σ → Except FsError Unit × σ
  /-- Deletes a file. -/
  remove : Path → σ → Except FsError Unit × σ
  /-- Makes a directory and the ones it lies in. -/
  createDirs : Path → σ → Except FsError Unit × σ

/-- One call. -/
inductive Call where
  | read (path : Path)
  | write (path : Path) (text : String)
  | remove (path : Path)
  | createDirs (path : Path)
  deriving DecidableEq, Repr

/-- One call and whether it succeeded. -/
structure LoggedCall where
  call : Call
  succeeded : Bool
  deriving DecidableEq, Repr

/-- A world with a record of the calls made in it, in order. -/
structure Logged (σ : Type) where
  world : σ
  calls : List LoggedCall

/-- Whether an answer is no error. -/
def succeeded {ε α : Type} : Except ε α → Bool
  | .ok _ => true
  | .error _ => false

/-- Runs a call inside a logged world and records it. -/
def Logged.record {σ ε α : Type} (call : Call) (run : σ → Except ε α × σ) (s : Logged σ) :
    Except ε α × Logged σ :=
  let (answer, world) := run s.world
  (answer, ⟨world, s.calls ++ [⟨call, succeeded answer⟩]⟩)

/-- The same file system with a record of its calls. -/
def FileSystem.logged {σ : Type} (files : FileSystem σ) : FileSystem (Logged σ) where
  read path := Logged.record (.read path) (files.read path)
  write path text := Logged.record (.write path text) (files.write path text)
  remove path := Logged.record (.remove path) (files.remove path)
  createDirs path := Logged.record (.createDirs path) (files.createDirs path)

end ArtifactSync
