import ArtifactSync.FileSystem.Basic

/-!
# Files in memory

A file system without directories: texts under paths, in the order of paths, and a table of faults
that make a call on a path fail before it looks at anything. Paths are compared by components; a
file keeps the spelling it was first put under.
-/

namespace ArtifactSync

/-- The calls that a fault can hit. -/
inductive CallKind where
  | read
  | write
  | remove
  | createDirs
  deriving DecidableEq, Repr

/-- How a call is made to fail. -/
inductive Fault where
  | notFound
  | denied
  | notText
  /-- An error of the operating system whose text is `boom`. -/
  | io
  /-- Any other error, with its message. -/
  | other (message : String)
  deriving DecidableEq, Repr

/-- The error of a fault at a path. -/
def Fault.error (path : Path) : Fault → FsError
  | notFound => .notFound path
  | denied => .permissionDenied path
  | notText => .notText path
  | io => .io "boom"
  | other message => .other message

/-- Texts under paths, and the faults of calls on paths. -/
structure Memory where
  files : List (Path × String)
  faults : List ((CallKind × Path) × Fault)

namespace Memory

/-- No files and no faults. -/
def empty : Memory := ⟨[], []⟩

/-- The text of a file. -/
def lookup? (m : Memory) (path : Path) : Option String :=
  (m.files.find? fun f => f.1.same path).map Prod.snd

/-- Puts a text at its place in a table that is in the order of paths. -/
def putInto (path : Path) (text : String) : List (Path × String) → List (Path × String)
  | [] => [(path, text)]
  | f :: fs =>
    if f.1.same path then (f.1, text) :: fs
    else if path.key < f.1.key then (path, text) :: f :: fs
    else f :: putInto path text fs

/-- Puts a text under a path. -/
def put (m : Memory) (path : Path) (text : String) : Memory :=
  ⟨putInto path text m.files, m.faults⟩

/-- Takes a file away, if it is there. -/
def delete (m : Memory) (path : Path) : Memory :=
  ⟨m.files.filter fun f => !f.1.same path, m.faults⟩

/-- Whether a fault is the one for a call on a path. -/
def isFaultOf (kind : CallKind) (path : Path) (f : (CallKind × Path) × Fault) : Bool :=
  f.1.1 = kind && f.1.2.same path

/-- Makes a call on a path fail from now on, or work again. -/
def setFault (m : Memory) (kind : CallKind) (path : Path) (fault : Option Fault) : Memory :=
  let others := m.faults.filter fun f => !isFaultOf kind path f
  ⟨m.files, match fault with
    | none => others
    | some fault => ((kind, path), fault) :: others⟩

/-- Runs a call unless a fault hits it. -/
def unlessFault {α : Type} (kind : CallKind) (path : Path)
    (run : Memory → Except FsError α × Memory)
    (m : Memory) : Except FsError α × Memory :=
  match m.faults.find? (isFaultOf kind path) with
  | some f => (.error (f.2.error path), m)
  | none => run m

/-- The calls on files in memory. -/
def fileSystem : FileSystem Memory where
  read path := unlessFault .read path fun m =>
    match m.lookup? path with
    | some text => (.ok text, m)
    | none => (.error (.notFound path), m)
  write path text := unlessFault .write path fun m => (.ok (), m.put path text)
  remove path := unlessFault .remove path fun m =>
    match m.lookup? path with
    | some _ => (.ok (), m.delete path)
    | none => (.error (.notFound path), m)
  createDirs path := unlessFault .createDirs path fun m => (.ok (), m)

end Memory

end ArtifactSync
