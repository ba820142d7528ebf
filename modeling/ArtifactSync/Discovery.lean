import ArtifactSync.Artifact
import ArtifactSync.Disk.Resolve
import ArtifactSync.Excludes

/-!
# Discovery

Finds the sources of a project: every regular file below the root that carries the source extension
and is not excluded. Directories are walked in the order of their names, excluded ones not at all,
and symbolic links below the start are neither followed nor listed.
-/

namespace ArtifactSync

/-- Why no sources can be listed. -/
inductive DiscoveryError where
  | rootNotFound (path : Path)
  /-- The walk could not go on. -/
  | walk (root : Path) (message : String)
  /-- The exclude matcher was handed a rooted path. -/
  | rooted (cause : RootedPath)
  deriving DecidableEq, Repr

namespace Discovery

variable {ε : Type}

mutual

/-- The files at a path, in order. The test says which paths to leave out, and is not asked about
the path where the walk begins. A directory that cannot be listed ends the walk, and so does one in
a directory in which names may not be looked for. -/
def filesIn (leaveOut : Path → Bool → Except ε Bool) (shut : Path → ε) (isReachable : Bool)
    (path : Path) : Node → Except ε (List Path)
  | .file _ _ => .ok [path]
  | .dir entries mode =>
    let node := Node.dir [] mode
    if isReachable && node.mayRead then filesInAll leaveOut shut node.mayEnter path entries
    else .error (shut path)
  | .link _ => .ok []

/-- The files among the entries of the directory at a path, in order. -/
def filesInAll (leaveOut : Path → Bool → Except ε Bool) (shut : Path → ε) (isReachable : Bool)
    (path : Path) : List (Name × Node) → Except ε (List Path)
  | [] => .ok []
  | (name, node) :: rest =>
    let child := path.join ⟨name⟩
    match leaveOut child node.isDir with
    | .error e => .error e
    | .ok true => filesInAll leaveOut shut isReachable path rest
    | .ok false =>
      match filesIn leaveOut shut isReachable child node with
      | .error e => .error e
      | .ok found =>
        match filesInAll leaveOut shut isReachable path rest with
        | .error e => .error e
        | .ok more => .ok (found ++ more)

end

/-- Whether the walk leaves out a path: what is not below the root, and the root itself, stays. -/
def leavesOut (root : Path) (excludes : Excludes) (path : Path) (isDir : Bool) :
    Except DiscoveryError Bool :=
  match path.stripPrefix? root with
  | none => .ok false
  | some relative =>
    if relative.chars = [] then .ok false
    else match excludes.isExcluded relative isDir with
      | .ok excluded => .ok excluded
      | .error e => .error (.rooted e)

/-- The error of a path that the walk cannot go into. -/
def refusal (root path : Path) (e : Errno) : DiscoveryError :=
  .walk root s!"{path}: IO error for operation on {path}: {e}"

/-- The sources that a walk from `start` finds, as seen from the root. -/
def walkFrom (d : Disk) (root start : Path) (excludes : Excludes) :
    Except DiscoveryError (List Path) :=
  match d.stat start with
  | .error e => .error (refusal root start e)
  | .ok node =>
    let shut := fun path => refusal root path .access
    (filesIn (leavesOut root excludes) shut true start node).map fun files =>
      (files.filter Artifact.isSource).filterMap (·.stripPrefix? root)

/-- The sources of the project at `root`. -/
def sources (d : Disk) (root : Path) (excludes : Excludes) : Except DiscoveryError (List Path) :=
  if d.isDir root then walkFrom d root root excludes else .error (.rootNotFound root)

/-- The sources of the project at `root` that lie in a directory of it, or nothing if the directory
does not lie in the project. -/
def sourcesUnder (d : Disk) (root dir : Path) (excludes : Excludes) :
    Except DiscoveryError (List Path) :=
  if dir.startsWith root then walkFrom d root dir excludes else .ok []

end Discovery

end ArtifactSync
