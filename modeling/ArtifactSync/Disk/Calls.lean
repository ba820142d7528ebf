import ArtifactSync.Disk.Resolve

/-!
# Calls on a disk

Reading, making directories, deleting and replacing files on a disk, and the file system these make
up. A written file is made beside its place and then moved there, so a link is replaced and not
followed, and the permission bits of the file that is replaced stay.
-/

namespace ArtifactSync.Disk

/-- Changes what stands under a name at the end of a trail. -/
def setAt (d : Disk) (trail : Trail) (name : Name) (node : Option Node) : Disk :=
  { d with top := Node.alter (fun _ => node) (Trail.names trail ++ [name]) d.top }

/-- Changes what stands under a name in the directory at the end of a trail, if that may be
changed. -/
def changeEntry (d : Disk) (trail : Trail) (name : Name) (node : Option Node) :
    Except Errno Disk :=
  if (d.here trail).mayWrite then .ok (d.setAt trail name node) else .error .access

/-- The bytes of a file. -/
def readBytes (d : Disk) (path : Path) : Except Errno (List UInt8) :=
  match d.stat path with
  | .error e => .error e
  | .ok node =>
    if !node.mayRead then .error .access
    else match node with
      | .file bytes _ => .ok bytes
      | _ => .error .isDirectory

/-- A path without separators at its end. -/
def bare (path : Path) : Path :=
  ⟨Text.dropEndWhile (· == '/') path.chars⟩

/-- Makes one directory. Separators at the end of the path do not matter, and a link that stands
there is not followed. -/
def makeDir (d : Disk) (path : Path) : Except Errno Disk :=
  if path.isRooted && (bare path).chars = [] then .error .exists
  else match d.resolve (bare path) false with
    | .error e => .error e
    | .ok (.node _ _) => .error .exists
    | .ok (.missing trail name) => d.changeEntry trail name (some (.dir [] 0o755))

/-- What is done about the answer to making a directory: that one is there already is as good. -/
def unlessThere (d : Disk) (path : Path) (answer : Except Errno Disk) : Except Errno Unit × Disk :=
  match answer with
  | .ok d => (.ok (), d)
  | .error e => if d.isDir path then (.ok (), d) else (.error e, d)

/-- Makes a directory and the ones it lies in, at most `depth` of them. -/
def makeDirsWithin : Nat → Disk → Path → Except Errno Unit × Disk
  | 0, d, _ => (.error .noEntry, d)
  | depth + 1, d, path =>
    if path.components = [] then (.ok (), d)
    else match d.makeDir path with
      | .error .noEntry =>
        match path.parent? with
        | none => (.error .noEntry, d)
        | some parent =>
          match makeDirsWithin depth d parent with
          | (.error e, d) => (.error e, d)
          | (.ok _, d) => d.unlessThere path (d.makeDir path)
      | answer => d.unlessThere path answer

/-- Makes a directory and the ones it lies in. -/
def makeDirs (d : Disk) (path : Path) : Except Errno Unit × Disk :=
  makeDirsWithin (path.chars.length + 1) d path

/-- Whether the last piece of a path is an ordinary name. -/
def endsInName (path : Path) : Bool :=
  (piecesOf path.chars).getLast?.any isName

/-- Deletes a file or a link. -/
def unlink (d : Disk) (path : Path) : Except Errno Disk :=
  let slash := endsInSlash path.chars
  if slash && (bare path).chars = [] then .error .isDirectory
  else match d.resolve (bare path) false with
    | .error e => .error e
    | .ok (.missing _ _) => .error .noEntry
    | .ok (.node trail node) =>
      if slash then .error (if node.isDir then .isDirectory else .notDirectory)
      else match trail with
        | (name, _) :: outer =>
          if node.isDir && (d.here outer).mayWrite then .error .isDirectory
          else d.changeEntry outer name none
        | [] => .error .isDirectory

/-- Whether there is a directory in front of the last piece of a path, and if not, why. -/
def checkFront (d : Disk) (path : Path) : Except Errno Unit :=
  let start := if path.isRooted then [] else d.trailTo d.cwd
  match d.follow true 40 start (piecesOf path.chars).dropLast with
  | .error e => .error e
  | .ok (.missing _ _) => .error .noEntry
  | .ok (.node _ node) => if node.isDir then .ok () else .error .notDirectory

/-- Moves a new file to a place; a file or a link that is there is replaced. The place must have a
name of its own without a NUL character, and no separator may stand behind it. -/
def place (d : Disk) (path : Path) (bytes : List UInt8) (mode : Nat) : Except Errno Disk :=
  match d.checkFront path with
  | .error e => .error e
  | .ok _ =>
  if holdsNul path.chars then .error .invalid
  else if !endsInName path then .error .busy
  else if endsInSlash path.chars then
    match d.resolve (bare path) false with
    | .error e => .error e
    | .ok _ => .error .notDirectory
  else match d.resolve path false with
    | .error e => .error e
    | .ok (.missing trail name) => d.changeEntry trail name (some (.file bytes mode))
    | .ok (.node _ (.dir _ _)) => .error .isDirectory
    | .ok (.node trail _) =>
      match trail with
      | (name, _) :: outer => d.changeEntry outer name (some (.file bytes mode))
      | [] => .error .isDirectory

/-- The bits that a new file may never have: others may not write to it. -/
def umask : Nat := 0o022

/-- The permission bits of a file that is to be written: those of what is there, or the usual
ones. -/
def modeFor (d : Disk) (path : Path) : Nat :=
  match d.stat path with
  | .ok node => (node.mode &&& 0o7777) - (node.mode &&& umask)
  | .error _ => 0o644

/-- The directory that a file is written in. -/
def directoryOf (path : Path) : Path :=
  match path.parent? with
  | some parent => if parent.chars = [] then ⟨['.']⟩ else parent
  | none => ⟨['.']⟩

/-- The answer of a call that may change a disk. -/
def answer {α : Type} (path : Path) (value : α) (d : Disk) (result : Except Errno Disk) :
    Except FsError α × Disk :=
  match result with
  | .ok d => (.ok value, d)
  | .error e => (.error (.ofIo path e.toIo), d)

/-- The text of a file. -/
def readText (d : Disk) (path : Path) : Except FsError String :=
  match d.readBytes path with
  | .error e => .error (.ofIo path e.toIo)
  | .ok bytes =>
    match Text.ofBytes? bytes with
    | some text => .ok text
    | none => .error (.notText path)

/-- Whether a new file can be made in a directory, and if not, why. -/
def checkRoom (d : Disk) (path : Path) : Except Errno Unit :=
  match d.stat path with
  | .error e => .error e
  | .ok node => if node.mayWrite && node.mayEnter then .ok () else .error .access

/-- Writes a file, in a directory that is made if it is not there. -/
def writeText (d : Disk) (path : Path) (text : String) : Except FsError Unit × Disk :=
  let parent := directoryOf path
  match d.makeDirs parent with
  | (.error e, d) => (.error (.ofIo parent e.toIo), d)
  | (.ok _, d) =>
    match d.checkRoom parent with
    | .error e => (.error (.ofIo parent e.toIo), d)
    | .ok _ => answer path () d (d.place path (Text.bytes text.toList) (d.modeFor path))

/-- The calls on a disk. -/
def fileSystem : FileSystem Disk where
  read path d := (d.readText path, d)
  write path text d := d.writeText path text
  remove path d := answer path () d (d.unlink path)
  createDirs path d :=
    match d.makeDirs path with
    | (.error e, d) => (.error (.ofIo path e.toIo), d)
    | (.ok _, d) => (.ok (), d)

end ArtifactSync.Disk
