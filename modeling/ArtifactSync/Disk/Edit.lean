import ArtifactSync.Disk.Calls

/-!
# Editing a disk

What tools and users do to a disk with one command: put bytes into a file in place, delete a whole
directory, move things, set permission bits. `Edit` is such a command as data, and `listing` shows
everything below a directory.
-/

namespace ArtifactSync

namespace Disk

/-- Puts bytes in place of what a file holds, or makes the file. Links are followed. A separator at
the end would name a directory. -/
def putBytes (d : Disk) (path : Path) (bytes : List UInt8) : Except Errno Disk :=
  match d.resolve path true with
  | .error e => .error e
  | .ok (.missing trail name) =>
    if endsInSlash path.chars then .error .isDirectory
    else d.changeEntry trail name (some (.file bytes 0o644))
  | .ok (.node _ (.dir _ _)) => .error .isDirectory
  | .ok (.node trail node) =>
    match trail with
    | (name, _) :: outer =>
      if node.mayWrite then .ok (d.setAt outer name (some (.file bytes node.mode)))
      else .error .access
    | [] => .error .isDirectory

/-- Takes away an empty directory. -/
def removeDir (d : Disk) (path : Path) : Except Errno Disk :=
  match d.resolve (bare path) false with
  | .error e => .error e
  | .ok (.missing _ _) => .error .noEntry
  | .ok (.node [] _) => .error .busy
  | .ok (.node ((name, _) :: outer) node) =>
    if !node.isDir then .error .notDirectory
    else if !node.entries.isEmpty then .error .notEmpty
    else d.changeEntry outer name none

/-- Takes away what stands at a path, a link itself and a directory with all that is in it. -/
def removeAll (d : Disk) (path : Path) : Except Errno Disk :=
  match d.resolve (bare path) false with
  | .error e => .error e
  | .ok (.missing _ _) => .error .noEntry
  | .ok (.node trail _) =>
    match trail with
    | (name, _) :: outer => d.changeEntry outer name none
    | [] => .error .busy

/-- Sets the permission bits of what a path leads to. -/
def setMode (d : Disk) (path : Path) (mode : Nat) : Except Errno Disk :=
  match d.resolve path true with
  | .error e => .error e
  | .ok (.missing _ _) => .error .noEntry
  | .ok (.node trail node) =>
    match trail with
    | (name, _) :: outer => .ok (d.setAt outer name (some (node.setMode mode)))
    | [] => .ok { d with top := node.setMode mode }

/-- Makes a symbolic link where nothing stands. -/
def makeLink (d : Disk) (path : Path) (target : List Char) : Except Errno Disk :=
  match d.resolve path false with
  | .error e => .error e
  | .ok (.node _ _) => .error .exists
  | .ok (.missing trail name) => d.changeEntry trail name (some (.link target))

/-- Whether a node may take the place of another: a directory that of an empty directory, anything
else that of anything but a directory. -/
def mayReplace (new old : Node) : Except Errno Unit :=
  if new.isDir && !old.isDir then .error .notDirectory
  else if !new.isDir && old.isDir then .error .isDirectory
  else if old.isDir && !old.entries.isEmpty then .error .notEmpty
  else .ok ()

/-- Moves what stands at a path to another path. A directory is not moved into itself. -/
def rename (d : Disk) (source target : Path) : Except Errno Disk :=
  match d.resolve (bare source) false with
  | .error e => .error e
  | .ok (.missing _ _) => .error .noEntry
  | .ok (.node [] _) => .error .busy
  | .ok (.node ((name, _) :: outer) node) =>
    let moved := fun (trail : Trail) (newName : Name) =>
      let new := Trail.names trail ++ [newName]
      let old := Trail.names outer ++ [name]
      if new = old then .ok d
      else if old.isPrefixOf new then .error .invalid
      else (d.changeEntry outer name none).bind fun d =>
        d.changeEntry trail newName (some node)
    match d.resolve (bare target) false with
    | .error e => .error e
    | .ok (.missing trail newName) => moved trail newName
    | .ok (.node [] _) => .error .busy
    | .ok (.node ((newName, _) :: trail) there) =>
      match mayReplace node there with
      | .error e => .error e
      | .ok _ => moved trail newName

/-- What is done at a path. -/
inductive Change where
  | delete
  | rename (target : Path)
  | makeDirs
  | link (target : List Char)
  | write (bytes : List UInt8)
  deriving DecidableEq, Repr

/-- One edit of a disk: where, what, and the permission bits that are set afterwards. -/
structure Edit where
  path : Path
  change : Change
  mode : Option Nat
  deriving DecidableEq, Repr

/-- Makes a directory and the ones it lies in, or says why that cannot be. -/
def withDirs (d : Disk) (path : Path) : Except Errno Disk :=
  match d.makeDirs path with
  | (.error e, _) => .error e
  | (.ok _, d) => .ok d

/-- Carries out the change of an edit, in directories that are made if they are not there. What is
not there need not be deleted. -/
def change (d : Disk) (e : Edit) : Except Errno Disk :=
  match e.change with
  | .delete => .ok ((d.removeAll e.path).toOption.getD d)
  | .rename target =>
    (d.withDirs (directoryOf e.path)).bind fun d =>
      (d.withDirs (directoryOf target)).bind fun d => d.rename e.path target
  | .makeDirs => d.withDirs e.path
  | .link target => (d.withDirs (directoryOf e.path)).bind fun d => d.makeLink e.path target
  | .write bytes => (d.withDirs (directoryOf e.path)).bind fun d => d.putBytes e.path bytes

/-- Carries out an edit, or says why the disk refuses it. -/
def apply (d : Disk) (e : Edit) : Except Errno Disk :=
  (d.change e).bind fun d =>
    match e.mode with
    | none => .ok d
    | some mode => d.setMode e.path mode

mutual

/-- Whether a node and everything below it can be read. -/
def isOpenTo : Node → Bool
  | .file _ mode => (Node.file [] mode).mayRead
  | .link _ => true
  | .dir entries mode =>
    let node := Node.dir [] mode
    node.mayRead && (entries.isEmpty || node.mayEnter) && areOpenTo entries

/-- Whether the entries of a directory and everything below them can be read. -/
def areOpenTo : List (Name × Node) → Bool
  | [] => true
  | (_, node) :: rest => isOpenTo node && areOpenTo rest

end

mutual

/-- A node and everything below it, each with its path. -/
def nodesFrom (path : List Char) : Node → List (List Char × Node)
  | .file bytes mode => [(path, .file bytes mode)]
  | .link target => [(path, .link target)]
  | .dir entries mode => (path, .dir entries mode) :: nodesBelow (path ++ ['/']) entries

/-- The entries of a directory and everything below them; `front` is put before their names. -/
def nodesBelow (front : List Char) : List (Name × Node) → List (List Char × Node)
  | [] => []
  | (name, node) :: rest => nodesFrom (front ++ name) node ++ nodesBelow front rest

end

/-- Whether a path comes no later than another one when their characters are compared. -/
def comesBefore (a b : List Char × Node) : Bool :=
  !decide (Node.nameKey b.1 < Node.nameKey a.1)

/-- Whether everything below a directory can be read. -/
def isReadable (d : Disk) (path : Path) : Bool :=
  match d.stat path with
  | .ok node => isOpenTo node
  | .error _ => true

/-- Everything below a directory, in the order of the paths as seen from it. -/
def listing (d : Disk) (path : Path) : List (List Char × Node) :=
  match d.stat path with
  | .ok node => (nodesBelow [] node.entries).mergeSort comesBefore
  | .error _ => []

/-- A disk on which there is nothing but an empty directory, which is the working directory. -/
def atDirectory (path : Path) : Disk :=
  let names := piecesOf path.chars
  ⟨Node.nest (.dir [] 0o755) names, names⟩

/-- The disk with another working directory, if that is a directory. -/
def enter (d : Disk) (path : Path) : Except Errno Disk :=
  match d.resolve path true with
  | .error e => .error e
  | .ok (.missing _ _) => .error .noEntry
  | .ok (.node trail node) =>
    if !node.isDir then .error .notDirectory
    else if !node.mayEnter then .error .access
    else .ok { d with cwd := Trail.names trail }

end Disk

end ArtifactSync
