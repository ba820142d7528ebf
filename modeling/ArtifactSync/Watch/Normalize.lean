import ArtifactSync.Discovery
import ArtifactSync.Watch.Event

/-!
# Watcher events

A watcher reports renames and saves in many ways. Here each of its events becomes a row of
additions, changes and removals of paths seen from the root. A directory that appears becomes one
addition for each source in it, since nothing is reported about the files of a directory that is
moved in.
-/

namespace ArtifactSync

/-- What a watcher says about paths. -/
inductive WatcherKind where
  /-- The paths were created. -/
  | create
  /-- Their content, or something not known, was modified. -/
  | modify
  /-- Their permissions, times or owners were modified. -/
  | metadata
  /-- They are old names. -/
  | renameFrom
  /-- They are new names. -/
  | renameTo
  /-- The first is an old name, and the others are new ones. -/
  | renameBoth
  /-- They are old names or new ones. -/
  | renameUnclear
  /-- They were removed. -/
  | remove
  /-- They were opened, read or closed. -/
  | access
  /-- Anything may have happened to them. -/
  | any
  /-- Something else happened. -/
  | other
  deriving DecidableEq, Repr

/-- A watcher's event. -/
structure WatcherEvent where
  kind : WatcherKind
  paths : List Path
  deriving DecidableEq, Repr

namespace WatcherEvent

/-- Whether a path that may be an old or a new name is there now. -/
def byExistence (d : Disk) (path : Path) : ChangeKind :=
  if d.exists path then .add else .unlink

/-- What an event says about each of its paths. -/
def tagged (d : Disk) (e : WatcherEvent) : List (ChangeKind × Path) :=
  match e.kind with
  | .create => e.paths.map fun p => (.add, p)
  | .modify => e.paths.map fun p => (.change, p)
  | .renameFrom => e.paths.map fun p => (.unlink, p)
  | .renameTo => e.paths.map fun p => (.add, p)
  | .renameBoth =>
    match e.paths with
    | [] => []
    | old :: new => (.unlink, old) :: new.map fun p => (.add, p)
  | .renameUnclear => e.paths.map fun p => (byExistence d p, p)
  | .any => e.paths.map fun p => (byExistence d p, p)
  | .remove => e.paths.map fun p => (.unlink, p)
  | .metadata => []
  | .access => []
  | .other => []

/-- The changes that a path stands for. Paths outside the root, the root itself and excluded paths
stand for none, and neither does a directory that cannot be walked. -/
def changesOf (d : Disk) (root : Path) (excludes : Excludes) (kind : ChangeKind) (path : Path) :
    Except RootedPath (List Change) :=
  match root.relativeTo? path with
  | none => .ok []
  | some relative =>
    if relative.chars = [] then .ok []
    else
      let isDir := kind = .add && d.isDir path
      match excludes.isExcluded relative isDir with
      | .error e => .error e
      | .ok true => .ok []
      | .ok false =>
        if !isDir then .ok [⟨kind, relative⟩]
        else match Discovery.sourcesUnder d root path excludes with
          | .ok found => .ok (found.map fun source => ⟨.add, source⟩)
          | .error (.rooted e) => .error e
          | .error _ => .ok []

/-- The changes that tagged paths stand for, in order. -/
def changesOfAll (d : Disk) (root : Path) (excludes : Excludes) :
    List (ChangeKind × Path) → Except RootedPath (List Change)
  | [] => .ok []
  | (kind, path) :: rest =>
    match changesOf d root excludes kind path with
    | .error e => .error e
    | .ok changes =>
      match changesOfAll d root excludes rest with
      | .error e => .error e
      | .ok more => .ok (changes ++ more)

/-- The changes that an event stands for, in order. -/
def normalize (d : Disk) (root : Path) (excludes : Excludes) (e : WatcherEvent) :
    Except RootedPath (List Change) :=
  changesOfAll d root excludes (e.tagged d)

end WatcherEvent

end ArtifactSync
