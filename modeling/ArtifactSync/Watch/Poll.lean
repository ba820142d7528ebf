import ArtifactSync.Disk.Edit
import ArtifactSync.Watch.Loop
import ArtifactSync.Watch.Normalize

/-!
# Watching by looking again

Where nothing reports changes, a watch looks at the disk from time to time. What differs between two
looks is told as watcher events, and these go the way that all watcher events go.
-/

namespace ArtifactSync

namespace Disk

/-- Whether two nodes are the same, apart from what is in them if they are directories. -/
def sameNode : Node → Node → Bool
  | .file bytes _, .file others _ => bytes = others
  | .dir _ _, .dir _ _ => true
  | .link target, .link other => target = other
  | _, _ => false

/-- The node that a listing has for a path. -/
def listed? (listing : List (List Char × Node)) (path : List Char) : Option Node :=
  (listing.find? fun e => e.1 = path).map Prod.snd

/-- What happened to the entries of a directory between two looks, as watcher events: first what was
removed, then what came and what was modified, each in the order of the paths. -/
def changesBetween (before after : Disk) (root : Path) : List WatcherEvent :=
  let old := before.listing root
  let new := after.listing root
  let event := fun (kind : WatcherKind) (path : List Char) =>
    WatcherEvent.mk kind [root.join ⟨path⟩]
  let removed := old.filterMap fun (path, _) =>
    if (listed? new path).isNone then some (event .remove path) else none
  let others := new.filterMap fun (path, node) =>
    match listed? old path with
    | none => some (event .create path)
    | some was => if sameNode was node then none else some (event .modify path)
  removed ++ others

end Disk

namespace Watch

/-- Applies changes one after another. -/
def applyChanges (x : Executor Disk) (now : Nat) (r : Run Disk) (changes : List Change) :
    Run Disk :=
  changes.foldl (fun r change => (r.handle x change now).2) r

/-- Looks at the disk again: applies what has changed, and lets the side files come due. -/
def look (w : Started Disk) (now : Nat) (seen : Disk) : Except RootedPath (Started Disk) :=
  let root := w.executor.root
  let events := Disk.changesBetween w.run.world seen root
  match events.mapM fun e => e.normalize seen root w.excludes with
  | .error e => .error e
  | .ok changes =>
    let fresh : Run Disk := { w.run with world := seen, events := [] }
    let changed := applyChanges w.executor now fresh changes.flatten
    .ok { w with run := changed.tick w.executor now }

end Watch

end ArtifactSync
