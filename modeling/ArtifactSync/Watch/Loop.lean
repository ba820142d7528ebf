import ArtifactSync.Build.Batch
import ArtifactSync.Watch.Session

/-!
# Watching a project

A watch goes over the project once, as a batch build does, and then lets its side files come due
until it is told to stop. The root is put in its form without links first, since that is how a
watcher names paths.
-/

namespace ArtifactSync.Watch

variable {σ : Type}

/-- A watch that is under way: what it works with, and its run so far. -/
structure Started (σ : Type) where
  executor : Executor σ
  excludes : Excludes
  run : Run σ

/-- Begins to watch a project: finds its sources and builds them. -/
def start (settings : Settings) (quiet : Nat) (files : FileSystem σ) (compiler : Compiler σ)
    (view : σ → Disk) (now : Nat) (s : σ) : Except StartError (Started σ) :=
  match (view s).canonicalize settings.root with
  | .error _ => .error (.run (.rootNotFound settings.root))
  | .ok root =>
    match Batch.survey { settings with root := root } (view s) with
    | .error e => .error e
    | .ok (excludes, sources) =>
      let executor := ⟨root, settings.mode.kind, files, compiler⟩
      let sideFiles := SideFiles.new root settings.mode.git settings.mode.vscode quiet
      let run := ⟨.new sideFiles, s, [.watchStarted root.toString sources.length]⟩
      .ok ⟨executor, excludes, Run.start run executor sources now⟩

/-- Ends a watch that gets no watcher events. As long as fewer than `stopAfter` events have been
reported it waits for what is pending to come due, and then it closes. A `stopAfter` of zero stops
it from the start. -/
def finish (w : Started σ) (stopAfter : Nat) : Run σ :=
  let waited :=
    if w.run.events.length < stopAfter then
      match w.run.session.sideFiles.nextDeadline with
      | some due => w.run.tick w.executor due
      | none => w.run
    else w.run
  waited.close w.executor

end ArtifactSync.Watch
