import ArtifactSync.Proofs.Watch.InMemory
import ArtifactSync.Proofs.Watch.Tracking

/-!
# Scripts of a watched project

A `Scenario` is a project in memory and a script of what happens to it while a session watches it:
files of sources are created, modified and deleted, the session is told of each edit, and time
passes, also between an edit and the news of it. The scenario is `Valid` when the session begins with
all sources there are and only files that are there are modified or deleted.

It has converged (`Converged`) when in the end the files are what a batch build would leave: every
source has the output that a build writes for it, no output is left of a source that is gone, and
each side file is what one rewrite makes of the text it had before the session. `ToldApart` is what
that takes of the sources.
-/

namespace ArtifactSync

open Path Artifact

/-- An edit of a source, by its path as seen from the project root. -/
inductive SourceEdit where
  /-- A file appears, in place of any that was there. -/
  | create (path : Path) (text : String)
  | modify (path : Path) (text : String)
  | delete (path : Path)

namespace SourceEdit

/-- The path that is edited. -/
def path : SourceEdit → Path
  | create path _ => path
  | modify path _ => path
  | delete path => path

/-- The change that tells a session of an edit. -/
def change : SourceEdit → Change
  | create path _ => ⟨.add, path⟩
  | modify path _ => ⟨.change, path⟩
  | delete path => ⟨.unlink, path⟩

/-- What an edit makes of the files. -/
def apply (root : Path) (m : Memory) : SourceEdit → Memory
  | create path text => m.put (root.join path) text
  | modify path text => m.put (root.join path) text
  | delete path => m.delete (root.join path)

/-- Only a file that is there can be modified or deleted. -/
def Possible (root : Path) (m : Memory) : SourceEdit → Prop
  | create _ _ => True
  | modify path _ => (m.lookup? (root.join path)).isSome = true
  | delete path => (m.lookup? (root.join path)).isSome = true

end SourceEdit

/-- One step of a script. -/
inductive ScriptStep where
  | tick (now : Nat)
  /-- A source is edited, time passes, and the session is told of the edit. -/
  | edit (edit : SourceEdit) (ticks : List Nat) (now : Nat)

/-- The path that a step edits. -/
def ScriptStep.paths : ScriptStep → List Path
  | tick _ => []
  | edit e _ _ => [e.path]

namespace Run

variable (x : Executor Memory)

/-- What an edit makes of a run: the session does not know of it yet. -/
def edited (r : Run Memory) (e : SourceEdit) : Run Memory :=
  { r with world := e.apply x.root r.world }

/-- Time passes. -/
def ticks (r : Run Memory) (instants : List Nat) : Run Memory :=
  instants.foldl (fun r now => r.tick x now) r

/-- What a step of a script makes of a run. -/
def step (r : Run Memory) : ScriptStep → Run Memory
  | .tick now => r.tick x now
  | .edit e instants now => (((r.edited x e).ticks x instants).handle x e.change now).2

/-- What a script makes of a run. -/
def follow (r : Run Memory) (script : List ScriptStep) : Run Memory :=
  script.foldl (step x) r

/-- Whether every edit of a script is possible when its turn comes. -/
def CanFollow : Run Memory → List ScriptStep → Prop
  | _, [] => True
  | r, .tick now :: script => CanFollow (r.step x (.tick now)) script
  | r, .edit e instants now :: script =>
    e.Possible x.root r.world ∧ CanFollow (r.step x (.edit e instants now)) script

end Run

/-- A project in memory, the sources that a session starts with, and what happens then. -/
structure Scenario where
  root : Path
  mode : Mode
  quiet : Nat
  memory : Memory
  sources : List Path
  now : Nat
  script : List ScriptStep

namespace Scenario

variable (w : Scenario) (compile : String → Path → String)

/-- What the session builds with. -/
def executor : Executor Memory :=
  .inMemory w.root w.mode.kind compile

/-- The session over the project before it starts. -/
def idle : Run Memory :=
  .fresh (.new w.root w.mode.git w.mode.vscode w.quiet) w.memory

/-- The session when it has started. -/
def started : Run Memory :=
  w.idle.start (w.executor compile) w.sources w.now

/-- The session after some steps. -/
def after (script : List ScriptStep) : Run Memory :=
  (w.started compile).follow (w.executor compile) script

/-- The session when it is closed behind the whole script. -/
def closed : Run Memory :=
  (w.after compile w.script).close (w.executor compile)

/-- The files of the project as they were before the session, with the side files rewritten once as
a batch build does it. -/
def rewrittenFor (outputs : PathSet) : Memory :=
  (((SideFiles.new w.root w.mode.git w.mode.vscode 0).request outputs 0).flush Memory.fileSystem
    w.memory).2.2

/-- The paths that the session is started with or told of. -/
def paths : List Path :=
  w.sources ++ w.script.flatMap ScriptStep.paths

end Scenario

/-- A path of a class that is a source of ordinary names. -/
structure SourceIn (named : Path → Prop) (p : Path) : Prop where
  named : named p
  plain : p.IsPlain
  source : isSource p = true

/-- A script over a project without faults, whose paths are sources of a class: the session is started
with all sources that there are, and no edit is impossible. -/
structure Scenario.Valid (w : Scenario) (compile : String → Path → String)
    (named : Path → Prop) : Prop where
  faultless : w.memory.faults = []
  sourceIn : ∀ p ∈ w.paths, SourceIn named p
  complete : ∀ p, p.IsPlain → isSource p = true →
    ((w.memory.lookup? (w.root.join p)).isSome = true ↔ ∃ s ∈ w.sources, s.same p = true)
  possible : (w.started compile).CanFollow (w.executor compile) w.script

/-- The files that a script leaves are those that a batch build would leave. -/
structure Scenario.Converged (w : Scenario) (compile : String → Path → String) : Prop where
  /-- The sources that are tracked in the end are those that are there. -/
  tracked : ∀ p, p.IsPlain → isSource p = true →
    ((w.closed compile).session.sources.contains p = true ↔
      ((w.closed compile).world.lookup? (w.root.join p)).isSome = true)
  /-- Each of them has the output that a build writes for it. -/
  built : ∀ s ∈ (w.closed compile).session.sources.paths, ∃ m,
    (w.executor compile).build s (w.closed compile).world = (.ok (output s w.mode.kind), m) ∧
      (w.closed compile).world.lookup? (w.root.join (output s w.mode.kind)) =
        m.lookup? (w.root.join (output s w.mode.kind))
  /-- No output is left of a source that was tracked at some time and is not any more. -/
  cleared : ∀ before, before <+: w.script →
    ∀ s ∈ (w.after compile before).session.sources.paths,
      (w.closed compile).session.sources.contains s = false →
        (w.closed compile).world.lookup? (w.root.join (output s w.mode.kind)) = none
  /-- Each side file is what one rewrite for the final outputs makes of it. -/
  rewritten : ∀ k : SideFileKind, (w.closed compile).world.lookup? (k.pathIn w.root) =
    (w.rewrittenFor (w.closed compile).session.outputs).lookup? (k.pathIn w.root)

/-- Sources of a class are told apart by what is made of them: spellings of one source have one
output and are compiled alike, different sources are listed differently, and none is listed as the
marker. -/
structure ToldApart (kind : OutputKind) (compile : String → Path → String)
    (named : Path → Prop) : Prop where
  alike : SpelledAlike named
  compiled : ∀ p q text, named p → named q → p.same q = true → compile text p = compile text q
  shown : ∀ p q, named p → named q → (output p kind).toSlash = (output q kind).toSlash →
    p.same q = true
  unmarked : ∀ p, named p → (output p kind).toSlash ≠ EditorExclude.marker

end ArtifactSync
