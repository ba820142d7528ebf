import ArtifactSync.CommandLine.Help
import ArtifactSync.Compiler.Command
import ArtifactSync.Config.Load
import ArtifactSync.Terminal.Render
import ArtifactSync.Watch.Loop

/-!
# Running a command line

From the words of a command line to what is printed, the exit code, and the disk as it is then. A
build is run to its end. A watch is only begun: it goes on for as long as someone lets it, so `run`
answers with the watch that is under way.
-/

namespace ArtifactSync.CommandLine

/-- What the program is started with. -/
structure Surroundings where
  env : Environment
  /-- Whether the output is shown on a terminal. -/
  isTerminal : Bool
  /-- The time of day, as the events of a watch show it. -/
  time : String
  disk : Disk

/-- What has been printed. -/
structure Printed where
  out : String
  err : String
  deriving DecidableEq, Repr

namespace Printed

/-- Nothing has been printed. -/
def none : Printed := ⟨"", ""⟩

/-- Prints more: complaints go to the second stream. -/
def add (p : Printed) (isComplaint : Bool) (text : String) : Printed :=
  if isComplaint then { p with err := p.err ++ text } else { p with out := p.out ++ text }

end Printed

/-- How events are printed. -/
structure Printer where
  view : Terminal.View
  style : Terminal.Style
  deriving DecidableEq, Repr

namespace Printer

/-- The printer that a command line asks for. -/
def of (a : Arguments) (s : Surroundings) : Printer :=
  let view := Terminal.View.of a.json a.verbosity a.color (Terminal.detect s.env s.isTerminal)
  ⟨view, view.style s.env⟩

/-- Whether an event of a build is a complaint. -/
def isBuildComplaint : BuildEvent → Bool
  | .fileFailed _ _ _ => true
  | .warning _ => true
  | _ => false

/-- Whether an event of a watch is a complaint. -/
def isWatchComplaint : WatchEvent → Bool
  | .fileFailed _ _ _ => true
  | .warning _ => true
  | .error _ => true
  | _ => false

/-- Prints an event of a build. -/
def buildEvent (w : Printer) (p : Printed) (e : BuildEvent) : Printed :=
  if w.view.json then p.add false (e.toJson ++ "\n")
  else match Terminal.buildLine? w.style w.view.verbosity e with
    | some line => p.add (isBuildComplaint e) line
    | none => p

/-- Prints an event of a watch that came at a time of day. -/
def watchEvent (w : Printer) (time : String) (p : Printed) (e : WatchEvent) : Printed :=
  if w.view.json then p.add false (e.toJson ++ "\n")
  else match Terminal.watchLine? w.style time w.view.verbosity e with
    | some line => p.add (isWatchComplaint e) line
    | none => p

/-- Prints the header of a run, which JSON has none of. -/
def header (w : Printer) (h : Terminal.Header) : Printed :=
  if w.view.json then .none else Printed.none.add false (h.render w.style)

/-- The line for a failed run as JSON. -/
def errorJson (e : RunError) : String :=
  Json.renderObject [("event", .text "error"), ("message", .text e.toString)]

/-- Prints the failure of a run. Its colours are those of a run without options. -/
def failure (w : Printer) (s : Surroundings) (p : Printed) (e : RunError) : Printed :=
  if w.view.json then p.add false (errorJson e ++ "\n")
  else
    let caps := Terminal.detect s.env s.isTerminal
    let style := ({ w.view with color := caps.color, unicode := caps.unicode }).style s.env
    p.add true (Terminal.runErrorLines style e)

end Printer

/-- A watch that has begun. -/
structure Watching where
  printer : Printer
  started : Watch.Started Disk

/-- What becomes of a command line. -/
inductive Result where
  /-- The program has ended with an exit code. -/
  | ended (code : Nat) (printed : Printed) (disk : Disk)
  /-- The program watches a project. -/
  | watching (printed : Printed) (watch : Watching)

/-- The exit code of a failed run. -/
def failureCode : Nat := 1

/-- The exit code after an assertion that did not hold. -/
def crashCode : Nat := 101

/-- The end of a run that could not begin. -/
def refuse (w : Printer) (s : Surroundings) (p : Printed) : StartError → Result
  | .run e => .ended failureCode (w.failure s p e) s.disk
  | .rooted _ => .ended crashCode p s.disk

/-- The project root that a command line means; a relative one starts at the working directory. -/
def rootOf (a : Arguments) (d : Disk) : Path :=
  match a.root with
  | none => d.cwdPath
  | some root => d.cwdPath.join (Path.ofString root)

/-- The project at a root with its settings. -/
structure Project where
  settings : Settings
  compiler : CommandCompiler
  quiet : Nat
  warnings : List ConfigWarning

/-- The project that a command line is about. -/
def projectOf (a : Arguments) (s : Surroundings) : Except ConfigError Project :=
  let root := rootOf a s.disk
  (Config.forRoot s.disk s.env root).map fun (config, warnings) =>
    { settings := ⟨root, config.mode a.overrides, config.discovery.exclude⟩
      compiler := ⟨config.compiler.command, config.compiler.args, root⟩
      quiet := config.sync.debounceMs
      warnings := warnings }

/-- Builds a project once. Sources that fail do not fail the run. -/
def runBuild (w : Printer) (s : Surroundings) (p : Project) : Result :=
  let root := p.settings.root.toString
  let printed := w.header (Terminal.buildHeader root p.settings.mode)
  let printed := p.warnings.foldl (fun printed warning =>
    w.buildEvent printed (.warning warning.toString)) printed
  match Batch.execute p.settings Disk.fileSystem (p.compiler.compiler s.env) id s.disk with
  | .error e => refuse w s printed e
  | .ok result => .ended 0 (result.events.foldl w.buildEvent printed) result.world

/-- Begins to watch a project. -/
def runDev (w : Printer) (s : Surroundings) (p : Project) : Result :=
  let root := p.settings.root.toString
  let printed := w.header (Terminal.watchHeader root p.settings.mode)
  let printed := p.warnings.foldl (fun printed warning =>
    w.watchEvent s.time printed (.warning warning.toString)) printed
  let compiler := p.compiler.compiler s.env
  match Watch.start p.settings p.quiet Disk.fileSystem compiler id 0 s.disk with
  | .error e => refuse w s printed e
  | .ok started =>
    .watching (started.run.events.foldl (w.watchEvent s.time) printed) ⟨w, started⟩

/-- Runs a command line. -/
def run (words : List String) (s : Surroundings) : Result :=
  match parse words with
  | .error stop => .ended stop.exitCode (Printed.none.add false stop.text) s.disk
  | .ok a =>
    let w := Printer.of a s
    match projectOf a s with
    | .error e => .ended failureCode (w.failure s .none e.toRun) s.disk
    | .ok p =>
      match a.command with
      | .build => runBuild w s p
      | .dev => runDev w s p

end ArtifactSync.CommandLine
