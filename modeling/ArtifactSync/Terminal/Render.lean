import ArtifactSync.Artifact
import ArtifactSync.Terminal.Style
import ArtifactSync.Watch.Event

/-!
# Headers, events and errors for readers

What a run prints for a reader: a header, and a line for each event, or none if the event is only
shown to those who asked for more.
-/

namespace ArtifactSync.Terminal

/-! ## Headers -/

/-- A title with an icon, and labelled values below it. -/
structure Header where
  icon : Icon
  title : String
  items : List (String × String)
  deriving Repr

/-- The lines of a header. -/
def Header.render (h : Header) (s : Style) : String :=
  let item := fun (i : String × String) => s.text .dim (i.1 ++ ":") ++ " " ++ i.2 ++ "\n"
  s!"{s.icon h.icon} {s.bold .info h.title}\n" ++ String.join (h.items.map item)

/-- The output kind and the side files that a mode stands for. -/
def modeLabel (mode : Mode) : String :=
  let kind := "." ++ String.ofList mode.kind.extension
  let synced := (if mode.git then [SideFileKind.ignoreList.location] else [])
    ++ (if mode.vscode then [SideFileKind.editorExclude.location] else [])
  if synced.isEmpty then s!"{kind} (side files off)"
  else
    let files := String.intercalate ", " synced
    s!"{kind} (syncing {files})"

/-- The header of a batch build. -/
def buildHeader (root : String) (mode : Mode) : Header :=
  ⟨.build, "Civetman Build", [("Root", root), ("Output", modeLabel mode)]⟩

/-- The header of a watch. -/
def watchHeader (root : String) (mode : Mode) : Header :=
  ⟨.watch, "Civetman Dev",
    [("Root", root), ("Output", modeLabel mode), ("Hint", "Press Ctrl+C to stop")]⟩

/-! ## Events -/

/-- The arrow between a source and its output. -/
def becomes (s : Style) : String :=
  s.text .dim "->"

/-- The text for an event of a batch build. -/
def buildLine? (s : Style) (verbosity : Nat) : BuildEvent → Option String
  | .buildStarted _ sources =>
    if verbosity = 0 then none else some s!"{s.icon .arrow} Found {sources} source file(s)\n"
  | .fileBuilt source output =>
    some s!"{s.icon .success} {source} {becomes s} {output}\n"
  | .fileFailed source _ message =>
    some s!"{s.icon .error} {s.text .error source}\n  {message}\n"
  | .sideFileSynced file entries =>
    if verbosity = 0 then none else some s!"{s.icon .sync} {file} ({entries} entries)\n"
  | .warning message => some s!"{s.icon .warning} {message}\n"
  | .buildComplete built failed =>
    if failed > 0 then
      let summary := s!"Built {built} file(s), {failed} failed"
      some s!"\n{s.icon .warning} {s.bold .warning summary}\n"
    else
      let summary := s!"Built {built} file(s)"
      some s!"\n{s.icon .success} {s.bold .success summary}\n"

/-- The word for what a build did. -/
def triggerVerb : Trigger → String
  | .initial => "Built"
  | .add => "Added"
  | .change => "Rebuilt"

/-- The text for an event of a watch, with the time of day it came at. -/
def watchLine? (s : Style) (time : String) (verbosity : Nat) (e : WatchEvent) : Option String :=
  let stamp := s.text .dim ("[" ++ time ++ "]")
  match e with
  | .watchStarted root sources =>
    some s!"{stamp} {s.icon .watch} Watching {root} ({sources} source file(s))\n"
  | .fileBuilt source output trigger =>
    if trigger = .initial && verbosity = 0 then none
    else
      let verb := triggerVerb trigger
      some s!"{stamp} {s.icon .success} {verb}: {source} {becomes s} {output}\n"
  | .fileFailed source _ message =>
    some s!"{stamp} {s.icon .error} {s.text .error source}\n  {message}\n"
  | .fileRemoved source output =>
    some s!"{stamp} {s.icon .trash} Removed: {source} ({output} deleted)\n"
  | .initialBuildComplete built failed =>
    if failed > 0 then
      some s!"{stamp} {s.icon .warning} Initial build: {built} built, {failed} failed\n"
    else some s!"{stamp} {s.icon .success} Initial build: {built} built\n"
  | .sideFileSynced file entries =>
    if verbosity = 0 then none
    else some s!"{stamp} {s.icon .sync} Synced {file} ({entries} entries)\n"
  | .warning message => some s!"{stamp} {s.icon .warning} {message}\n"
  | .error message => some s!"{stamp} {s.icon .error} Error: {message}\n"
  | .shutdown => some s!"\n{stamp} {s.icon .watch} Watch stopped.\n"

/-! ## Errors -/

/-- What a user can do about a failed run. -/
def hint? : RunError → Option String
  | .rootNotFound _ => some "Run inside your project or pass --root <DIR>."
  | .invalidConfig file _ => some s!"Fix the TOML syntax in {file}."
  | .exclude _ => some "Check the [discovery] exclude list in civetman.toml."
  | _ => none

/-- The lines for an error with a message and perhaps a hint. -/
def errorLines (s : Style) (message : String) (hint : Option String) : String :=
  let title := "Error: " ++ message
  s!"{s.icon .error} {s.bold .error title}\n" ++
    (match hint with
    | some hint => s!"  {s.icon .arrow} {hint}\n"
    | none => "")

/-- The lines for a failed run. -/
def runErrorLines (s : Style) (e : RunError) : String :=
  errorLines s e.toString (hint? e)

end ArtifactSync.Terminal
