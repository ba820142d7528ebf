import ArtifactSync.Config.Decode
import ArtifactSync.Config.Suggest
import ArtifactSync.Disk.Calls
import ArtifactSync.Environment
import ArtifactSync.Error
import ArtifactSync.Toml.Syntax

/-!
# Loading settings

The settings of a project come from its configuration file, if it has one, and then from variables
of the environment. A file that cannot be read is an error; a setting that does not exist is worth a
warning.
-/

namespace ArtifactSync

/-- A setting that does not exist. -/
structure ConfigWarning where
  key : String
  file : Path
  line : Option Nat
  suggestion : Option String
  deriving DecidableEq, Repr

/-- The text of a warning. -/
def ConfigWarning.toString (w : ConfigWarning) : String :=
  s!"unknown config key '{w.key}' in {w.file}"
    ++ (match w.line with
      | some line => s!":{line}"
      | none => "")
    ++ (match w.suggestion with
      | some suggestion => s!" (did you mean '{suggestion}'?)"
      | none => "")

instance : ToString ConfigWarning := ⟨ConfigWarning.toString⟩

/-- Why settings cannot be loaded. -/
inductive ConfigError where
  /-- The file cannot be read. -/
  | io (text : String)
  /-- The text is not well formed. -/
  | malformed (file : Path)
  /-- A setting has a wrong type. -/
  | invalid (file : Path) (report : String)
  deriving DecidableEq, Repr

/-- Settings that cannot be loaded as the failure of a run. The wording of what is wrong with a text
that is not well formed is left open. -/
def ConfigError.toRun : ConfigError → RunError
  | io text => .io text
  | malformed file => .invalidConfig file "TOML parse error\n"
  | invalid file report => .invalidConfig file report

namespace Config

/-- The warning about a setting that does not exist. -/
def warning (file : Path) (cs : List Char) (key : List Char) : ConfigWarning :=
  ⟨String.ofList key, file, Suggest.lineOf? cs key, Suggest.suggest? key⟩

/-- The settings that a text makes, and the warnings about it. -/
def ofText (file : Path) (cs : List Char) : Except ConfigError (Config × List ConfigWarning) :=
  match Toml.parse cs with
  | none => .error (.malformed file)
  | some top =>
    match Decode.config top with
    | .error complaint => .error (.invalid file (complaint.render cs))
    | .ok (config, unknown) => .ok (config, unknown.map (warning file cs))

/-- The settings that a file makes, and the warnings about it. -/
def ofFile (d : Disk) (file : Path) : Except ConfigError (Config × List ConfigWarning) :=
  match d.readBytes file with
  | .error e => .error (.io e.toString)
  | .ok bytes =>
    match Text.ofBytes? bytes with
    | none => .error (.io "stream did not contain valid UTF-8")
    | some text => ofText file text.toList

/-- Whether the value of a variable switches something on. -/
def isTruthy (value : String) : Bool :=
  let word := Text.asciiLower (Text.trim value.toList)
  !([[], ['0'], "false".toList, "no".toList].contains word)

/-- The number that a text spells, if it fits into 64 bits. -/
def natural? (cs : List Char) : Option Nat :=
  let digits := match cs with
    | '+' :: rest => rest
    | _ => cs
  let n := Toml.numberIn 10 digits
  if digits ≠ [] && digits.all Char.isDigit && n < 18446744073709551616 then some n else none

/-- Settings with what the environment says in place of what the file says. -/
def withEnvironment (c : Config) (env : Environment) : Config :=
  let truthy := fun name => (env.get? name).map isTruthy
  let words := ((env.get? "CIVETMAN_COMPILER").map fun value => Text.words value.toList).getD []
  let quiet := (env.get? "CIVETMAN_DEBOUNCE_MS").bind fun value => natural? (Text.trim value.toList)
  { c with
    build := ⟨(truthy "CIVETMAN_TSX").getD c.build.tsx⟩
    sync :=
      { git := c.sync.git && truthy "CIVETMAN_NO_GIT" ≠ some true
        vscode := c.sync.vscode && truthy "CIVETMAN_NO_VSCODE" ≠ some true
        debounceMs := quiet.getD c.sync.debounceMs }
    compiler :=
      match words with
      | [] => c.compiler
      | program :: args => ⟨String.ofList program, args.map String.ofList⟩ }

/-- The settings of the project at a root, and the warnings about them. A project may do without the
file. -/
def forRoot (d : Disk) (env : Environment) (root : Path) :
    Except ConfigError (Config × List ConfigWarning) :=
  let file := root.join (Path.ofString fileName)
  if d.isFile file then
    (ofFile d file).map fun (c, warnings) => (c.withEnvironment env, warnings)
  else .ok (defaults.withEnvironment env, [])

end Config

end ArtifactSync
