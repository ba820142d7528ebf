import ArtifactSync.Environment
import ArtifactSync.Terminal.Style
import ArtifactSync.Text.Blank
import ArtifactSync.Text.Lines

/-!
# What a terminal can show

Whether the output may have colours and characters outside ASCII, judged by the environment, and
what the command line makes of it.
-/

namespace ArtifactSync.Terminal

/-- What the terminal can show, and whether a build server is looking at it. -/
structure Capabilities where
  color : Bool
  unicode : Bool
  ci : Bool
  deriving DecidableEq, Repr

/-- The variables by which build servers are known. -/
def serverVariables : List String :=
  ["CI", "GITHUB_ACTIONS", "JENKINS_HOME", "BUILDKITE", "CIRCLECI", "TRAVIS", "TEAMCITY_VERSION"]

/-- What a locale says: whether it names UTF-8 or is any but the plain ones. An empty one says
nothing. -/
def localeIsUnicode? (locale : String) : Option Bool :=
  let cs := Text.asciiLower locale.toList
  if Text.contains "utf-8".toList cs || Text.contains "utf8".toList cs then some true
  else if cs = [] then none
  else some (cs ≠ ['c'] && cs ≠ "posix".toList)

/-- Whether the locale allows characters outside ASCII: the first variable that says something
counts, and if none does, it does. -/
def unicodeLocale (env : Environment) : Bool :=
  (["LC_ALL", "LC_CTYPE", "LANG"].findSome? fun name =>
    (env.get? name).bind localeIsUnicode?).getD true

/-- What can be shown in an environment, on a terminal or elsewhere. -/
def detect (env : Environment) (isTerminal : Bool) : Capabilities :=
  let dumb := Text.asciiLower ((env.get? "TERM").getD "").toList = "dumb".toList
  { color := isTerminal && !dumb && !env.has "NO_COLOR"
    unicode := !dumb && unicodeLocale env
    ci := serverVariables.any env.has }

/-- What the command line says about colours. -/
inductive ColorChoice where
  | auto
  | always
  | never
  deriving DecidableEq, Repr

/-- How events are shown. -/
structure View where
  json : Bool
  verbosity : Nat
  color : Bool
  unicode : Bool
  deriving DecidableEq, Repr

/-- The view that capabilities and the command line settle. Left to itself a build server gets no
colours, and JSON never has any. -/
def View.of (json : Bool) (verbosity : Nat) (choice : Option ColorChoice) (caps : Capabilities) :
    View :=
  let color := match choice with
    | some .never => false
    | some .always => true
    | _ => caps.color && !caps.ci
  ⟨json, verbosity, color && !json, caps.unicode⟩

/-- The style of a view. A variable that forbids colours empties the codes. -/
def View.style (v : View) (env : Environment) : Style :=
  let forbidden := (env.get? "NO_COLOR").getD "" ≠ ""
  ⟨if !v.color then .off else if forbidden then .emptied else .on, v.unicode⟩

end ArtifactSync.Terminal
