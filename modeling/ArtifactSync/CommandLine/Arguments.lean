import ArtifactSync.Config.Types
import ArtifactSync.Terminal.Capabilities

/-!
# Arguments

Reads the words of a command line. All options may stand in front of the command and behind it, and
what stands behind it counts more. An option that takes its value from the next word is settled only
when the next option of its level comes or the level ends, so a word that fits nowhere is reported
first.
-/

namespace ArtifactSync.CommandLine

/-- What the program is asked to do. -/
inductive Command where
  | build
  | dev
  deriving DecidableEq, Repr

/-- The name of a command. -/
def Command.name : Command → String
  | build => "build"
  | dev => "dev"

/-- What help is asked about. -/
inductive Topic where
  /-- The program. -/
  | program
  | command (c : Command)
  /-- The command that gives help. -/
  | help
  deriving DecidableEq, Repr

/-- What is wrong with a command line. -/
inductive UsageError where
  /-- There are no words, or none that say anything. -/
  | nothingGiven
  | missingCommand
  | unknownCommand
  | unknownArgument
  | invalidValue
  | unneededValue
  | repeated
  deriving DecidableEq, Repr

/-- The name of a kind of error. -/
def UsageError.name : UsageError → String
  | nothingGiven => "DisplayHelpOnMissingArgumentOrSubcommand"
  | missingCommand => "MissingSubcommand"
  | unknownCommand => "InvalidSubcommand"
  | unknownArgument => "UnknownArgument"
  | invalidValue => "InvalidValue"
  | unneededValue => "TooManyValues"
  | repeated => "ArgumentConflict"

/-- Why the words give no command to run. -/
inductive Stop where
  | help (topic : Topic)
  | version
  | usage (e : UsageError)
  deriving DecidableEq, Repr

/-- What the words ask for. -/
structure Arguments where
  command : Command
  json : Bool
  color : Option Terminal.ColorChoice
  verbosity : Nat
  root : Option String
  overrides : ModeOverrides
  deriving DecidableEq, Repr

/-- The switches. -/
inductive Switch where
  | json
  | tsx
  | noGit
  | noVscode
  deriving DecidableEq, Repr

/-- The options that take a value. -/
inductive Valued where
  | color
  | root
  deriving DecidableEq, Repr

/-- What an option stands for. -/
inductive Meaning where
  | switch (s : Switch)
  | valued (v : Valued)
  | verbose
  | help
  | version
  deriving DecidableEq, Repr

/-- What the options of one level have said so far. -/
structure Level where
  switches : List Switch
  /-- How often more detail was asked for, if at all. -/
  verbose : Option Nat
  color : Option Terminal.ColorChoice
  root : Option (List Char)
  deriving Repr

/-- The levels of a command line. -/
inductive Stage where
  /-- In front of the command. -/
  | front
  /-- Behind the command. -/
  | behind (c : Command)
  deriving DecidableEq, Repr

/-- How far a level has been read. -/
structure Reading where
  stage : Stage
  level : Level
  /-- An option that is not settled, with its value if that has come. -/
  pending : Option (Valued × Option (List Char))
  /-- Whether the next word is the value of the option that is not settled. -/
  awaits : Bool
  /-- Whether a word of two hyphens has ended the options. -/
  ended : Bool
  deriving Repr

namespace Reading

/-- Nothing of a level has been read. -/
def start (stage : Stage) : Reading :=
  ⟨stage, ⟨[], none, none, none⟩, none, false, false⟩

/-- A color choice by its name. -/
def colorChoice? (value : List Char) : Option Terminal.ColorChoice :=
  if value = "auto".toList then some .auto
  else if value = "always".toList then some .always
  else if value = "never".toList then some .never
  else none

/-- Settles an option with its value. -/
def settle (r : Reading) (option : Valued) (value : Option (List Char)) :
    Except Stop Reading :=
  match value with
  | none => .error (.usage .invalidValue)
  | some value =>
    match option with
    | .color =>
      if r.level.color.isSome then .error (.usage .repeated)
      else match colorChoice? value with
        | none => .error (.usage .invalidValue)
        | some choice => .ok { r with level := { r.level with color := some choice } }
    | .root =>
      if r.level.root.isSome then .error (.usage .repeated)
      else if value = [] then .error (.usage .invalidValue)
      else .ok { r with level := { r.level with root := some value } }

/-- Settles the option that is not settled, if there is one. -/
def settlePending (r : Reading) : Except Stop Reading :=
  match r.pending with
  | none => .ok r
  | some (option, value) => { r with pending := none, awaits := false }.settle option value

/-- The topic of help at a level. -/
def topic (r : Reading) : Topic :=
  match r.stage with
  | .front => .program
  | .behind c => .command c

/-- Carries out an option that takes no value. -/
def apply (r : Reading) (m : Meaning) : Except Stop Reading :=
  match r.settlePending with
  | .error e => .error e
  | .ok r =>
    match m with
    | .switch s =>
      if r.level.switches.contains s then .error (.usage .repeated)
      else .ok { r with level := { r.level with switches := s :: r.level.switches } }
    | .verbose =>
      let count := min 255 (r.level.verbose.getD 0 + 1)
      .ok { r with level := { r.level with verbose := some count } }
    | .help => .error (.help r.topic)
    | .version => .error .version
    | .valued _ => .ok r

/-- The options by their long names. Only in front of the command is there one for the version. -/
def longOption? (stage : Stage) (name : List Char) : Option Meaning :=
  let options : List (String × Meaning) := [("json", .switch .json), ("tsx", .switch .tsx),
    ("no-git", .switch .noGit), ("no-vscode", .switch .noVscode), ("color", .valued .color),
    ("root", .valued .root), ("verbose", .verbose), ("help", .help)]
    ++ (if stage = .front then [("version", .version)] else [])
  (options.find? fun o => o.1.toList = name).map Prod.snd

/-- The options by their letters. -/
def shortOption? (stage : Stage) (c : Char) : Option Meaning :=
  if c = 'v' then some .verbose
  else if c = 'h' then some .help
  else if c = 'V' ∧ stage = .front then some .version
  else none

/-- Reads an option with a long name, and the value behind an equals sign if there is one. -/
def readLong (r : Reading) (name : List Char) (value : Option (List Char)) :
    Except Stop Reading :=
  match longOption? r.stage name with
  | none => .error (.usage .unknownArgument)
  | some (.valued option) =>
    match r.settlePending with
    | .error e => .error e
    | .ok r =>
      match value with
      | some value => { r with awaits := false }.settle option (some value)
      | none => .ok { r with pending := some (option, none), awaits := true }
  | some m =>
    match value with
    | some _ => .error (.usage .unneededValue)
    | none => { r with awaits := false }.apply m

/-- Reads options by their letters. -/
def readShort (r : Reading) : List Char → Except Stop Reading
  | [] => .ok r
  | c :: cs =>
    match shortOption? r.stage c with
    | none => .error (.usage .unknownArgument)
    | some m =>
      match { r with awaits := false }.apply m with
      | .error e => .error e
      | .ok r => readShort r cs

/-- A word cut at its first equals sign. -/
def cutAtEquals (word : List Char) : List Char × Option (List Char) :=
  let name := word.takeWhile (· ≠ '=')
  match word.drop name.length with
  | [] => (name, none)
  | _ :: value => (name, some value)

end Reading

/-- What the name of a command asks for. -/
inductive Asked where
  | command (c : Command)
  | help
  deriving DecidableEq, Repr

/-- The commands by their names. -/
def asked? (word : List Char) : Option Asked :=
  if word = "build".toList then some (.command .build)
  else if word = "dev".toList ∨ word = "watch".toList then some (.command .dev)
  else if word = "help".toList then some .help
  else none

/-- The topic that words behind the help command name. Nothing is below a command. -/
def helpTopic (words : List (List Char)) : Stop :=
  match words with
  | [] => .help .program
  | [word] =>
    match asked? word with
    | some (.command c) => .help (.command c)
    | some .help => .help .help
    | none => .usage .unknownCommand
  | _ => .usage .unknownCommand

/-- The complaint about a word that fits nowhere. -/
def misplaced (r : Reading) (word : List Char) : Stop :=
  match r.stage with
  | .behind _ => .usage .unknownArgument
  | .front =>
    if r.ended && (asked? word).isSome then .usage .unknownArgument else .usage .unknownCommand

/-- Reads a word that is no command. -/
def readWord (r : Reading) (word : List Char) : Except Stop Reading :=
  if r.ended then .error (misplaced r word)
  else match word with
    | ['-', '-'] => .ok { r with ended := true }
    | '-' :: '-' :: rest =>
      let (name, value) := Reading.cutAtEquals rest
      r.readLong name value
    | '-' :: c :: rest => r.readShort (c :: rest)
    | _ =>
      if r.awaits then
        .ok { r with
          pending := r.pending.map fun (option, _) => (option, some word)
          awaits := false }
      else .error (misplaced r word)

/-- Reads the words of a level, and those behind the command if one comes: what each level says. -/
def readWords (r : Reading) : List (List Char) → Except Stop (Reading × Option Reading)
  | [] => r.settlePending.map fun r => (r, none)
  | word :: rest =>
    let asked := if r.stage = .front && !r.awaits && !r.ended then asked? word else none
    match asked with
    | some .help => .error (helpTopic rest)
    | some (.command c) =>
      match readWords (.start (.behind c)) rest with
      | .error e => .error e
      | .ok (behind, _) => r.settlePending.map fun r => (r, some behind)
    | none =>
      match readWord r word with
      | .error e => .error e
      | .ok r => readWords r rest

/-- Whether a level says anything. -/
def Level.saysSomething (l : Level) : Bool :=
  !l.switches.isEmpty || l.verbose.isSome || l.color.isSome || l.root.isSome

/-- What two levels come to: the one behind the command counts more. -/
def combine (c : Command) (front behind : Level) : Arguments :=
  let has := fun s => front.switches.contains s || behind.switches.contains s
  { command := c
    json := has .json
    color := behind.color.or front.color
    verbosity := (behind.verbose.or front.verbose).getD 0
    root := (behind.root.or front.root).map String.ofList
    overrides := ⟨has .tsx, has .noGit, has .noVscode⟩ }

/-- What the words of a command line ask for. -/
def parse (words : List String) : Except Stop Arguments :=
  match readWords (.start .front) (words.map String.toList) with
  | .error e => .error e
  | .ok (front, none) =>
    if front.level.saysSomething then .error (.usage .missingCommand)
    else .error (.usage .nothingGiven)
  | .ok (front, some behind) =>
    match behind.stage with
    | .front => .error (.usage .missingCommand)
    | .behind c => .ok (combine c front.level behind.level)

end ArtifactSync.CommandLine
