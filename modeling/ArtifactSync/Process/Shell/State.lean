import ArtifactSync.Process.Input
import ArtifactSync.Process.Script

/-!
# Shells

What a shell knows between two commands: its parameters and variables, its functions and traps, its
options, where its streams go, what of its input is not yet read, and the disk.

An `Act` is something that a shell does. It changes the shell and gives a value, unless it leaves
what the shell is at: a loop, a function, or the whole script.
-/

namespace ArtifactSync.Process

/-! ## Streams -/

/-- Where bytes that are printed go. -/
inductive Sink where
  /-- Out of the shell. -/
  | outside (stream : Stream)
  | buffer (index : Nat)
  | file (path : Path)
  | nowhere
  deriving DecidableEq, Repr

/-- What the number of a stream stands for. -/
inductive Channel where
  | source (index : Nat)
  | sink (sink : Sink)
  deriving DecidableEq, Repr

/-- Something that is read: the bytes that are still to come, and whether it is a file. -/
structure Source where
  bytes : List UInt8
  isFile : Bool
  deriving DecidableEq, Repr

/-! ## Shells -/

/-- A variable: its value, if it has one, whether programs are told of it, and whether it keeps its
value for good. -/
structure Binding where
  name : List Char
  value : Option Word
  exported : Bool
  readOnly : Bool
  deriving DecidableEq, Repr

/-- A program that a shell does not wait for: its number, and how it ended. -/
structure Job where
  number : Nat
  status : Status
  deriving DecidableEq, Repr

/-- A shell between two commands. -/
structure Shell where
  /-- What the shell is called, and the words it was given. -/
  name : Word
  params : List Word
  bindings : List Binding
  functions : List (List Char × Command)
  /-- What is done when a signal comes in; nothing at all is done for an empty script. The end of
  the shell counts as signal zero. -/
  traps : List (Nat × Word)
  /-- The signals that did nothing before the shell began, and never will. -/
  deaf : List Nat
  /-- The signals that have come in and are not yet seen to. -/
  pending : List Nat
  /-- The signals that have been sent to the shell in which this one runs apart. -/
  posted : List Nat
  /-- Whether this is a shell that runs apart from another one. -/
  apart : Bool
  status : Nat
  /-- The status of the last script inside a word of the command in hand. -/
  innerStatus : Nat
  /-- The letters of the options in force. -/
  options : List Char
  /-- Whether it is looked at how the command in hand ends, so that it may fail. -/
  tested : Bool
  /-- The line of the command in hand, and what complaints say behind it. -/
  line : Nat
  label : Word
  /-- How many loops are open here. -/
  loops : Nat
  /-- For each function that is being run, the variables it has made its own, as they were. -/
  scopes : List (List (List Char × Option Binding))
  jobs : List Job
  /-- How far the word has been looked at in which options are sought; zero between two words. -/
  optionPlace : Nat
  /-- The working directory by the names one went through. -/
  directory : List Char
  streams : List (Nat × Channel)
  sources : List Source
  /-- What has been printed into each buffer, and what has been printed altogether, the last piece
  first. -/
  buffers : List (List (List UInt8))
  printed : List (Stream × List UInt8)
  disk : Disk

/-- The number that the process of a shell has. -/
def shellProcess : Nat := 4242

namespace Shell

/-- A shell before its first command, with the variables, the input and the disk of a call. -/
def start (c : Call) : Shell where
  name := c.name
  params := []
  bindings :=
    let directory := Word.ofText c.disk.cwdPath.chars
    let own := [("IFS", " \t\n"), ("OPTIND", "1"), ("PS1", "$ "), ("PS2", "> "), ("PS4", "+ "),
      ("PPID", toString (shellProcess - 1)), ("PWD", String.ofList directory)]
    let given := c.env.bindings.filter fun v => !own.any fun o => o.1 = v.1
    own.map (fun v => ⟨v.1.toList, some v.2.toList, c.env.has v.1, false⟩) ++
      given.map fun v => ⟨v.1.toList, some v.2.toList, true, false⟩
  functions := []
  traps := []
  deaf := c.ignored
  pending := []
  posted := []
  apart := false
  status := 0
  innerStatus := 0
  options := []
  tested := false
  line := 0
  label := []
  loops := 0
  scopes := []
  jobs := []
  optionPlace := 0
  directory := Word.ofText c.disk.cwdPath.chars
  streams := [(0, .source 0), (1, .sink (.outside .out)), (2, .sink (.outside .err))]
  sources := [⟨c.input, c.isFile⟩]
  buffers := []
  printed := []
  disk := c.disk

/-- The value of a variable. -/
def held? (s : Shell) (name : List Char) : Option Word :=
  (s.bindings.find? fun v => v.name = name).bind Binding.value

/-- Whether a variable keeps its value for good. -/
def isReadOnly (s : Shell) (name : List Char) : Bool :=
  s.bindings.any fun v => v.name = name && v.readOnly

/-- Gives a variable a value, and perhaps makes it known to programs. -/
def setVariable (s : Shell) (name : List Char) (value : Word) (exported : Bool) : Shell :=
  let old := s.bindings.find? fun v => v.name = name
  let exported := exported || s.options.contains 'a' || old.any Binding.exported
  { s with
    bindings := ⟨name, some value, exported, old.any Binding.readOnly⟩ ::
      s.bindings.filter fun v => v.name ≠ name
    -- whoever gives the next option a place begins a word
    optionPlace := if name = "OPTIND".toList then 0 else s.optionPlace }

/-- Puts a variable back to what it was. -/
def restore (s : Shell) (name : List Char) (old : Option Binding) : Shell :=
  { s with bindings := old.toList ++ s.bindings.filter fun v => v.name ≠ name }

/-- Whether an option is in force. -/
def has (s : Shell) (option : Char) : Bool :=
  s.options.contains option

/-- The variables that programs are told of. -/
def environment (s : Shell) : Environment :=
  ⟨s.bindings.filterMap fun v =>
    if v.exported then v.value.map fun value => (String.ofList v.name, String.ofList value)
    else none⟩

/-- The signals that do nothing to the programs that the shell runs. -/
def ignored (s : Shell) : List Nat :=
  s.deaf ++ (s.traps.filter fun t => t.2 = []).map Prod.fst

/-- The characters that values are split at. -/
def separators (s : Shell) : Word :=
  (s.held? "IFS".toList).getD [' ', '\t', '\n']

/-- What a stream stands for. -/
def channel? (s : Shell) (stream : Nat) : Option Channel :=
  (s.streams.find? fun c => c.1 = stream).map Prod.snd

/-- Where a stream prints to. -/
def sink? (s : Shell) (stream : Nat) : Option Sink :=
  match s.channel? stream with
  | some (.sink sink) => some sink
  | _ => none

/-- Lets a stream stand for something else, or for nothing. -/
def setChannel (s : Shell) (stream : Nat) (channel : Option Channel) : Shell :=
  { s with streams :=
      (channel.map fun c => (stream, c)).toList ++ s.streams.filter fun c => c.1 ≠ stream }

/-- Adds bytes to what has gone to a sink. A file that was taken away gets nothing any more. -/
def emit (s : Shell) (sink : Sink) (bytes : List UInt8) : Shell :=
  match sink with
  | .outside stream => { s with printed := (stream, bytes) :: s.printed }
  | .buffer i => { s with buffers := s.buffers.modify i (bytes :: ·) }
  | .nowhere => s
  | .file path =>
    match s.disk.readBytes path with
    | .error _ => s
    | .ok before =>
      match s.disk.putBytes path (before ++ bytes) with
      | .ok disk => { s with disk := disk }
      | .error _ => s

/-- Prints bytes to a stream, if it goes anywhere. -/
def print (s : Shell) (stream : Nat) (bytes : List UInt8) : Shell :=
  match s.sink? stream with
  | some sink => s.emit sink bytes
  | none => s

/-- A shell with one more buffer, and its index. -/
def newBuffer (s : Shell) : Shell × Nat :=
  ({ s with buffers := s.buffers ++ [[]] }, s.buffers.length)

/-- What a buffer holds. -/
def buffer (s : Shell) (i : Nat) : List UInt8 :=
  (s.buffers.getD i []).reverse.flatten

/-- A shell in which a stream is read from bytes. -/
def readFrom (s : Shell) (stream : Nat) (source : Source) : Shell :=
  { s with sources := s.sources ++ [source] }.setChannel stream (some (.source s.sources.length))

/-- Where programs are looked for. -/
def search (s : Shell) : Environment :=
  ⟨(s.held? "PATH".toList).toList.map fun path => ("PATH", String.ofList path)⟩

/-- What is still to be read from the input. -/
def input (s : Shell) : Source :=
  match s.channel? 0 with
  | some (.source i) => s.sources.getD i ⟨[], false⟩
  | _ => ⟨[], false⟩

/-- Leaves so much of the input to be read. -/
def leaveInput (s : Shell) (rest : List UInt8) : Shell :=
  match s.channel? 0 with
  | some (.source i) => { s with sources := s.sources.modify i fun x => { x with bytes := rest } }
  | _ => s

/-- A complaint about the command in hand. -/
def complaint (s : Shell) (message : String) : List UInt8 :=
  let label := if s.label = [] then "" else String.ofList s.label ++ ": "
  Word.bytesOf s!"{String.ofList s.name}: {s.line}: {label}{message}\n"

/-- The value of a parameter or a variable. -/
def value? (s : Shell) (name : List Char) : Option Word :=
  let number := fun (n : Nat) => some (toString n).toList
  match name with
  | ['?'] => number s.status
  | ['#'] => number s.params.length
  | ['$'] => number shellProcess
  | ['!'] => s.jobs.head?.bind fun job => number job.number
  | ['-'] => some (("pubaCEVvxsnmiIfe".toList.filter fun o => s.has o))
  | name =>
    if name = ['@'] || name = ['*'] then
      let between := match s.held? "IFS".toList with
        | none => [' ']
        | some ifs => ifs.take 1
      if s.params.isEmpty then none else some (List.intercalate between s.params)
    else if name.all Char.isDigit then
      let n := numberIn 10 name
      if n = 0 then some s.name else s.params[n - 1]?
    else s.held? name

end Shell

/-! ## What a shell does -/

/-- How a shell leaves what it is at. -/
inductive Leaving where
  /-- The script ends with a code. -/
  | exit (code : Nat)
  /-- A complaint ends the script, unless it came from a command that may fail. -/
  | failed
  /-- A program has taken the place of the shell and ended. -/
  | replaced (status : Status)
  /-- A signal ends the shell. -/
  | killed (signal : Nat)
  /-- So many loops end. -/
  | «break» (levels : Nat)
  /-- All but the last of so many loops end, and that one goes on to its next round. -/
  | «continue» (levels : Nat)
  /-- The innermost function ends. -/
  | «return»
  deriving DecidableEq, Repr

/-- Something that a shell does. -/
abbrev Act := ExceptT Leaving (StateM Shell)

namespace Act

/-- What something gives that a shell does, and the shell behind it. -/
def runIn {α : Type} (s : Shell) (act : Act α) : Except Leaving α × Shell :=
  Id.run (StateT.run (ExceptT.run act) s)

/-- Changes the shell. -/
def change (f : Shell → Shell) : Act Unit :=
  modify f

/-- Takes on a status. -/
def ends (status : Nat) : Act Unit :=
  change fun s => { s with status := status }

/-- Prints bytes to the output. -/
def prints (bytes : List UInt8) : Act Unit :=
  change fun s => s.print 1 bytes

/-- Prints a text to the output. -/
def tells (text : String) : Act Unit :=
  prints (Word.bytesOf text)

/-- Complains about the command in hand. -/
def complains (message : String) : Act Unit :=
  change fun s => s.print 2 (s.complaint message)

/-- Complains and ends the script, unless the command in hand may fail. -/
def fails {α : Type} (message : String) : Act α := do
  complains message
  ends 2
  throw .failed

/-- Does something and puts a part of the shell back to what it was before. -/
def keeping {α β : Type} (part : Shell → β) (put : Shell → β → Shell) (act : Act α) : Act α := do
  let old := part (← get)
  let back := change fun s => put s old
  let answer ← tryCatch act fun leaving => do
    back
    throw leaving
  back
  return answer

/-- Does something under a label, which complaints carry. -/
def labelled {α : Type} (label : Word) (act : Act α) : Act α :=
  keeping Shell.label (fun s old => { s with label := old }) do
    change fun s => { s with label := label }
    act

/-- Does something whose failure is looked at. -/
def tested {α : Type} (act : Act α) : Act α :=
  keeping Shell.tested (fun s old => { s with tested := old }) do
    change fun s => { s with tested := true }
    act

/-- Gives a variable a value, unless it keeps the one it has. -/
def assigns (name : List Char) (value : Word) (exported : Bool) : Act Unit := do
  if (← get).isReadOnly name then fails s!"{String.ofList name}: is read only"
  else change fun s => s.setVariable name value exported

/-- Sends a signal to the shell. -/
def signals (signal : Nat) : Act Unit := do
  let s ← get
  if signal = 9 then throw (.killed signal)
  if s.ignored.contains signal then return
  if s.traps.any fun t => t.1 = signal then
    change fun s => { s with pending := s.pending ++ [signal] }
  else if !isHarmless signal then throw (.killed signal)

end Act

end ArtifactSync.Process
