import ArtifactSync.Process.Input
import ArtifactSync.Process.Record.Grammar

/-!
# Scripts at work

What a record script knows while it runs: its variables and tables, the record in hand and the
fields that it is made of, what is left of its input, and what is printed so far. What is printed to
the output is held back until another program is run or the script ends.

A `Work` is something that a script does. It changes what the script knows and gives a value, unless
it leaves what the script is at.
-/

namespace ArtifactSync.Process.Record

/-! ## Fields -/

/-- What divides the fields of a record. -/
inductive Divider where
  | blanks
  /-- Every character is a field. -/
  | everywhere
  | char (c : Char)
  | pattern (r : Regular)

namespace Divider

/-- Whether a character is blank between fields. -/
def isBlank (c : Char) : Bool :=
  c = ' ' || c = '\t' || c = '\n'

/-- The divider that a text is: a blank, nothing, any other character, or a pattern. -/
def ofText : Word → Except String Divider
  | [] => .ok .everywhere
  | [' '] => .ok .blanks
  | [c] => .ok (.char c)
  | w => (patternOf w).map .pattern

/-- The pieces of a text between the matches of a pattern that are not void. At most `limit` matches
are looked for. -/
def between (r : Regular) : Nat → Option Char → Word → Word → List Word
  | 0, _, piece, cs => [piece ++ cs]
  | limit + 1, before, piece, cs =>
    match r.find false before cs with
    | none => [piece ++ cs]
    | some m =>
      if m.text ≠ [] then
        (piece ++ m.front) :: between r limit m.behind.before [] m.behind.rest
      else match m.behind.rest with
        | [] => [piece ++ m.front]
        | c :: rest => between r limit (some c) (piece ++ m.front ++ [c]) rest

/-- The fields of a text. -/
def fields (text : Word) : Divider → List Word
  | blanks => (Word.pieces isBlank text).filter fun w => w ≠ []
  | everywhere => text.map fun c => [c]
  | char c => if text = [] then [] else Word.pieces (fun d => d = c) text
  | pattern r => if text = [] then [] else between r (text.length + 1) none [] text

end Divider

/-- The record at the start of a text and the text behind it. Records end at a separator; without
one, they are the paragraphs of the text. -/
def takeRecord? (separator : Word) (text : Word) : Except String (Option (Word × Word)) :=
  match separator, text with
  | [], text =>
    match text.dropWhile (· = '\n') with
    | [] => .ok none
    | text => .ok (some (paragraph text))
  | _, [] => .ok none
  | [c], text =>
    let record := text.takeWhile (· ≠ c)
    .ok (some (record, text.drop (record.length + 1)))
  | separator, text =>
    (patternOf separator).map fun r =>
      match r.find false none text with
      | some m => if m.text = [] then some (text, []) else some (m.front, m.behind.rest)
      | none => some (text, [])
where
  /-- The lines up to the first void one, and what is behind that one. -/
  paragraph : Word → Word × Word
  | [] => ([], [])
  | '\n' :: '\n' :: rest => ([], rest.dropWhile (· = '\n'))
  | ['\n'] => ([], [])
  | c :: rest =>
    let (record, behind) := paragraph rest
    (c :: record, behind)

/-! ## State -/

/-- A table is shared by all of a script, or made for one call of a function. -/
inductive TableName where
  | shared (name : Word)
  | own (number : Nat)
  deriving DecidableEq, Repr

/-- A parameter of a function that is being called: its value, or the table it stands for. -/
structure Parameter where
  name : Word
  value : Value
  table : TableName

/-- A source that records are read from besides the input: a file, or what a command prints. -/
structure OpenSource where
  isCommand : Bool
  name : Word
  text : Word
  deriving DecidableEq, Repr

/-- A record script between two steps. -/
structure Recorder where
  functions : List Function
  call : Call
  /-- Runs a command line. -/
  shell : Call → Ran
  vars : List (Word × Value)
  tables : List (TableName × Table Value)
  params : List Parameter
  /-- How many tables have been made for calls. -/
  made : Nat
  record : Word
  fields : List Value
  /-- What is left of the file whose records are being read. -/
  current : Option Word
  /-- The number of the next operand, and whether one of them was a file. -/
  operand : Nat
  anyFile : Bool
  sources : List OpenSource
  /-- The files that have been printed to. -/
  files : List Word
  /-- What has been printed to each command. -/
  pipes : List (Word × List (List UInt8))
  held : List (List UInt8)
  /-- What has been printed, the last piece first. -/
  printed : List (Stream × List UInt8)
  seed : Nat
  /-- For each rule, whether the record lies in its range. -/
  inside : List Bool
  code : Nat

/-- How a script leaves what it is at. -/
inductive Leaving where
  | «break»
  | «continue»
  | next
  | nextFile
  | exit
  | «return» (value : Value)
  | failed

/-- Something that a script does. -/
abbrev Work (α : Type) := ExceptT Leaving (StateM Recorder) α

namespace Recorder

/-! ## Variables -/

/-- The value of a variable. -/
def value (r : Recorder) (name : Word) : Value :=
  match r.params.find? fun p => p.name = name with
  | some p => p.value
  | none =>
    if name = ['N', 'F'] then .number (Float.ofNat r.fields.length)
    else ((r.vars.find? fun v => v.1 = name).map Prod.snd).getD .unset

/-- The text of a variable of the script. -/
def textOf (r : Recorder) (name : String) : Word :=
  (r.value name.toList).toText "%.6g".toList

/-- The format in which numbers become texts. -/
def format (r : Recorder) : Word := r.textOf "CONVFMT"

/-- The text of a value. -/
def text (r : Recorder) (v : Value) : Word :=
  match v with
  | .number n => textOfNumber r.format n
  | v => v.toText []

/-- Gives a variable of the script a value. -/
def setVar (r : Recorder) (name : Word) (v : Value) : Recorder :=
  if r.vars.any fun old => old.1 = name then
    { r with vars := r.vars.map fun old => if old.1 = name then (name, v) else old }
  else { r with vars := r.vars ++ [(name, v)] }

/-- Counts one more of what a variable counts. -/
def countUp (r : Recorder) (name : String) : Recorder :=
  r.setVar name.toList (.number ((r.value name.toList).toNumber + 1.0))

/-! ## Tables -/

/-- The table that a name means. -/
def tableName (r : Recorder) (name : Word) : TableName :=
  match r.params.find? fun p => p.name = name with
  | some p => p.table
  | none => .shared name

/-- The table of a name. -/
def table (r : Recorder) (name : Word) : Table Value :=
  let known := r.tableName name
  ((r.tables.find? fun t => t.1 = known).map Prod.snd).getD .empty

/-- Puts a table in the place of that of a name. -/
def setTable (r : Recorder) (name : Word) (t : Table Value) : Recorder :=
  let known := r.tableName name
  { r with tables := (known, t) :: r.tables.filter fun old => old.1 ≠ known }

/-! ## Records -/

/-- The fields of a text as values. -/
def split (r : Recorder) (text : Word) : Except String (List Value) :=
  (Divider.ofText (r.textOf "FS")).map fun divider =>
    (divider.fields text).map .read

/-- The record that fields make. -/
def joined (r : Recorder) (fields : List Value) : Word :=
  List.intercalate (r.textOf "OFS") (fields.map r.text)

/-- Puts fields in the place of those of the record. -/
def setFields (r : Recorder) (fields : List Value) : Recorder :=
  { r with fields := fields, record := r.joined fields }

/-- Gives a field a value; there are as many fields as that needs. -/
def setField (r : Recorder) (index : Nat) (v : Value) : Recorder :=
  let missing := List.replicate (index - r.fields.length) (Value.text [])
  r.setFields ((r.fields ++ missing).set (index - 1) v)

/-- Makes so many fields. -/
def setCount (r : Recorder) (count : Nat) : Recorder :=
  let missing := List.replicate (count - r.fields.length) (Value.text [])
  r.setFields ((r.fields ++ missing).take count)

/-! ## Printing -/

/-- Prints to the output. -/
def out (r : Recorder) (bytes : List UInt8) : Recorder :=
  { r with held := bytes :: r.held }

/-- Prints a complaint. -/
def complain (r : Recorder) (message : String) : Recorder :=
  { r with printed := (.err, Word.bytesOf ("awk: " ++ message ++ "\n")) :: r.printed }

/-- Lets go of what is held back. -/
def flush (r : Recorder) : Recorder :=
  if r.held.isEmpty then r
  else { r with held := [], printed := (.out, r.held.reverse.flatten) :: r.printed }

/-- The disk and the input after another program has run, and what it has printed. -/
def takeOn (r : Recorder) (ran : Ran) : Recorder :=
  { r with
    call := { r.call with input := ran.rest, disk := { ran.disk with cwd := r.call.disk.cwd } }
    printed := ran.printed.reverse ++ r.printed }

/-- What a command line does with an input. -/
def running (r : Recorder) (command : Word) (input : List UInt8) : Ran :=
  r.shell { r.call with
    name := "/bin/sh".toList
    args := [['-', 'c'], command]
    input := input
    isFile := false }

/-- The number that tells how a program ended. -/
def codeOf : Status → Nat
  | .exited code => code
  | .killed signal => 256 + signal

/-- Runs the command that something has been printed to. -/
def closePipe (r : Recorder) (command : Word) (pieces : List (List UInt8)) : Nat × Recorder :=
  let left := r.call.input
  let ran := r.running command pieces.reverse.flatten
  (codeOf ran.status, r.takeOn { ran with rest := left })

/-- Ends a script: the commands are run, and what is held back is printed. -/
def close (r : Recorder) : Recorder :=
  let r := r.pipes.foldl (fun r (command, pieces) => (r.closePipe command pieces).2) r
  { r with pipes := [] }.flush

/-- What the script is at, as complaints tell it. -/
def whereabouts (r : Recorder) : String :=
  let shown := fun (name : String) => String.ofList (r.textOf name)
  "\tFILENAME=\"" ++ shown "FILENAME" ++ "\" FNR=" ++ shown "FNR" ++ " NR=" ++ shown "NR"

end Recorder

/-! ## Small works -/

namespace Work

/-- Changes what the script knows. -/
def change (f : Recorder → Recorder) : Work Unit :=
  modify f

/-- Complains and ends the script. -/
def fail {α : Type} (message : String) : Work α := do
  change fun r => { r.complain message with code := 2 }
  throw .failed

/-- Complains, tells what the script is at, and ends it. -/
def stumble {α : Type} (message : String) : Work α := do
  fail s!"run time error: {message}\n{(← get).whereabouts}"

/-- Takes a result, or ends the script. -/
def from? {α : Type} : Except String α → Work α
  | .ok a => pure a
  | .error message => stumble message

/-- Takes a text as the record. -/
def takeRecord (text : Word) : Work Unit := do
  let fields ← from? ((← get).split text)
  change fun r => { r with record := text, fields := fields }

/-- Gives a variable or a parameter a value. -/
def assign (name : Word) (v : Value) : Work Unit := do
  change fun r =>
    if r.params.any fun p => p.name = name then
      { r with params := r.params.map fun p => if p.name = name then { p with value := v } else p }
    else if name = ['N', 'F'] then r.setCount (wholeOf v.toNumber).toNat
    else r.setVar name v

/-! ### Reading -/

/-- The name and the value of an operand that gives a variable a value. -/
def assignment? (w : Word) : Option (Word × Word) :=
  let name := w.takeWhile (· ≠ '=')
  let isName := name.all Token.isNameChar && !(name.headD '0').isDigit
  if isName && name.length < w.length then
    some (name, Token.unescaped 0 (w.drop (name.length + 1)))
  else none

/-- Opens the file of an operand. -/
def openFile (w : Word) : Work Unit := do
  let r ← get
  match bytesNamed r.call w with
  | .ok bytes =>
    change fun r =>
      let isInput := w = ['-'] || w = "/dev/stdin".toList
      let r := if isInput then { r with call := { r.call with input := [] } } else r
      let r := { r with current := some (Word.ofBytes bytes), anyFile := true }
      (r.setVar "FILENAME".toList (.read w)).setVar "FNR".toList (.number 0.0)
  | .error e =>
    if isDirectoryError e then fail s!"read error ({reason e})"
    else fail s!"cannot open \"{String.ofList w}\" ({reason e})"

/-- The next record of the input, which goes on with the next operand where a file ends. -/
def nextRecord? : Nat → Work (Option Word)
  | 0 => return none
  | limit + 1 => do
    let r ← get
    match r.current with
    | some text =>
      match ← from? (takeRecord? (r.textOf "RS") text) with
      | some (record, rest) =>
        change fun r => ({ r with current := some rest }.countUp "NR").countUp "FNR"
        return some record
      | none =>
        change fun r => { r with current := none }
        nextRecord? limit
    | none =>
      let count := (wholeOf (r.value "ARGC".toList).toNumber).toNat
      if r.operand < count then
        let (found, _) := (r.table "ARGV".toList).use (.number r.operand)
        change fun r => { r with operand := r.operand + 1 }
        let word := (found.map fun i => r.text i.value).getD []
        match assignment? word with
        | some (name, v) => assign name (.read v)
        | none => if word ≠ [] then openFile word
        nextRecord? limit
      else if r.anyFile then return none
      else
        openFile ['-']
        nextRecord? limit

/-- The next record of a file or of what a command prints; none at its end, and an error if there is
no such file. -/
def recordFrom (isCommand : Bool) (name : Word) : Work (Except Errno (Option Word)) := do
  let r ← get
  let known := r.sources.find? fun s => s.isCommand = isCommand && s.name = name
  let opened ← match known with
    | some s => pure (Except.ok s.text)
    | none =>
      if isCommand then
        let r := r.flush
        let ran := r.running name r.call.input
        let shown := ran.printed.filter fun p => p.1 = .err
        set (r.takeOn { ran with printed := shown })
        pure (.ok (Word.ofBytes (ran.on .out)))
      else
        if name = ['-'] then change fun r => { r with call := { r.call with input := [] } }
        pure ((bytesNamed r.call name).map Word.ofBytes)
  match opened with
  | .error e => return .error e
  | .ok text =>
    let taken ← from? (takeRecord? (r.textOf "RS") text)
    let rest := (taken.map Prod.snd).getD []
    change fun r =>
      let others := r.sources.filter fun s => !(s.isCommand = isCommand && s.name = name)
      { r with sources := ⟨isCommand, name, rest⟩ :: others }
    return .ok (taken.map Prod.fst)

/-! ### Printing -/

/-- Prints bytes to a file. At first the file is made anew, unless the bytes are added to it. -/
def printToFile (adds : Bool) (name : Word) (bytes : List UInt8) : Work Unit := do
  let r ← get
  if name = ['-'] || name = "/dev/stdout".toList then set (r.out bytes)
  else if name = "/dev/stderr".toList then set { r with printed := (.err, bytes) :: r.printed }
  else if name ≠ "/dev/null".toList then
    let path := Word.path name
    let keeps := adds || r.files.contains name
    let before := if keeps then (r.call.disk.readBytes path).toOption.getD [] else []
    match r.call.disk.putBytes path (before ++ bytes) with
    | .ok disk =>
      set { r with
        call := { r.call with disk := disk }
        files := if r.files.contains name then r.files else name :: r.files }
    | .error e => fail s!"cannot open \"{String.ofList name}\" for output ({reason e})"

/-- Prints bytes to a command, which is run when it is closed. -/
def printToCommand (command : Word) (bytes : List UInt8) : Work Unit :=
  change fun r =>
    if r.pipes.any fun p => p.1 = command then
      { r with pipes := r.pipes.map fun p => if p.1 = command then (p.1, bytes :: p.2) else p }
    else { r.flush with pipes := r.pipes ++ [(command, [bytes])] }

/-- Closes a file or a command: how the command ended, or a negative number if nothing was open. -/
def close (name : Word) : Work Float := do
  let r ← get
  match r.pipes.find? fun p => p.1 = name with
  | some (command, pieces) =>
    let (code, r) := r.closePipe command pieces
    set { r with pipes := r.pipes.filter fun p => p.1 ≠ name }
    return Float.ofNat code
  | none =>
    let isOpen := r.files.contains name || r.sources.any fun s => s.name = name
    set { r with
      files := r.files.filter fun f => f ≠ name
      sources := r.sources.filter fun s => s.name ≠ name }
    return if isOpen then 0.0 else -1.0

end Work

end ArtifactSync.Process.Record
