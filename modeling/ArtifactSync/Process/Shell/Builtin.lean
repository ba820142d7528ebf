import ArtifactSync.Process.Program
import ArtifactSync.Process.Shell.Field
import ArtifactSync.Process.Shell.Options

/-!
# Commands of the shell

The commands that a shell carries out itself, apart from those that run other commands. Each of them
takes on a status at its end. A complaint ends a command, and with it the script if the command is
one of those by which a shell steers itself.
-/

namespace ArtifactSync.Process

/-- A command of the shell: what it does with the words behind its name. -/
abbrev Builtin := List Word → Act Unit

namespace Builtin

/-! ## Variables -/

/-- A value between quotes as a shell shows it: quotes in it stand between quotes of the other kind.
At most so many parts of it are shown. -/
def valueShown : Nat → Word → List Char
  | 0, _ => []
  | limit + 1, w =>
    let text := w.takeWhile (· ≠ '\'')
    let rest := w.drop text.length
    let quotes := rest.takeWhile (· = '\'')
    let behind := rest.drop quotes.length
    '\'' :: text ++ '\'' :: (if quotes = [] then []
      else '"' :: quotes ++ '"' :: (if behind = [] then [] else valueShown limit behind))

/-- Shows variables in the order of their names, each behind a text. -/
def showVariables (front : String) (shown : Binding → Bool) : Act Unit := do
  let found := (← get).bindings.filter shown
  let sorted := found.mergeSort fun a b => Word.comesNoLater a.name b.name
  Act.prints <| sorted.flatMap fun v =>
    let value := match v.value with
      | some w => '=' :: valueShown (w.length + 1) w
      | none => []
    Word.bytes (front.toList ++ v.name ++ value ++ ['\n'])
  Act.ends 0

/-- Gives the variable that a word of the form `name=value` names its value, and marks it. Without a
value it is only marked. -/
def declareVariable (exported readOnly : Bool) (w : Word) : Act Unit := do
  let name := w.takeWhile (· ≠ '=')
  if !isName name then Act.fails s!"{String.ofList name}: bad variable name"
  if name.length < w.length then Act.assigns name (w.drop (name.length + 1)) exported
  Act.change fun s =>
    let old := s.bindings.find? fun v => v.name = name
    s.restore name <| some ⟨name, old.bind Binding.value, exported || old.any Binding.exported,
      readOnly || old.any Binding.readOnly⟩

/-- Marks variables, or shows the ones that are marked. -/
def declaring (exported readOnly : Bool) : Builtin := fun args => do
  let o ← optionsOf "p" "" args
  if o.has 'p' || o.words.isEmpty then
    if exported then showVariables "export " Binding.exported
    else showVariables "readonly " Binding.readOnly
  else
    o.words.forM (declareVariable exported readOnly)
    Act.ends 0

/-- Makes variables the own ones of a function. -/
def «local» : Builtin := fun args => do
  args.forM fun w => do
    let name := w.takeWhile (· ≠ '=')
    match (← get).scopes with
    | [] => Act.fails "not in a function"
    | scope :: outer =>
      if !isName name then Act.fails s!"{String.ofList name}: bad variable name"
      if !scope.any (fun v => v.1 = name) then
        Act.change fun s =>
          { s with scopes := ((name, s.bindings.find? fun v => v.name = name) :: scope) :: outer }
      if name.length < w.length then Act.assigns name (w.drop (name.length + 1)) false
  Act.ends 0

/-- Takes variables or functions away. -/
def unset : Builtin := fun args => do
  let o ← optionsOf "vf" "" args
  o.words.forM fun name => do
    if o.has 'f' then
      Act.change fun s => { s with functions := s.functions.filter fun f => f.1 ≠ name }
    else if !isName name then Act.fails s!"{String.ofList name}: bad variable name"
    else if (← get).isReadOnly name then Act.fails s!"{String.ofList name}: is read only"
    else Act.change fun s => s.restore name none
  Act.ends 0

/-- Sets options and parameters, or shows all variables. -/
def set : Builtin := fun args => do
  if args.isEmpty then showVariables "" fun v => v.value.isSome
  else
    let set ← setOptions false (args.length + 1) ⟨false, false, args⟩
    if set.endMarked || !set.words.isEmpty then
      Act.change fun s => { s with params := set.words }
    Act.ends 0

/-- Drops parameters. -/
def shift : Builtin := fun args => do
  let count ← match args with
    | [] => pure 1
    | w :: _ => numberAsked w
  if count > (← get).params.length then Act.fails "can't shift that many"
  Act.change fun s => { s with params := s.params.drop count, status := 0 }

/-! ## Reading -/

/-- How many bytes a line takes with its end, if it has one. A line goes on behind an end that a
backslash stands in front of. -/
def lineLength? (raw : Bool) : Bool → List UInt8 → Option Nat
  | _, [] => none
  | shielded, b :: bs =>
    if b = 10 && !shielded then some 1
    else (lineLength? raw (!raw && b = 92 && !shielded) bs).map (· + 1)

/-- Reads a line of the input into variables. A line without an end is read too, but not well. -/
def read : Builtin := fun args => do
  let o ← optionsOf "r" "p" args
  if o.words.isEmpty then Act.fails "arg count"
  let s ← get
  let bytes := s.input.bytes
  let length? := lineLength? (o.has 'r') false bytes
  let line := Word.ofBytes ((bytes.take (length?.getD bytes.length)).filter (· ≠ 0))
  let line := if length?.isSome then line.dropLast else line
  let text := if o.has 'r' then line.map fun c => (c, false) else unshielded line
  Act.change fun s => s.leaveInput (bytes.drop (length?.getD bytes.length))
  let fields := splitLine s.separators o.words.length text
  (o.words.zip fields).forM fun (name, value) => do
    if !isName name then Act.fails s!"{String.ofList name}: bad variable name"
    Act.assigns name value false
  Act.ends (if length?.isSome then 0 else 1)

/-- Complains about the options that a script was given, in the short way. -/
def complainOfOption (message : String) : Act Unit :=
  Act.change fun s => s.print 2 (Word.bytesOf (message ++ "\n"))

/-- Looks for the next of the options that a script was given. -/
def getopts : Builtin := fun args => do
  match args with
  | known :: target :: given => do
    let s ← get
    let words := if given.isEmpty then s.params else given
    let quiet := known.head? = some ':'
    let index := ((s.held? "OPTIND".toList).map countOf).getD 1
    let word := if index = 0 then [] else (words[index - 1]?).getD []
    let finish := fun (letter : Char) (value : Option Word) (index place status : Nat) => do
      match value with
      | some value => Act.assigns "OPTARG".toList value false
      | none => Act.change fun s => s.restore "OPTARG".toList none
      Act.assigns target [letter] false
      Act.assigns "OPTIND".toList (toString index).toList false
      Act.change fun s => { s with optionPlace := place, status := status }
    let place := max s.optionPlace 1
    match word.drop place with
    | letter :: rest =>
      if s.optionPlace = 0 && (word.head? ≠ some '-' || word = ['-', '-']) then
        finish '?' none (if word = ['-', '-'] then index + 1 else index) 0 1
      else
        let next := if rest = [] then (index + 1, 0) else (index, place + 1)
        let signs := (known.dropWhile (· ≠ letter)).drop 1
        if letter = ':' || !known.contains letter then
          if quiet then finish '?' (some [letter]) next.1 next.2 0
          else
            complainOfOption s!"Illegal option -{letter}"
            finish '?' none next.1 next.2 0
        else if signs.head? ≠ some ':' then finish letter (some []) next.1 next.2 0
        else if rest ≠ [] then finish letter (some rest) (index + 1) 0 0
        else match words[index]? with
          | some value => finish letter (some value) (index + 2) 0 0
          | none =>
            if quiet then finish ':' (some [letter]) (index + 1) 0 0
            else
              complainOfOption s!"No arg for -{letter} option"
              finish '?' none (index + 1) 0 0
    | [] => finish '?' none index 0 1
  | _ => Act.fails "Usage: getopts optstring var [arg...]"

/-! ## Directories -/

/-- The directory that a path names, seen from another one by the names on the way. -/
def directoryFrom (start path : Word) : Word :=
  let pieces := fun (w : Word) => (Word.pieces (· == '/') w).filter fun p => p ≠ []
  let start := if path.head? = some '/' then [] else pieces start
  let names := (pieces path).foldl (fun names piece =>
    if piece = ['.'] then names
    else if piece = ['.', '.'] then names.dropLast
    else names ++ [piece]) start
  '/' :: List.intercalate ['/'] names

/-- Goes into a directory. -/
def changeDirectory : Builtin := fun args => do
  let o ← optionsOf "LP" "" args
  let s ← get
  let named := fun (name : String) => (s.held? name.toList).getD []
  let target := o.words.headD (named "HOME")
  let back := target = ['-'] && !o.words.isEmpty
  let target := if back then named "OLDPWD" else target
  let new := directoryFrom s.directory target
  match s.disk.enter (Word.path new) with
  | .error _ => Act.fails s!"can't cd to {String.ofList target}"
  | .ok disk =>
    let new := if o.has 'P' then Word.ofText disk.cwdPath.chars else new
    Act.change fun s =>
      let s := s.setVariable "OLDPWD".toList s.directory true
      { s.setVariable "PWD".toList new true with disk := disk, directory := new, status := 0 }
    if back then Act.prints (Word.bytes (new ++ ['\n']))

/-- Shows the working directory. -/
def workingDirectory : Builtin := fun args => do
  let o ← optionsOf "LP" "" args
  let s ← get
  let shown := if o.has 'P' then Word.ofText s.disk.cwdPath.chars else s.directory
  Act.prints (Word.bytes (shown ++ ['\n']))
  Act.ends 0

/-! ## Printing and asking -/

/-- Prints words under a format. -/
def printFormat : Builtin := fun args => do
  match (← optionsOf "" "" args).words with
  | [] => Act.fails "usage: printf format [arg ...]"
  | format :: words =>
    let s ← get
    let printer : Printer := ⟨.shell, fun message => (.err, s.complaint message)⟩
    let (printed, code) := printer.run format words
    printed.forM fun (stream, bytes) =>
      if stream = .err then Act.change fun s => s.print 2 bytes else Act.prints bytes
    Act.ends code

/-- Asks whether a condition holds. -/
def ask (name : String) : Builtin := fun args => do
  match insideBrackets? name.toList args with
  | none => Act.fails "missing ]"
  | some words =>
    match askShell (← get).disk words with
    | .ok holds => Act.ends (if holds then 0 else 1)
    | .error message => Act.fails message

/-! ## Signals -/

/-- Arranges what is done when signals come in, or shows what is arranged. -/
def trap : Builtin := fun args => do
  let words := (← optionsOf "" "" args).words
  match words with
  | [] =>
    let traps := (← get).traps.mergeSort fun a b => a.1 ≤ b.1
    Act.prints <| traps.flatMap fun (signal, script) =>
      Word.bytesOf s!"trap -- {String.ofList (valueShown (script.length + 1) script)} " ++
        Word.bytesOf (signalName signal ++ "\n")
    Act.ends 0
  | first :: rest => do
    let isReset := rest.isEmpty || (isNumber first && (signalOf? 0 first).isSome)
    let script := if isReset || first = ['-'] then none else some first
    Act.ends 0
    let known := (if isReset then words else rest).map fun w => (w, signalOf? 0 w)
    (known.takeWhile fun x => x.2.isSome).forM fun (_, signal) =>
      Act.change fun s =>
        let others := s.traps.filter fun t => some t.1 ≠ signal
        { s with traps := ((script.map fun w => (signal.getD 0, w)).toList) ++ others }
    match known.find? fun x => x.2.isNone with
    | some (w, _) =>
      Act.change fun s => s.print 2 (Word.bytesOf s!"trap: {String.ofList w}: bad trap\n")
      Act.ends 1
    | none => return

/-- Sends a signal to a program by its number. Of those that run aside, none is still there. -/
def sendSignal (signal : Nat) (w : Word) : Act Unit := do
  if w.head? = some '%' then Act.fails s!"No such job: {String.ofList w}"
  let group := w.head? = some '-'
  let number ← numberAsked (if group then w.drop 1 else w)
  let s ← get
  if number = shellProcess && !group then
    if signal = 0 then return
    else if s.apart then Act.change fun s => { s with posted := s.posted ++ [signal] }
    else Act.signals signal
  else if s.jobs.any fun job => job.number = number then
    if signal ≠ 0 then
      Act.change fun s => { s with jobs := s.jobs.map fun job =>
        if job.number = number then { job with status := .killed signal } else job }
  else
    Act.complains "No such process\n"
    Act.ends 1

/-- Sends signals, or shows their names. -/
def kill : Builtin := fun args => do
  let usage := "Usage: kill [-s sigspec | -signum | -sigspec] [pid | job]... or\n" ++
    "kill -l [exitstatus]"
  let (signal?, list, words) ← match args with
    | ('-' :: asked) :: words => do
      match (if asked = [] then none else signalOf? 1 asked) with
      | some signal => pure (some signal, false, words)
      | none =>
        let o ← optionsOf "l" "s" args
        match o.value? 's' with
        | none => pure (none, o.has 'l', o.words)
        | some w =>
          match signalOf? 1 w with
          | some signal => pure (some signal, o.has 'l', o.words)
          | none => Act.fails s!"invalid signal number or name: {String.ofList w}"
    | words => pure (none, false, words)
  if list then
    match signal?, words with
    | some _, _ => Act.fails usage
    | none, [] =>
      let names := (List.range (maxSignal + 1)).drop 1
      Act.tells ("0\n" ++ String.join (names.map fun n => signalName n ++ "\n"))
      Act.ends 0
    | none, w :: _ =>
      let n ← numberAsked w
      let n := if n > 128 then n - 128 else n
      if 0 < n && n ≤ maxSignal then
        Act.tells (signalName n ++ "\n")
        Act.ends 0
      else Act.fails s!"invalid signal number or exit status: {String.ofList w}"
  else
    if words.isEmpty then Act.fails usage
    Act.ends 0
    words.forM (sendSignal (signal?.getD 15))

/-- Waits for programs that run aside; they have all ended. -/
def wait : Builtin := fun args => do
  let o ← optionsOf "" "" args
  Act.ends 0
  o.words.forM fun w => do
    let number ← numberAsked w
    match (← get).jobs.find? fun job => job.number = number with
    | none => Act.ends 127
    | some job =>
      match job.status.farewell? with
      | some text => Act.change fun s => s.print 2 (Word.bytesOf (text ++ "\n"))
      | none => pure ()
      Act.ends job.status.code

/-! ## Going on elsewhere -/

/-- Ends the script. -/
def «exit» : Builtin := fun args => do
  match args with
  | [] => throw (.exit (← get).status)
  | w :: _ => throw (.exit (← numberAsked w))

/-- Ends the function. -/
def «return» : Builtin := fun args => do
  if let w :: _ := args then Act.ends (← numberAsked w)
  throw .return

/-- Leaves so many of the open loops, if there are any. -/
def leaveLoops (leaving : Nat → Leaving) : Builtin := fun args => do
  let count ← match args with
    | [] => pure 1
    | w :: _ => do
      let n ← numberAsked w
      if n = 0 then Act.fails s!"Illegal number: {String.ofList w}"
      pure n
  let s ← get
  Act.ends 0
  if s.loops > 0 then throw (leaving (min count s.loops))

/-! ## All commands -/

/-- Does nothing. -/
def idle (status : Nat) : Builtin := fun _ =>
  Act.ends status

/-- The commands that a shell carries out itself, apart from those that run other commands. -/
def all : List (String × Builtin) := [
  (":", idle 0), ("[", ask "["), ("alias", idle 0), ("break", leaveLoops .break),
  ("cd", changeDirectory), ("chdir", changeDirectory), ("continue", leaveLoops .continue),
  ("echo", fun args => do
    Act.prints (shellEcho args)
    Act.ends 0),
  ("exit", «exit»), ("export", declaring true false), ("false", idle 1), ("getopts", getopts),
  ("hash", idle 0), ("jobs", idle 0), ("kill", kill), ("local", «local»), ("printf", printFormat),
  ("pwd", workingDirectory), ("read", read), ("readonly", declaring false true),
  ("return", «return»), ("set", set), ("shift", shift), ("test", ask "test"), ("times", idle 0),
  ("trap", trap), ("true", idle 0), ("ulimit", fun _ => do
    Act.tells "unlimited\n"
    Act.ends 0),
  ("umask", fun args => do
    if args.isEmpty then Act.tells "0022\n"
    Act.ends 0),
  ("unalias", idle 0), ("unset", unset), ("wait", wait)]

/-- The commands that run other commands. -/
def running : List String :=
  [".", "command", "eval", "exec", "type"]

/-- Whether a word names a command that a shell carries out itself. -/
def isKnown (word : Word) : Bool :=
  all.any (fun b => b.1.toList = word) || running.any fun b => b.toList = word

/-- Whether a word names a command by which a shell steers itself: a complaint in it ends the
script, and assignments in front of it stay in force. -/
def isSpecial (word : Word) : Bool :=
  ownNames.any fun name => name.toList = word

/-- Whether a word names a command that takes assignments as its words. -/
def takesAssignments (word : Word) : Bool :=
  ["export", "readonly", "local"].any fun name => name.toList = word

/-- The words that have a meaning of their own at the start of a command. -/
def reservedWords : List (List Char) :=
  "in".toList :: (closers ++ openers)

/-- What stands behind a name, as a shell tells it: with so many words, or just enough to use it. -/
def tellOf (verbose : Bool) (word : Word) : Act Unit := do
  let s ← get
  let shown := String.ofList word
  let tell := fun (long : String) (short : String) => do
    Act.tells ((if verbose then shown ++ long else short) ++ "\n")
  if reservedWords.contains word then tell " is a shell keyword" shown
  else if s.functions.any fun f => f.1 = word then tell " is a shell function" shown
  else if isSpecial word then tell " is a special shell builtin" shown
  else if isKnown word then tell " is a shell builtin" shown
  else match placeOf? s.disk s.search word with
    | some place =>
      let place := String.ofList place
      tell s!" is {place}" place
    | none =>
      if verbose then Act.tells (shown ++ ": not found\n")
      Act.ends 127

end Builtin

end ArtifactSync.Process
