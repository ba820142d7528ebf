import ArtifactSync.Process.Arithmetic
import ArtifactSync.Process.Shell.Builtin
import ArtifactSync.Process.Shell.Redirection
import ArtifactSync.Process.Tool.Records

/-!
# Running programs and scripts

A program is a tool, a launcher of other programs, a file that another program reads, or a shell. A
shell runs scripts: it expands words, sets up streams, and carries out commands one after another.
What happens apart from a shell, between parentheses or in a pipeline, happens in a copy of it, of
which the disk and all that was printed and read stay behind.

Every step uses up a bound on the number of steps, so a script that never ends is stopped.
-/

namespace ArtifactSync.Process

/-! ## Words that are handed on -/

/-- The pieces of a word in which a tilde at its start stands for the home directory. -/
def withHome (home : Option Word) : List Piece → List Piece
  | .text ('~' :: cs) false :: rest =>
    match home with
    | some home =>
      if cs.head? = some '/' || (cs = [] && rest = []) then
        .text home true :: (if cs = [] then rest else .text cs false :: rest)
      else .text ('~' :: cs) false :: rest
    | none => .text ('~' :: cs) false :: rest
  | pieces => pieces

/-- The pieces of a value that is assigned, in which a tilde behind any colon stands for the home
directory, too. -/
def withHomes (home : Option Word) (pieces : List Piece) : List Piece :=
  let parts := fun (cs : List Char) => Word.pieces (· == ':') cs
  withHome home <| pieces.flatMap fun piece =>
    match piece with
    | .text cs false =>
      match parts cs with
      | [] => [piece]
      | first :: rest =>
        let later := rest.flatMap fun part =>
          .text [':'] true :: withHome home (if part = [] then [] else [.text part false])
        (if first = [] && rest ≠ [] then [] else [.text first false]) ++ later
    | piece => [piece]

/-- The words that a text holds, with quotes and backslashes in it. -/
def quotedWords : Option Word → Option Char → Word → List Word
  | begun, _, [] => begun.toList
  | begun, some quote, c :: cs =>
    if c = quote then quotedWords (some (begun.getD [])) none cs
    else quotedWords (some (begun.getD [] ++ [c])) (some quote) cs
  | begun, none, '\\' :: c :: cs => quotedWords (some (begun.getD [] ++ [c])) none cs
  | begun, none, c :: cs =>
    if c = '\'' || c = '"' then quotedWords (some (begun.getD [])) (some c) cs
    else if Word.isBlank c then begun.toList ++ quotedWords none none cs
    else quotedWords (some (begun.getD [] ++ [c])) none cs

/-- A list in parts of so many members, at most `limit` parts. -/
def inParts (size : Nat) : Nat → List Word → List (List Word)
  | 0, _ => []
  | limit + 1, words =>
    if words.isEmpty then [] else words.take size :: inParts size limit (words.drop size)

/-- The commands that a launcher makes of the words of its input, and how many words stand in front
of them. -/
def commandsFor (o : Options) (input : List UInt8) : List (List Word) :=
  let command := if o.words.isEmpty then ["echo".toList] else o.words
  match o.value? 'I' with
  | some mark =>
    let lines := (byteLines input).map fun line => Word.trimStart (Word.ofBytes (body line))
    (lines.filter fun line => line ≠ []).map fun line =>
      command.map fun w => Text.replaceAll mark line w
  | none =>
    let text := Word.ofBytes input
    let words := if o.has '0' then
        (Word.pieces (fun c => c.toNat == 0) text).filter fun w => w ≠ []
      else quotedWords none none text
    let size := ((o.value? 'n').map countOf).getD words.length
    if words.isEmpty then (if o.has 'r' then [] else [command])
    else (inParts size words.length words).map fun part => command ++ part

/-- The variables that the options and words of a launcher ask for, and the words behind those. -/
def variablesFor (o : Options) (env : Environment) : Environment × List Word :=
  let start := if o.has 'i' then ⟨[]⟩ else env
  let start : Environment :=
    ⟨start.bindings.filter fun v => !(o.values 'u').contains v.1.toList⟩
  let given := o.words.takeWhile fun w => w.contains '='
  let env := given.foldl (fun (env : Environment) w =>
    let name := w.takeWhile (· ≠ '=')
    env.set (String.ofList name) (String.ofList (w.drop (name.length + 1)))) start
  (env, o.words.drop given.length)

/-! ## Loops -/

/-- Goes through a round of a loop, and tells whether there may be another one. -/
def inLoop (act : Act Bool) : Act Bool :=
  tryCatch act fun leaving =>
    match leaving with
    | .break levels => if levels ≤ 1 then return false else throw (.break (levels - 1))
    | .continue levels => if levels ≤ 1 then return true else throw (.continue (levels - 1))
    | leaving => throw leaving

/-- Does something with one more loop open. -/
def looping (act : Act Unit) : Act Unit :=
  Act.keeping Shell.loops (fun s old => { s with loops := old }) do
    Act.change fun s => { s with loops := s.loops + 1 }
    act

/-- Ends the script if the command in hand failed and that is not looked at. -/
def checkFailure : Act Unit := do
  let s ← get
  if s.has 'e' && !s.tested && s.status ≠ 0 then throw (.exit s.status)

/-- Takes on the status with which a program ended, and tells if a signal has ended it. -/
def settle (status : Status) : Act Unit := do
  match status.farewell? with
  | some text => Act.change fun s => s.print 2 (Word.bytesOf (text ++ "\n"))
  | none => pure ()
  Act.ends status.code

/-- Passes on the signals that were sent to a shell from shells apart. -/
def deliver (posted : List Nat) : Act Unit := do
  if (← get).apart then Act.change fun s => { s with posted := s.posted ++ posted }
  else posted.forM Act.signals

/-- Does something whose complaints do not end the script. -/
def mayFail (act : Act Unit) : Act Unit :=
  tryCatch act fun leaving => if leaving = .failed then return else throw leaving

/-- Stops a script that takes too many steps. -/
def stopped {α : Type} : Act α :=
  throw (.exit 124)

/-! ## Values -/

/-- The variables of a shell as sums use them. -/
def sumVariables : Variables Shell where
  value s name := (s.value? name).getD []
  assign s name n :=
    if s.isReadOnly name then .error (.readOnly name)
    else .ok (s.setVariable name (toString n).toList false)

/-- Complains about a parameter that has no value, if options forbid to use it. -/
def checkValue (name : List Char) (value : Option Word) : Act Unit := do
  if value.isNone && (← get).has 'u' && name ≠ ['@'] && name ≠ ['*'] then
    Act.fails s!"{String.ofList name}: parameter not set"

/-- The words that cells make: their fields, and in place of patterns the names of files. -/
def wordsOf (cells : List Cell) : Act (List Word) := do
  let s ← get
  let fields := fieldsOf s.separators cells
  return if s.has 'f' then fields.map fun f => f.map Prod.fst
    else fields.flatMap (namesFor s.disk)

/-! ## Running -/

mutual

/-- Runs the program that the name of a call means: how it ended, and what it has done. -/
def runProgram : Nat → Call → Except Errno Ran
  | 0, c => .ok (c.complains "stopped" 124)
  | steps + 1, c =>
    (findProgram c.disk c.env c.name).bind fun (place, program) => runFound steps place program c

/-- Runs a program that was found at a place. -/
def runFound : Nat → Word → Program → Call → Except Errno Ran
  | 0, _, _, c => .ok (c.complains "stopped" 124)
  | steps + 1, place, program, c =>
    match program with
    | .tool run => .ok (run c)
    | .shell => .ok (runShell steps c)
    | .launcher .env =>
      .ok <| c.withOptions ⟨"i0v", "uC", [("ignore-environment", 'i'), ("unset", 'u')], false⟩ 125
        fun o =>
          let (env, words) := variablesFor o c.env
          match words with
          | [] =>
            let lines := env.bindings.flatMap fun v => Word.bytesOf (v.1 ++ "=" ++ v.2 ++ "\n")
            { c.prints lines 0 with rest := c.input }
          | name :: args => launch steps "" { c with env := env } name args
    | .launcher .xargs =>
      .ok <| c.withOptions ⟨"0rtx", "nILPds", [("null", '0'), ("no-run-if-empty", 'r')], false⟩ 1
        fun o =>
          let empty : Call := { c with input := [] }
          let ran := (commandsFor o c.input).foldl (fun (ran : Ran) words =>
            let inside := { empty with disk := ran.disk }
            let next := launch steps "" inside (words.headD []) (words.drop 1)
            -- a program that fails does not keep the others from being run
            let status := if next.status = .exited 0 then ran.status
              else if next.status.code < 126 then .exited 123
              else next.status
            { next with status := status, printed := ran.printed ++ next.printed })
            (empty.prints [] 0)
          { ran with rest := [] }
    | .launcher (.plain valued skipped) =>
      .ok <| c.withOptions ⟨"fv", valued, [], false⟩ 125 fun o =>
        match o.words.drop skipped with
        | [] => c.refuses "missing operand" 125
        | name :: args =>
          launch steps (if valued = "n" then "" else "failed to run command ") c name args
    | .finder =>
      let found := c.args.map fun w => placeOf? c.disk c.env w
      let lines := found.flatMap fun place =>
        Word.bytes ((place.map fun p => p ++ ['\n']).getD [])
      .ok { c.prints lines (if found.all Option.isSome then 0 else 1) with rest := c.input }
    | .records => .ok (awk (runShell steps) c)
    | .script interpreter argument =>
      (programAt c.disk interpreter).bind fun program =>
        runFound steps interpreter program
          { c with name := interpreter, args := argument.toList ++ place :: c.args }

/-- Runs a program on behalf of another one, which complains if it cannot. -/
def launch : Nat → String → Call → Word → List Word → Ran
  | 0, _, c, _, _ => c.complains "stopped" 124
  | steps + 1, failure, c, name, args =>
    match runProgram steps { c with name := name, args := args } with
    | .ok ran => ran
    | .error .execFormat => runShell steps { c with name := "sh".toList, args := name :: args }
    | .error e =>
      c.complains s!"{failure}{plainQuoted name}: {reason e}" (if e = .noEntry then 127 else 126)

/-- Runs a shell: a script in its words, in a file, or in its input. -/
def runShell : Nat → Call → Ran
  | 0, c => c.complains "stopped" 124
  | steps + 1, c =>
    let (ended, s) := Act.runIn (Shell.start c) (runToEnd steps (obey steps c))
    let status := match ended with
      | .ok status => status
      | .error _ => .exited s.status
    ⟨status, s.printed.reverse, (s.sources.headD ⟨[], false⟩).bytes, s.disk⟩

/-- Does what a shell is told by the words behind its name. -/
def obey : Nat → Call → Act Unit
  | 0, _ => stopped
  | steps + 1, c => do
    let set ← setOptions true (c.args.length + 1) ⟨false, false, c.args⟩
    let begin := fun (name : Word) (params : List Word) =>
      Act.change fun s => { s with name := name, params := params }
    match set.words with
    | script :: words =>
      if set.isScript then
        begin (words.headD c.name) (words.drop 1)
        runScript steps (parseScript script)
      else if (← get).has 's' then
        begin c.name set.words
        runInput steps
      else
        match c.disk.readBytes (Word.path script) with
        | .error .isDirectory => Act.ends 0
        | .error e =>
          let why := reasonOf "No such file" e
          Act.fails s!"cannot open {String.ofList script}: {why}"
        | .ok bytes =>
          begin script words
          runScript steps (parseScript (Word.ofBytes bytes))
    | [] =>
      if set.isScript then Act.fails "-c requires an argument"
      else
        setOption true 's'
        runInput steps

/-- Runs the script that the input is. -/
def runInput : Nat → Act Unit
  | 0 => stopped
  | steps + 1 => do
    let script := (← get).input.bytes
    Act.change fun s => s.leaveInput []
    runScript steps (parseScript (Word.ofBytes script))

/-- Does something as a shell of its own, and then what is arranged for its end: how it ended. -/
def runToEnd : Nat → Act Unit → Act Status
  | 0, _ => stopped
  | steps + 1, act => do
    let ended ← tryCatch (do act; return none) fun leaving => return some leaving
    match ended with
    | some (.killed signal) => return .killed signal
    | some (.replaced status) => return status
    | leaving =>
      match leaving with
      | some (.exit code) => Act.ends code
      | _ => pure ()
      let s ← get
      match s.traps.find? fun t => t.1 = 0 with
      | none => return .exited (s.status % 256)
      | some (_, script) =>
        Act.change fun s => { s with traps := s.traps.filter fun t => t.1 ≠ 0, loops := 0 }
        let last ← tryCatch (do runScript steps (parseScript script); return none) fun leaving =>
          return some leaving
        match last with
        | some (.exit code) => return .exited (code % 256)
        | some (.killed signal) => return .killed signal
        | some (.replaced status) => return status
        | _ => return .exited (s.status % 256)

/-- Does something in a shell apart that is made of this one: how it ended, and which signals it has
sent to this one. -/
def runApart : Nat → (Shell → Shell) → Act Unit → Act (Status × List Nat)
  | 0, _, _ => stopped
  | steps + 1, prepare, act => do
    let s ← get
    let inside := prepare { s with
      apart := true
      traps := s.traps.filter fun t => t.2 = []
      pending := []
      posted := [] }
    let (ended, other) := Act.runIn inside (runToEnd steps act)
    set { s with
      disk := { other.disk with cwd := s.disk.cwd }
      sources := other.sources
      buffers := other.buffers
      printed := other.printed }
    match ended with
    | .ok status => return (status, other.posted)
    | .error _ => return (.exited other.status, other.posted)

/-- Runs the scripts for the signals that have come in. -/
def seeToSignals : Nat → Act Unit
  | 0 => return
  | steps + 1 => do
    let s ← get
    match s.pending with
    | [] => return
    | signal :: rest => do
      Act.change fun s => { s with pending := rest }
      match s.traps.find? fun t => t.1 = signal with
      | some (_, script) =>
        Act.keeping Shell.status (fun s old => { s with status := old })
          (runScript steps (parseScript script))
      | none => pure ()
      seeToSignals steps

/-- Runs the lines of a script one after another, and complains where it cannot be understood. -/
def runScript : Nat → Script → Act Unit
  | 0, _ => stopped
  | steps + 1, script => do
    match script.commands with
    | command :: rest =>
      runCommand steps command
      runScript steps { script with commands := rest }
    | [] =>
      match script.problem with
      | none => return
      | some problem =>
        let s ← get
        let label := if s.label = [] then "" else String.ofList s.label ++ ": "
        let message := String.ofList s.name ++ ": " ++ problem.report label ++ "\n"
        Act.change fun s => s.print 2 (Word.bytesOf message)
        Act.ends 2
        throw .failed

/-- Runs a script that stands in the place of a command. One that holds nothing ends well. -/
def runInstead : Nat → Script → Act Unit
  | 0, _ => stopped
  | steps + 1, script => do
    if script.commands.isEmpty then Act.ends 0
    runScript steps script

/-- What a script inside a word prints, without the line ends behind it. -/
def capture : Nat → Command → Act Word
  | 0, _ => stopped
  | steps + 1, command => do
    let (s, i) := (← get).newBuffer
    set s
    let prepare := fun (s : Shell) =>
      { s.setChannel 1 (some (.sink (.buffer i))) with tested := false }
    let (status, posted) ← runApart steps prepare (runCommand steps command)
    let before := (← get).status
    settle status
    Act.change fun s => { s with innerStatus := s.status, status := before }
    deliver posted
    let printed := Word.ofBytes (((← get).buffer i).filter (· ≠ 0))
    return Text.dropEndWhile (· == '\n') printed

/-- Expands pieces into cells. Only in full words may there be several fields. -/
def expand : Nat → Bool → List Piece → Act (List Cell)
  | 0, _, _ => stopped
  | _ + 1, _, [] => return []
  | steps + 1, full, piece :: rest => do
    let cells ← match piece with
      | .text text quoted =>
        let chars := text.map fun c => Cell.char c (if quoted then .quoted else .plain)
        -- all parameters between quotes are no field if there are none
        let isOpening := quoted && text = [] && rest.head? = some (.value ['@'] .plain true)
        pure (if quoted && !(full && isOpening) then .mark :: chars else chars)
      | .value name handling quoted => expandValue steps full name handling quoted
      | .output script _ line quoted =>
        let printed ← capture steps (parseInside script line)
        pure (cellsOf quoted printed)
      | .sum text quoted =>
        let text := textOf (← expand steps false (piecesOfWord true text))
        match reckon sumVariables (← get) text with
        | .ok (n, s) =>
          set s
          pure (cellsOf quoted (toString n).toList)
        | .error problem => Act.fails (problem.report text)
    let more ← expand steps full rest
    return cells ++ more

/-- Expands the value of a parameter into cells. -/
def expandValue : Nat → Bool → List Char → Handling → Bool → Act (List Cell)
  | 0, _, _, _, _ => stopped
  | steps + 1, full, name, handling, quoted => do
    let s ← get
    let value := s.value? name
    match handling with
    | .plain =>
      checkValue name value
      if full && (name = ['@'] || (name = ['*'] && !quoted)) then
        return cellsOfAll quoted s.params
      else return cellsOf quoted (value.getD [])
    | .length =>
      checkValue name value
      return cellsOf quoted (toString (value.getD []).length).toList
    | .missing how orEmpty word =>
      let lacking := value.isNone || (orEmpty && value = some [])
      if how = .keep && lacking then return []
      else if how ≠ .keep && !lacking then expandValue steps full name .plain quoted
      else
        let pieces := piecesOfWord quoted word
        let pieces := if quoted then pieces else withHome (s.held? "HOME".toList) pieces
        match how with
        | .assign =>
          let text := textOf (← expand steps false pieces)
          if !isName name then Act.fails s!"{String.ofList name}: bad variable name"
          Act.assigns name text false
          return cellsOf quoted text
        | .complain =>
          let text := textOf (← expand steps false pieces)
          let usual := if orEmpty then "parameter not set or null" else "parameter not set"
          let why := if word = [] then usual else String.ofList text
          Act.fails s!"{String.ofList name}: {why}"
        | _ =>
          let cells ← expand steps full pieces
          return if quoted then .mark :: cells else .border :: cells.map Cell.asValue
    | .trim atEnd longest pattern =>
      checkValue name value
      let cells ← expand steps false (piecesOfWord false pattern)
      return cellsOf quoted (trimWild atEnd longest (wilds 0 (markedOf cells)) (value.getD []))
    | .unknown => Act.fails "Bad substitution"

/-- Expands a word as one text. -/
def expandText : Nat → List Piece → Act Word
  | 0, _ => stopped
  | steps + 1, pieces => do
    let home := (← get).held? "HOME".toList
    return textOf (← expand steps false (withHome home pieces))

/-- Expands a value that is assigned. -/
def expandAssigned : Nat → List Piece → Act Word
  | 0, _ => stopped
  | steps + 1, pieces => do
    let home := (← get).held? "HOME".toList
    return textOf (← expand steps false (withHomes home pieces))

/-- Expands the words of a command, of which some are known already. -/
def expandWords : Nat → List Word → List (List Piece) → Act (List Word)
  | 0, _, _ => stopped
  | _ + 1, known, [] => return known
  | steps + 1, known, pieces :: rest => do
    let command := known.find? fun w => w ≠ "command".toList
    let assigned := if command.any Builtin.takesAssignments then assignment? pieces else none
    match assigned with
    | some (name, value) =>
      let value ← expandAssigned steps value
      expandWords steps (known ++ [name ++ '=' :: value]) rest
    | none =>
      let home := (← get).held? "HOME".toList
      let words ← wordsOf (← expand steps true (withHome home pieces))
      expandWords steps (known ++ words) rest

/-- Expands the values of assignments. -/
def expandAssignments : Nat → List (List Char × List Piece) → Act (List (List Char × Word))
  | 0, _ => stopped
  | _ + 1, [] => return []
  | steps + 1, (name, pieces) :: rest => do
    let value ← expandAssigned steps pieces
    let more ← expandAssignments steps rest
    return (name, value) :: more

/-- Carries out redirections one after another, and tells whether that could be done. -/
def redirectAll : Nat → List Redirect → Act Bool
  | 0, _ => stopped
  | _ + 1, [] => return true
  | steps + 1, r :: rest => do
    let target ← if r.direction = .document then do
        pure (textOf (← expand steps false r.target))
      else expandText steps r.target
    if ← redirect r.stream r.direction target then redirectAll steps rest else return false

/-- Whether a word matches one of some patterns. -/
def matchesAny : Nat → Word → List (List Piece) → Act Bool
  | 0, _, _ => stopped
  | _ + 1, _, [] => return false
  | steps + 1, word, pattern :: rest => do
    let cells ← expand steps false pattern
    if wildMatch (wilds 0 (markedOf cells)) word then return true
    else matchesAny steps word rest

/-- Runs a command, and then what is arranged for the signals that came in meanwhile. -/
def runCommand : Nat → Command → Act Unit
  | 0, _ => stopped
  | steps + 1, command => do
    match command with
    | .nothing => return
    | .sequence first .always second =>
      runCommand steps first
      runCommand steps second
    | .sequence first joint second =>
      Act.tested (runCommand steps first)
      if ((← get).status = 0) = (joint = .ifWell) then runCommand steps second
    | .not inner =>
      Act.tested (runCommand steps inner)
      Act.change fun s => { s with status := if s.status = 0 then 1 else 0 }
    | .aside inner =>
      let (status, posted) ← runApart steps (Shell.readFrom · 0 ⟨[], false⟩)
        (runCommand steps inner)
      Act.change fun s =>
        { s with jobs := ⟨shellProcess + s.jobs.length + 1, status⟩ :: s.jobs, status := 0 }
      deliver posted
    | .pipe first second =>
      let (s, i) := (← get).newBuffer
      set s
      let (left, sent) ← runApart steps (Shell.setChannel · 1 (some (.sink (.buffer i))))
        (runCommand steps first)
      settle left
      let between := (← get).buffer i
      let (right, posted) ← runApart steps (Shell.readFrom · 0 ⟨between, false⟩)
        (runCommand steps second)
      settle right
      deliver (sent ++ posted)
      checkFailure
    | .ifThen condition inner other =>
      Act.tested (runCommand steps condition)
      if (← get).status = 0 then runCommand steps inner
      else
        Act.ends 0
        runCommand steps other
    | .loop untilWell condition inner => looping (runLoop steps untilWell condition inner 0)
    | .forEach line name words inner =>
      Act.change fun s => { s with line := line }
      let values ← expandWords steps [] words
      Act.ends 0
      looping (runEach steps name values inner)
    | .choose line word arms =>
      Act.change fun s => { s with line := line }
      let word ← expandText steps word
      Act.ends 0
      runArms steps word arms
    | .define name inner =>
      Act.change fun s =>
        { s with
          functions := (name, inner) :: s.functions.filter fun f => f.1 ≠ name
          status := 0 }
    | .group line apart inner redirects =>
      if !redirects.isEmpty then Act.change fun s => { s with line := line }
      Act.keeping Shell.streams (fun s old => { s with streams := old }) do
        if !(← redirectAll steps redirects) then
          Act.ends 2
          if apart then checkFailure
        else if apart then
          let (status, posted) ← runApart steps id (runCommand steps inner)
          settle status
          deliver posted
          checkFailure
        else runCommand steps inner
    | .simple line assignments words redirects =>
      Act.change fun s => { s with line := line, innerStatus := 0 }
      runSimple steps assignments (← expandWords steps [] words) redirects
      checkFailure
    seeToSignals steps

/-- Runs a command over and over, as long as another one ends well, or until it does. The status is
that of the last round. -/
def runLoop : Nat → Bool → Command → Command → Nat → Act Unit
  | 0, _, _, _, _ => stopped
  | steps + 1, untilWell, condition, inner, status => do
    let again ← inLoop do
      Act.tested (runCommand steps condition)
      if ((← get).status = 0) = untilWell then
        Act.ends status
        return false
      else
        runCommand steps inner
        return true
    if again then runLoop steps untilWell condition inner (← get).status

/-- Runs a command once for each value of a variable. -/
def runEach : Nat → List Char → List Word → Command → Act Unit
  | 0, _, _, _ => stopped
  | _ + 1, _, [], _ => return
  | steps + 1, name, value :: values, inner => do
    Act.assigns name value false
    let again ← inLoop do
      runCommand steps inner
      return true
    if again then runEach steps name values inner

/-- Runs the first of some arms whose patterns match a word. -/
def runArms : Nat → Word → List (List (List Piece) × Command) → Act Unit
  | 0, _, _ => stopped
  | _ + 1, _, [] => return
  | steps + 1, word, (patterns, inner) :: rest => do
    if ← matchesAny steps word patterns then runCommand steps inner else runArms steps word rest

/-- Runs a command of assignments, words and redirections. The streams stay as they are redirected
if the shell is told so. -/
def runSimple : Nat → List (List Char × List Piece) → List Word → List Redirect → Act Unit
  | 0, _, _, _ => stopped
  | steps + 1, assignments, words, redirects => do
    let before := (← get).streams
    let restore := Act.change fun s => { s with streams := before }
    let stays ← tryCatch (do
      if !(← redirectAll steps redirects) then
        Act.ends 2
        if words.head?.any Builtin.isSpecial then throw .failed
        return false
      else
        let values ← expandAssignments steps assignments
        let s ← get
        if s.has 'x' then
          let shown := joinWords (values.map (fun v => v.1 ++ '=' :: v.2) ++ words)
          let mark := (s.held? "PS4".toList).getD []
          Act.change fun s =>
            { { s with streams := before }.print 2 (Word.bytes (mark ++ shown ++ ['\n'])) with
              streams := s.streams }
        match words with
        | [] =>
          values.forM fun v => Act.assigns v.1 v.2 false
          Act.ends (← get).innerStatus
          return false
        | word :: args =>
          if Builtin.isSpecial word then
            values.forM fun v => Act.assigns v.1 v.2 (word = "exec".toList)
            runOwn steps word args
            return word = "exec".toList
          else
            let olds := values.map fun v => (v.1, s.bindings.find? fun b => b.name = v.1)
            values.forM fun v => Act.assigns v.1 v.2 true
            runNamed steps word args
            Act.change fun s => olds.foldl (fun s v => s.restore v.1 v.2) s
            return false) fun leaving => do
      restore
      throw leaving
    if !stays then restore

/-- Runs what a word names: a function, a command of the shell, or a program. -/
def runNamed : Nat → Word → List Word → Act Unit
  | 0, _, _ => stopped
  | steps + 1, word, args => do
    match (← get).functions.find? fun f => f.1 = word with
    | some (_, inner) => runFunction steps inner args
    | none =>
      if Builtin.isKnown word then mayFail (runOwn steps word args)
      else runOther steps word args

/-- Runs a function with parameters of its own. -/
def runFunction : Nat → Command → List Word → Act Unit
  | 0, _, _ => stopped
  | steps + 1, inner, args => do
    let outer ← get
    let leave := Act.change fun s =>
      let own := s.scopes.headD []
      let s := own.foldl (fun s v => s.restore v.1 v.2) s
      { s with params := outer.params, loops := outer.loops, scopes := outer.scopes }
    Act.change fun s => { s with params := args, loops := 0, scopes := [] :: s.scopes }
    tryCatch (runCommand steps inner) fun leaving => do
      if leaving ≠ .return then
        leave
        throw leaving
    leave

/-- Runs a command that is no function, and which complaints do not name; or tells what it is. -/
def runPlainly : Nat → List Word → Act Unit
  | 0, _ => stopped
  | steps + 1, args => do
    let o ← Act.labelled "command".toList (optionsOf "pvV" "" args)
    Act.ends 0
    match o.words with
    | [] => return
    | word :: args =>
      if o.has 'v' || o.has 'V' then Builtin.tellOf (o.has 'V') word
      else if Builtin.isKnown word then runOwn steps word args
      else runOther steps word args

/-- Runs a command of the shell, which complaints name. -/
def runOwn : Nat → Word → List Word → Act Unit
  | 0, _, _ => stopped
  | steps + 1, word, args => do
    let named := Act.labelled word
    match Builtin.all.find? fun b => b.1.toList = word with
    | some (_, act) => named (act args)
    | none =>
      match String.ofList word with
      | "eval" => named (runInstead steps (parseScript (joinWords args)))
      | "." => named (runFile steps args)
      | "exec" => named (runLast steps args)
      | "command" => runPlainly steps args
      | _ => named do
        Act.ends 0
        args.forM (Builtin.tellOf true)

/-- Runs the script that a file holds. A name without a slash is looked for where programs are. -/
def runFile : Nat → List Word → Act Unit
  | 0, _ => stopped
  | steps + 1, args => do
    match args with
    | [] => Act.ends 0
    | file :: _ =>
      let s ← get
      let places := placesFor s.search file
      let place? := if file.contains '/' then some file
        else places.find? fun p => s.disk.isFile (Word.path p)
      match place? with
      | none => Act.fails s!"{String.ofList file}: not found"
      | some place =>
        match s.disk.readBytes (Word.path place) with
        | .error .isDirectory => Act.ends 0
        | .error e =>
          let why := reasonOf "No such file" e
          Act.fails s!"cannot open {String.ofList file}: {why}"
        | .ok bytes =>
          let script := parseScript (Word.ofBytes bytes)
          Act.labelled file <| tryCatch (runInstead steps script) fun leaving =>
            if leaving = .return then return else throw leaving

/-- Runs a program in the place of the shell. Without one, only the redirections stay. -/
def runLast : Nat → List Word → Act Unit
  | 0, _ => stopped
  | steps + 1, args => do
    match args with
    | [] => Act.ends 0
    | word :: args =>
      match ← runOutside steps word args with
      | some status => throw (.replaced status)
      | none => throw (.exit (← get).status)

/-- Runs a program and takes on its status. -/
def runOther : Nat → Word → List Word → Act Unit
  | 0, _, _ => stopped
  | steps + 1, word, args => do
    match ← runOutside steps word args with
    | some status => settle status
    | none => return

/-- Runs a program: how it ended, if it could be run. Otherwise the status tells why not. -/
def runOutside : Nat → Word → List Word → Act (Option Status)
  | 0, _, _ => stopped
  | steps + 1, word, args => do
    let s ← get
    let input := s.input
    let call : Call :=
      ⟨word, args, input.bytes, input.isFile, s.environment, s.disk, s.ignored⟩
    let ran := (findProgram s.disk s.search word).bind fun (place, program) =>
      runFound steps place program call
    let ran : Except Errno Ran := match ran with
      -- a file that names no interpreter is a script of this shell
      | .error .execFormat =>
        let place := (placeOf? s.disk s.search word).getD word
        .ok (runShell steps { call with args := place :: args })
      | ran => ran
    match ran with
    | .error e =>
      let why := reasonOf "not found" e
      Act.complains s!"{String.ofList word}: {why}"
      let isMissing := e = .noEntry || e = .notDirectory || e = .nameTooLong || e = .tooManyLinks
      Act.ends (if isMissing then 127 else 126)
      return none
    | .ok ran =>
      Act.change fun s =>
        let s := { s with disk := { ran.disk with cwd := s.disk.cwd } }.leaveInput ran.rest
        ran.printed.foldl (fun s (stream, bytes) =>
          s.print (if stream = .out then 1 else 2) bytes) s
      return some ran.status

end

end ArtifactSync.Process
