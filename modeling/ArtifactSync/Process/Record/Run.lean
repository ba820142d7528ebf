import ArtifactSync.Process.Record.State

/-!
# Running record scripts

The rules for the start are carried out first, then every rule for each record that it is for, and
the rules for the end at last. Every step uses up a bound on the number of steps, so a script that
never ends is stopped.
-/

namespace ArtifactSync.Process.Record

/-! ## Functions -/

/-- A number without its fraction. -/
def truncated (n : Float) : Float :=
  if n < 0.0 then n.ceil else n.floor

/-- What is left of a number when as many whole times of another one as possible are taken away; the
sign is that of the first. -/
def remainder (a b : Float) : Float :=
  match Fraction.ofFloat a, Fraction.ofFloat b with
  | .finite negative num den, .finite _ num' den' =>
    if num' = 0 then 0.0 / 0.0
    else
      let (n, d) := kept 53 (num * den' % (num' * den)) (den * den')
      (Fraction.finite negative n d).toFloat
  | .finite _ _ _, .infinite _ => a
  | _, _ => 0.0 / 0.0

/-- What an operator makes of two numbers. -/
def Operator.apply : Operator → Float → Float → Float
  | plus, a, b => a + b
  | minus, a, b => a - b
  | times, a, b => a * b
  | divided, a, b => a / b
  | modulo, a, b => remainder a b
  | power, a, b => a.pow b

/-- A part of a text from a place on, counted from one. A place in front of the text makes the part
as much longer as it lies in front of it, and is taken for the first one. -/
def part (w : Word) (start : Float) (length : Option Float) : Word :=
  let start := wholeOf start
  let behind := w.drop (max start 1 - 1).toNat
  match length with
  | none => behind
  | some length =>
    let length := wholeOf length
    behind.take (if start < 1 then length - start else length).toNat

/-- The first place of a text in another one, counted from one; zero if it is not in it. -/
def placeOf (sought : Word) : Nat → Word → Nat
  | n, [] => if sought = [] then n else 0
  | n, c :: cs => if sought.isPrefixOf (c :: cs) then n else placeOf sought (n + 1) cs

/-- The text that is put in the place of a match. An ampersand stands for the match; in front of it,
two backslashes stand for one, and a single one takes away its meaning. -/
def newText (matched : Word) : Nat → Word → Word
  | slashes, [] => List.replicate slashes '\\'
  | slashes, c :: cs =>
    if c = '\\' then newText matched (slashes + 1) cs
    else if c = '&' then
      List.replicate (slashes / 2) '\\' ++
        (if slashes % 2 = 1 then [c] else matched) ++ newText matched 0 cs
    else List.replicate slashes '\\' ++ c :: newText matched 0 cs

/-- Puts a text in the place of the first match of a pattern, or of all matches: the new text, and
how many matches there are. A match of nothing does not count right behind another one. At most
`limit` matches are looked for. -/
def replaced (r : Regular) (new : Word) (everywhere : Bool) :
    Nat → Option Char → Bool → Word → Word × Nat
  | 0, _, _, cs => (cs, 0)
  | limit + 1, before, behindMatch, cs =>
    match r.find false before cs with
    | none => (cs, 0)
    | some m =>
      let counts := !(m.text.isEmpty && behindMatch && m.front.isEmpty)
      let shown := m.front ++ (if counts then newText m.text 0 new else [])
      let count := if counts then 1 else 0
      if !everywhere && counts then (shown ++ m.behind.rest, 1)
      else if m.text ≠ [] then
        let (rest, more) := replaced r new everywhere limit m.behind.before true m.behind.rest
        (shown ++ rest, count + more)
      else match m.behind.rest with
        | [] => (shown, count)
        | c :: cs =>
          let (rest, more) := replaced r new everywhere limit (some c) false cs
          (shown ++ c :: rest, count + more)

/-- The next number in a row that looks like one of chance: the number, and what the row goes on
with. -/
def chance (seed : Nat) : Float × Nat :=
  let next := (seed * 6364136223846793005 + 1442695040888963407) % Nat.pow 2 64
  (Float.ofNat (next / Nat.pow 2 11) / Float.ofNat (Nat.pow 2 53), next)

/-- What a number becomes by a function of numbers. -/
def numeric? : Known → Option (Float → Float)
  | .sine => some Float.sin
  | .cosine => some Float.cos
  | .exponential => some Float.exp
  | .logarithm => some Float.log
  | .root => some Float.sqrt
  | .whole => some truncated
  | _ => none

/-! ## Expressions and statements -/

/-- Goes through a round of a loop, and tells whether there may be another one. -/
def inRound (work : Work Unit) : Work Bool :=
  tryCatch (do work; return true) fun leaving =>
    match leaving with
    | .break => return false
    | .continue => return true
    | leaving => throw leaving

/-- Stops a script that takes too many steps. -/
def halt {α : Type} : Work α := do
  modify fun r => { r with code := 124 }
  throw .failed

/-- The value of a field. -/
def fieldAt (n : Float) : Work Value := do
  let r ← get
  let index := wholeOf n
  if index < 0 then Work.stumble s!"negative field index ${index}"
  else if index = 0 then return .read r.record
  else return r.fields.getD (index.toNat - 1) .unset

/-- What divides the fields of a text, by a value. -/
def dividerOf (v : Value) : Work Divider := do
  Work.from? (Divider.ofText ((← get).text v))

/-- Values under the format that the first of them is. -/
def formatted (name : String) (values : List Value) : Work Word := do
  let r ← get
  let format := r.text (values.headD .unset)
  let (text, problem) := formatFrom r.format 0 0 format (values.drop 1)
  let call := s!"{name}(\"{String.ofList format}\")"
  match problem with
  | none => return text
  | some problem =>
    if name = "printf" then Work.change fun r => r.out (Word.bytes text)
    match problem with
    | .tooFew => Work.stumble s!"not enough arguments passed to {call}"
    | .improper n => Work.stumble s!"improper conversion(number {n}) in {call}"

/-- The value of a function that only looks at values. -/
def knownOf (function : Known) (values : List Value) : Work Value := do
  let r ← get
  let first := values.headD .unset
  let text := r.text first
  let second := values.getD 1 .unset
  match function with
  | .length => return .number (Float.ofNat text.length)
  | .substr => return .text (part text second.toNumber ((values[2]?).map Value.toNumber))
  | .index => return .number (Float.ofNat (placeOf (r.text second) 1 text))
  | .lower => return .text (text.map Char.toLower)
  | .upper => return .text (text.map Char.toUpper)
  | .format => return .text (← formatted "sprintf" values)
  | .arcTangent => return .number (first.toNumber.atan2 second.toNumber)
  | .random =>
    let (n, seed) := chance r.seed
    set { r with seed := seed }
    return .number n
  | .seed =>
    set { r with seed := (wholeOf first.toNumber).natAbs }
    return .number (Float.ofNat r.seed)
  | .system =>
    let r := r.flush
    let ran := r.running text r.call.input
    set (r.takeOn ran)
    return .number (Float.ofNat (Recorder.codeOf ran.status))
  | .close => return .number (← Work.close text)
  | .flush =>
    set r.flush
    return .number 0.0
  | function =>
    return .number (((numeric? function).getD id) first.toNumber)

mutual

/-- The value of an expression. -/
def eval : Nat → Expr → Work Value
  | 0, _ => halt
  | steps + 1, e => do
    let number := fun (e : Expr) => do return (← eval steps e).toNumber
    let isTrue := fun (e : Expr) => do return (← eval steps e).isTrue
    match e with
    | .number n => return .number n
    | .text w => return .text w
    | .pattern r => return .ofBool (r.isIn false (← get).record)
    | .name name => return (← get).value name
    | .item table keys =>
      let key ← keyOf steps keys
      let r ← get
      let (v, t) := (r.table table).get key .unset
      set (r.setTable table t)
      return v
    | .field index => fieldAt (← number index)
    | .assign target e =>
      let v ← eval steps e
      store steps target v
      return v
    | .change operator target e =>
      let new ← number e
      let v := Value.number (operator.apply (← number target) new)
      store steps target v
      return v
    | .step target amount before =>
      let old ← number target
      store steps target (.number (old + amount))
      return .number (if before then old + amount else old)
    | .negation e => return .ofBool (!(← isTrue e))
    | .minus e => return .number (-(← number e))
    | .plus e => return .number (← number e)
    | .arithmetic operator first second =>
      let a ← number first
      return .number (operator.apply a (← number second))
    | .compare comparison first second =>
      let a ← eval steps first
      let b ← eval steps second
      return .ofBool (comparison.holds (← get).format a b)
    | .joined first second =>
      let a ← eval steps first
      let b ← eval steps second
      let r ← get
      return .text (r.text a ++ r.text b)
    | .both first second =>
      if ← isTrue first then return .ofBool (← isTrue second) else return .ofBool false
    | .either first second =>
      if ← isTrue first then return .ofBool true else return .ofBool (← isTrue second)
    | .choice condition first second =>
      if ← isTrue condition then eval steps first else eval steps second
    | .holds negated text pattern =>
      let v ← eval steps text
      let pattern ← patternAt steps pattern
      return .ofBool (pattern.isIn false ((← get).text v) != negated)
    | .isIn keys table =>
      let key ← keyOf steps keys
      let r ← get
      let (found, t) := (r.table table).has key
      set (r.setTable table t)
      return .ofBool found
    | .call function args => call steps function args
    | .known function args => known steps function args
    | .readRecord target =>
      match ← Work.nextRecord? steps with
      | none => return .number 0.0
      | some record =>
        take steps target record
        return .number 1.0
    | .readFrom isCommand source target =>
      let name := (← get).text (← eval steps source)
      match ← Work.recordFrom isCommand name with
      | .error _ => return .number (-1.0)
      | .ok none => return .number 0.0
      | .ok (some record) =>
        take steps target record
        return .number 1.0
    | .several values =>
      match values with
      | [] => return .unset
      | e :: _ => eval steps e

/-- The values of expressions. -/
def evalAll : Nat → List Expr → Work (List Value)
  | 0, _ => halt
  | _ + 1, [] => return []
  | steps + 1, e :: rest => do
    let v ← eval steps e
    return v :: (← evalAll steps rest)

/-- The key that expressions make. -/
def keyOf : Nat → List Expr → Work Key
  | 0, _ => halt
  | steps + 1, keys => do
    let values ← evalAll steps keys
    let r ← get
    match values with
    | [v] => return v.toKey r.format
    | values => return .word (List.intercalate (r.textOf "SUBSEP") (values.map r.text))

/-- The pattern that an expression is, or that its text writes. -/
def patternAt : Nat → Expr → Work Regular
  | 0, _ => halt
  | _ + 1, .pattern r => return r
  | steps + 1, e => do
    let v ← eval steps e
    Work.from? (patternOf ((← get).text v))

/-- Gives a target a value. -/
def store : Nat → Expr → Value → Work Unit
  | 0, _, _ => halt
  | steps + 1, target, v => do
    match target with
    | .name name => Work.assign name v
    | .item table keys =>
      let key ← keyOf steps keys
      Work.change fun r => r.setTable table ((r.table table).put key v)
    | .field index =>
      let n := wholeOf (← eval steps index).toNumber
      if n < 0 then Work.stumble s!"negative field index ${n}"
      else if n = 0 then Work.takeRecord ((← get).text v)
      else Work.change fun r => r.setField n.toNat v
    | _ => return

/-- Takes in a record that was read: in a target, or as the record in hand. -/
def take : Nat → Option Expr → Word → Work Unit
  | 0, _, _ => halt
  | _ + 1, none, record => Work.takeRecord record
  | steps + 1, some target, record => store steps target (.read record)

/-- Calls a function of the script. A name as a value stands for its table, too. -/
def call : Nat → Word → List Expr → Work Value
  | 0, _, _ => halt
  | steps + 1, function, args => do
    match (← get).functions.find? fun f => f.name = function with
    | none => return .unset
    | some f =>
      let values ← evalAll steps args
      let r ← get
      let params := f.params.zipIdx.map fun (name, i) =>
        let value := values.getD i .unset
        match args[i]? with
        | some (.name given) => ⟨name, value, r.tableName given⟩
        | _ => ⟨name, value, .own (r.made + i)⟩
      set { r with params := params, made := r.made + params.length }
      let leave := Work.change fun s => { s with
        params := r.params
        made := r.made
        tables := s.tables.filter fun t =>
          match t.1 with
          | .own n => n < r.made
          | .shared _ => true }
      let answer ← tryCatch (do exec steps f.body; return Value.unset) fun leaving =>
        match leaving with
        | .return v => return v
        | leaving => throw leaving
      leave
      return answer

/-- The value of a function that every script knows. -/
def known : Nat → Known → List Expr → Work Value
  | 0, _, _ => halt
  | steps + 1, function, args => do
    match function, args with
    | .length, [.name name] =>
      let r ← get
      let t := r.table name
      return .number (Float.ofNat (if t.size = 0 then (r.text (r.value name)).length else t.size))
    | .length, [] => return .number (Float.ofNat (← get).record.length)
    | .split, text :: .name table :: more =>
      let v ← eval steps text
      let divider ← match more with
        | [] => dividerOf (.text ((← get).textOf "FS"))
        | .pattern p :: _ => pure (Divider.pattern p)
        | e :: _ => dividerOf (← eval steps e)
      let pieces := divider.fields ((← get).text v)
      Work.change fun r => r.setTable table (.ofRow (pieces.map .read))
      return .number (Float.ofNat pieces.length)
    | .replace everywhere, pattern :: new :: more =>
      let pattern ← patternAt steps pattern
      let new ← eval steps new
      let target := more.headD (.field (.number 0.0))
      let old ← eval steps target
      let r ← get
      let text := r.text old
      let limit := text.length + 2
      let (text, count) := replaced pattern (r.text new) everywhere limit none false text
      if 0 < count && target.isTarget then store steps target (.text text)
      return .number (Float.ofNat count)
    | .find, [text, pattern] =>
      let v ← eval steps text
      let pattern ← patternAt steps pattern
      let (start, length) := match pattern.find false none ((← get).text v) with
        | some m => (Float.ofNat (m.front.length + 1), Float.ofNat m.text.length)
        | none => (0.0, -1.0)
      Work.assign "RSTART".toList (.number start)
      Work.assign "RLENGTH".toList (.number length)
      return .number start
    | function, args =>
      let values ← evalAll steps args
      knownOf function values

/-- Carries out a statement. -/
def exec : Nat → Statement → Work Unit
  | 0, _ => halt
  | steps + 1, s => do
    match s with
    | .evaluate e => discard (eval steps e)
    | .print values outlet =>
      let shown ← evalAll steps values
      let r ← get
      let number := r.textOf "OFMT"
      let texts := if values.isEmpty then [r.record] else shown.map (Value.toText number)
      let text := List.intercalate (r.textOf "OFS") texts ++ r.textOf "ORS"
      printTo steps outlet (Word.bytes text)
    | .printFormat values outlet =>
      let shown ← evalAll steps values
      let text ← formatted "printf" shown
      printTo steps outlet (Word.bytes text)
    | .block statements => execAll steps statements
    | .ifThen condition first second =>
      if (← eval steps condition).isTrue then exec steps first
      else match second with
        | some second => exec steps second
        | none => return
    | .loop condition body =>
      if (← eval steps condition).isTrue then
        if ← inRound (exec steps body) then exec steps (.loop condition body)
    | .loopOnce body condition =>
      if ← inRound (exec steps body) then
        if (← eval steps condition).isTrue then exec steps (.loopOnce body condition)
    | .count start condition step body =>
      exec steps start
      let goes ← match condition with
        | none => pure true
        | some e => do pure (← eval steps e).isTrue
      if goes then
        if ← inRound (exec steps body) then exec steps (.count step condition step body)
    | .forEach name table body =>
      let r ← get
      let (keys, t) := (r.table table).keys
      set (r.setTable table t)
      execEach steps name keys body
    | .erase table keys =>
      let key ← keyOf steps keys
      Work.change fun r => r.setTable table ((r.table table).erase key)
    | .clear table => Work.change fun r => r.setTable table .empty
    | .break => throw .break
    | .continue => throw .continue
    | .next => throw .next
    | .nextFile => throw .nextFile
    | .exit code =>
      match code with
      | some e =>
        let n := wholeOf (← eval steps e).toNumber
        Work.change fun r => { r with code := (n % 256).toNat }
      | none => pure ()
      throw .exit
    | .return value =>
      match value with
      | some e => throw (.return (← eval steps e))
      | none => throw (.return .unset)

/-- Carries out statements one after another. -/
def execAll : Nat → List Statement → Work Unit
  | 0, _ => halt
  | _ + 1, [] => return
  | steps + 1, s :: rest => do
    exec steps s
    execAll steps rest

/-- Carries out a statement for each key. -/
def execEach : Nat → Word → List Word → Statement → Work Unit
  | 0, _, _, _ => halt
  | _ + 1, _, [], _ => return
  | steps + 1, name, key :: keys, body => do
    Work.assign name (.text key)
    if ← inRound (exec steps body) then execEach steps name keys body

/-- Prints bytes where a statement tells. -/
def printTo : Nat → Option (Outlet × Expr) → List UInt8 → Work Unit
  | 0, _, _ => halt
  | _ + 1, none, bytes => Work.change fun r => r.out bytes
  | steps + 1, some (outlet, e), bytes => do
    let name := (← get).text (← eval steps e)
    match outlet with
    | .file adds => Work.printToFile adds name bytes
    | .command => Work.printToCommand name bytes

end

/-! ## Rules -/

/-- Whether a rule is for the record in hand, and whether the record lies in its range. -/
def applies (steps : Nat) (occasion : Occasion) (inside : Bool) : Work (Bool × Bool) := do
  let isTrue := fun (e : Expr) => do return (← eval steps e).isTrue
  match occasion with
  | .always => return (true, false)
  | .when e => return (← isTrue e, false)
  | .range first last =>
    if inside then return (true, !(← isTrue last))
    else if ← isTrue first then return (true, !(← isTrue last))
    else return (false, false)
  | _ => return (false, false)

/-- Carries out the rules for the record in hand, from a number on. -/
def runRules (steps : Nat) : Nat → List Rule → Work Unit
  | _, [] => return
  | i, rule :: rest => do
    let (hits, inside) ← applies steps rule.occasion ((← get).inside.getD i false)
    Work.change fun r => { r with inside := r.inside.set i inside }
    if hits then exec steps rule.action
    runRules steps (i + 1) rest

/-- Reads records one after another, at most `limit` of them, and carries out the rules for each. -/
def runRecords (steps : Nat) (rules : List Rule) : Nat → Work Unit
  | 0 => halt
  | limit + 1 => do
    match ← Work.nextRecord? steps with
    | none => return
    | some record =>
      Work.takeRecord record
      tryCatch (runRules steps 0 rules) fun leaving =>
        match leaving with
        | .next => return
        | .nextFile => Work.change fun r => { r with current := none }
        | leaving => throw leaving
      runRecords steps rules limit

/-- Carries out the rules for an edge of the input. -/
def runEdge (steps : Nat) (isStart : Bool) : List Rule → Work Unit
  | [] => return
  | rule :: rest => do
    match rule.occasion, isStart with
    | .start, true => exec steps rule.action
    | .finish, false => exec steps rule.action
    | _, _ => pure ()
    runEdge steps isStart rest

/-- Carries out a script. Leaving the records early does not keep the rules for the end from being
carried out, unless something has failed. -/
def runScript (steps : Nat) (script : Script) : Work Unit := do
  let isEdge := fun (rule : Rule) =>
    match rule.occasion with
    | .start => true
    | _ => false
  tryCatch (do
    runEdge steps true script.rules
    if !script.rules.all isEdge then runRecords steps script.rules steps) fun leaving =>
      match leaving with
      | .exit => return
      | leaving => throw leaving
  runEdge steps false script.rules

/-- The bound on the steps of a script. -/
def stepLimit : Nat := 2000000

/-- A script in front of its first step, with operands and with variables that are given values. -/
def Recorder.start (script : Script) (shell : Call → Ran) (c : Call) (operands : List Word) :
    Recorder where
  functions := script.functions
  call := c
  shell := shell
  vars :=
    let texts := [("FS", " "), ("OFS", " "), ("ORS", "\n"), ("RS", "\n"), ("OFMT", "%.6g"),
      ("CONVFMT", "%.6g"), ("SUBSEP", "\x1c"), ("FILENAME", "")]
    let numbers := [("NR", 0.0), ("FNR", 0.0), ("RSTART", 0.0), ("RLENGTH", -1.0),
      ("ARGC", Float.ofNat (operands.length + 1))]
    texts.map (fun v => (v.1.toList, Value.text v.2.toList)) ++
      numbers.map fun v => (v.1.toList, Value.number v.2)
  tables :=
    let put := fun (t : Table Value) (k : Key) (w : Word) => t.put k (.read w)
    let words := ("awk".toList :: operands).zipIdx
    let args := words.foldl (fun t w => put t (.number (w.2 : Int)) w.1) .empty
    let env := c.env.bindings.foldl (fun t v => put t (.word v.1.toList) v.2.toList) .empty
    [(.shared "ARGV".toList, args), (.shared "ENVIRON".toList, env)]
  params := []
  made := 0
  record := []
  fields := []
  current := none
  operand := 1
  anyFile := false
  sources := []
  files := []
  pipes := []
  held := []
  printed := []
  seed := 0
  inside := List.replicate script.rules.length false
  code := 0

end ArtifactSync.Process.Record
