import ArtifactSync.Process.Record.Pattern

/-!
# The grammar of record scripts

`Script.read` reads the tokens of a script. An expression is read level by level: the operators of a
level bind less than those of the next one. Texts that stand side by side are joined; that binds
less than a sum and more than a comparison. Whatever is printed may be followed by a sign that tells
where to, so there no comparison is read from that sign outside parentheses.
-/

namespace ArtifactSync.Process.Record

/-- Several problems in one complaint, each with the name of the tool in front. -/
def ScriptProblem.all (problems : List ScriptProblem) : ScriptProblem :=
  ⟨"\nawk: ".intercalate (problems.map ScriptProblem.message)⟩

/-- What a rule or a function allows in the statements that are being read. -/
inductive Surroundings where
  | rule
  /-- A rule for the start or the end, where there is no record. -/
  | edge
  | function
  deriving DecidableEq, Repr

/-- A call of a function of the script, which may be defined later. -/
structure Called where
  name : Word
  count : Nat
  line : Nat
  deriving DecidableEq, Repr

/-- A script that is being read: the tokens left, where they stand, how many loops and braces are
open, and the calls so far. -/
structure Reader where
  tokens : List Token
  surroundings : Surroundings
  loops : Nat
  braces : Nat
  calls : List Called

/-- Reads a part of a script. -/
abbrev Reading (α : Type) := StateT Reader (Except ScriptProblem) α

namespace Reading

/-! ## Tokens -/

/-- The next token. -/
def peek : Reading Token := do
  return (← get).tokens.headD ⟨.scriptEnd, [], 0⟩

/-- Passes the next token. -/
def skip : Reading Unit :=
  modify fun r => { r with tokens := r.tokens.drop 1 }

/-- Refuses a script for a reason, in the line of the next token. -/
def refuse {α : Type} (message : String) : Reading α := do
  throw (.inLine (← peek).line message)

/-- Refuses the next token. -/
def unexpected {α : Type} : Reading α := do
  let t ← peek
  let near := match t.kind with
    | .lineEnd => "end of line"
    | .scriptEnd => "end of file"
    | .pattern => "/" ++ String.ofList t.text ++ "/"
    | _ => String.ofList t.text
  if t.kind = .scriptEnd && 0 < (← get).braces then refuse "missing \x7d near end of file"
  else refuse s!"syntax error at or near {near}"

/-- Whether the next token is a sign. -/
def isAt (s : String) : Reading Bool := do
  let t ← peek
  return t.kind = .sign && t.text = s.toList

/-- Whether the next token is a reserved word. -/
def isAtWord (s : String) : Reading Bool := do
  let t ← peek
  return t.kind = .reserved && t.text = s.toList

/-- Passes a sign if it is next, and tells whether it was. -/
def accept (s : String) : Reading Bool := do
  let found ← isAt s
  if found then skip
  return found

/-- Passes a sign, which has to be next. -/
def expect (s : String) : Reading Unit := do
  if !(← accept s) then unexpected

/-- Passes the ends of lines. -/
def skipLines : Reading Unit :=
  modify fun r => { r with tokens := r.tokens.dropWhile fun t => t.kind = .lineEnd }

/-- Passes a name. -/
def name : Reading Word := do
  let t ← peek
  if t.kind ≠ .name then unexpected
  skip
  return t.text

/-! ## Operators -/

/-- The operators that give a target a value, with what is done with its old one. -/
def assignments : List (String × Option Operator) :=
  [("=", none), ("+=", some .plus), ("-=", some .minus), ("*=", some .times), ("/=", some .divided),
    ("%=", some .modulo), ("^=", some .power)]

/-- The operators of comparisons. -/
def comparisons : List (String × Comparison) :=
  [("<", .less), ("<=", .atMost), ("==", .same), ("!=", .other), (">", .more), (">=", .atLeast)]

/-- The member of a list whose sign is the token. -/
def named? {α : Type} (operators : List (String × α)) (t : Token) : Option α :=
  if t.kind = .sign then (operators.find? fun o => o.1.toList = t.text).map Prod.snd else none

/-- Whether a token can begin a text that stands behind another one. -/
def beginsOperand (t : Token) : Bool :=
  match t.kind with
  | .number => true
  | .text => true
  | .pattern => true
  | .name => true
  | .called => true
  | .known _ => true
  | .sign => ["$", "!", "(", "++", "--"].any fun s => s.toList = t.text
  | _ => false

/-- The level of operands, among which no operators of lower levels are read. -/
def operandLevel : Nat := 5

/-- What a binary operator at a level makes of both its sides, if the next token is one. -/
def joint? (printing : Bool) (level : Nat) (t : Token) : Option (Expr → Expr → Expr) :=
  let isSign := fun (s : String) => t.kind = .sign && t.text = s.toList
  match level with
  | 0 => if isSign "||" then some .either else none
  | 1 => if isSign "&&" then some .both else none
  | 3 =>
    if isSign "~" then some (.holds false)
    else if isSign "!~" then some (.holds true) else none
  | 4 => if printing && isSign ">" then none else (named? comparisons t).map fun c => .compare c
  | _ => none

/-- Whether tokens begin with several expressions between parentheses, of which some are open. -/
def severalInside : Nat → List Token → Bool
  | _, [] => false
  | depth, t :: ts =>
    let isSign := fun (signs : List String) =>
      t.kind = .sign && signs.any fun s => s.toList = t.text
    if isSign ["(", "["] then severalInside (depth + 1) ts
    else if depth = 0 then false
    else if isSign [")", "]"] then depth ≠ 1 && severalInside (depth - 1) ts
    else (depth = 1 && isSign [","]) || severalInside depth ts

/-! ## Expressions -/

mutual

/-- Reads an expression. Between parentheses nothing is being printed. -/
def expr : Nat → Bool → Reading Expr
  | 0, _ => unexpected
  | limit + 1, printing => do
    let condition ← level limit printing 0
    if !(← accept "?") then return condition
    skipLines
    let first ← expr limit printing
    skipLines
    expect ":"
    skipLines
    return .choice condition first (← expr limit printing)

/-- Reads an expression of the operators from a level on. -/
def level : Nat → Bool → Nat → Reading Expr
  | 0, _, _ => unexpected
  | limit + 1, printing, n => do
    if n = operandLevel then operand limit printing
    else moreAt limit printing n (← level limit printing (n + 1))

/-- Reads the operators of a level behind what stands in front of them. -/
def moreAt : Nat → Bool → Nat → Expr → Reading Expr
  | 0, _, _, _ => unexpected
  | limit + 1, printing, n, first => do
    if n = 2 then
      if !(← isAtWord "in") then return first
      skip
      let found := Expr.isIn [first] (← name)
      -- nothing more belongs to the table, so operators that bind more go on with what is found
      moreAt limit printing n (← moreAt limit printing 3 (← moreAt limit printing 4 found))
    else match joint? printing n (← peek) with
      | none => return first
      | some joint =>
        skip
        if n ≤ 1 then skipLines
        moreAt limit printing n (joint first (← level limit printing (n + 1)))

/-- Reads texts that are joined, or a target that is given a value. -/
def operand : Nat → Bool → Reading Expr
  | 0, _ => unexpected
  | limit + 1, printing => do
    if severalInside 0 (← get).tokens then
      expect "("
      let keys ← list limit ")"
      if !(← isAtWord "in") then unexpected
      skip
      return .isIn keys (← name)
    let first ← joinedTo limit printing (← sum limit printing none)
    let t ← peek
    match (if first.isTarget then named? assignments t else none) with
    | none => return first
    | some operator? =>
      skip
      skipLines
      let value ← expr limit printing
      return match operator? with
        | none => .assign first value
        | some operator => .change operator first value

/-- Reads the texts that are joined to one. -/
def joinedTo : Nat → Bool → Expr → Reading Expr
  | 0, _, _ => unexpected
  | limit + 1, printing, first => do
    if !beginsOperand (← peek) then return first
    joinedTo limit printing (.joined first (← sum limit printing none))

/-- Reads a sum, the start of which may be known. -/
def sum : Nat → Bool → Option Expr → Reading Expr
  | 0, _, _ => unexpected
  | limit + 1, printing, known => do
    let first ← match known with
      | some e => pure e
      | none => product limit printing none
    match named? [("+", Operator.plus), ("-", .minus)] (← peek) with
    | none => return first
    | some operator =>
      skip
      let second ← product limit printing none
      sum limit printing (some (.arithmetic operator first second))

/-- Reads a product, the start of which may be known. -/
def product : Nat → Bool → Option Expr → Reading Expr
  | 0, _, _ => unexpected
  | limit + 1, printing, known => do
    let first ← match known with
      | some e => pure e
      | none => factor limit printing
    match named? [("*", Operator.times), ("/", .divided), ("%", .modulo)] (← peek) with
    | none => return first
    | some operator =>
      skip
      let second ← factor limit printing
      product limit printing (some (.arithmetic operator first second))

/-- Reads a factor: a power with signs in front of it. -/
def factor : Nat → Bool → Reading Expr
  | 0, _ => unexpected
  | limit + 1, printing => do
    if ← accept "!" then return .negation (← factor limit printing)
    else if ← accept "-" then return .minus (← factor limit printing)
    else if ← accept "+" then return .plus (← factor limit printing)
    else
      let base ← fromCommand limit printing (← stepped limit printing)
      if ← accept "^" then return .arithmetic .power base (← factor limit printing)
      else return base

/-- Reads whether a record is read of what a command prints. -/
def fromCommand : Nat → Bool → Expr → Reading Expr
  | 0, _, _ => unexpected
  | limit + 1, printing, command => do
    let behind := (← get).tokens.drop 1
    let isReading := behind.head?.any fun t => t.kind = .reserved && t.text = "getline".toList
    if !(isReading && (← isAt "|")) then return command
    skip
    skip
    let target ← target? limit
    fromCommand limit printing (.readFrom true command target)

/-- Reads a simple expression and the steps behind it. -/
def stepped : Nat → Bool → Reading Expr
  | 0, _ => unexpected
  | limit + 1, printing => do
    let e ← simple limit printing
    if !e.isTarget then return e
    else if ← accept "++" then return .step e 1.0 false
    else if ← accept "--" then return .step e (-1.0) false
    else return e

/-- Reads a name, an item of a table or a field, if one is next. -/
def target? : Nat → Reading (Option Expr)
  | 0 => unexpected
  | limit + 1 => do
    if (← peek).kind = .name || (← isAt "$") then return some (← simple limit false)
    else return none

/-- Reads one or more expressions between commas up to a closing sign, which is passed. -/
def list : Nat → String → Reading (List Expr)
  | 0, _ => unexpected
  | limit + 1, close => do
    let first ← expr limit false
    skipLines
    if ← accept "," then
      skipLines
      return first :: (← list limit close)
    else
      expect close
      return [first]

/-- Reads an expression without operators. -/
def simple : Nat → Bool → Reading Expr
  | 0, _ => unexpected
  | limit + 1, printing => do
    let t ← peek
    match t.kind with
    | .number =>
      skip
      return .number (numberAt t.text)
    | .text =>
      skip
      return .text t.text
    | .pattern =>
      match patternOf (t.text) with
      | .error message => refuse message
      | .ok r =>
        skip
        return .pattern r
    | .name =>
      skip
      if ← accept "[" then return .item t.text (← list limit "]") else return .name t.text
    | .called =>
      skip
      expect "("
      let args ← if ← accept ")" then pure [] else list limit ")"
      modify fun r => { r with calls := r.calls ++ [⟨t.text, args.length, t.line⟩] }
      return .call t.text args
    | .known function =>
      skip
      if function = .length && !(← isAt "(") then return .known .length []
      expect "("
      let args ← if ← accept ")" then pure [] else list limit ")"
      let fits := match Token.knownFunctions.find? fun k => k.2.1 = function with
        | some (_, _, fewest, most) => fewest ≤ args.length && args.length ≤ most
        | none => false
      if !fits then
        throw (.inLine t.line
          s!"wrong number of arguments in call to {String.ofList t.text}")
      return .known function args
    | .sign =>
      if ← accept "(" then
        let e ← expr limit false
        expect ")"
        return e
      else if ← accept "$" then
        if ← accept "-" then return .field (.minus (← simple limit printing))
        else if ← accept "+" then return .field (.plus (← simple limit printing))
        else if ← accept "!" then return .field (.negation (← simple limit printing))
        else return .field (← simple limit printing)
      else if t.text = "++".toList || t.text = "--".toList then
        skip
        match ← target? limit with
        | some e => return .step e (if t.text = "++".toList then 1.0 else -1.0) true
        | none => unexpected
      else unexpected
    | .reserved =>
      if t.text ≠ "getline".toList then unexpected
      skip
      let target ← target? limit
      if ← accept "<" then return .readFrom false (← stepped limit printing) target
      else return .readRecord target
    | _ => unexpected

end

/-! ## Statements -/

/-- Whether a statement can end in front of the next token. -/
def isAtEnd : Reading Bool := do
  let t ← peek
  return t.kind = .lineEnd || (← isAt ";") || (← isAt "\x7d")

/-- Ends a statement: behind it there is a semicolon or the end of the line, or a block ends. -/
def terminator : Reading Unit := do
  if (← peek).kind = .lineEnd then skipLines
  else if ← accept ";" then skipLines
  else if !(← isAt "\x7d") then unexpected

/-- Reads expressions between commas of which no end is given. -/
def exprs : Nat → Reading (List Expr)
  | 0 => unexpected
  | limit + 1 => do
    let first ← expr limit true
    if ← accept "," then
      skipLines
      return first :: (← exprs limit)
    else return [first]

/-- Whether what is printed can end in front of the next token. -/
def isAtOutlet : Reading Bool := do
  return (← isAtEnd) || (← isAt ">") || (← isAt ">>") || (← isAt "|")

/-- Reads what is printed. It may stand between parentheses. -/
def printed (limit : Nat) : Reading (List Expr) := do
  if ← isAtOutlet then return []
  let start ← get
  if ← isAt "(" then
    let between := (do skip; list limit ")" : Reading (List Expr)).run start
    match between with
    | .ok (values, behind) =>
      set behind
      if ← isAtOutlet then return values
      set start
      exprs limit
    | .error _ => exprs limit
  else exprs limit

/-- Reads where a script prints to, if that is told. -/
def outlet (limit : Nat) : Reading (Option (Outlet × Expr)) := do
  match named? [(">", Outlet.file false), (">>", .file true), ("|", .command)] (← peek) with
  | none => return none
  | some kind =>
    skip
    return some (kind, ← expr limit true)

/-- Reads a statement of one line without its end. -/
def line (limit : Nat) : Reading Statement := do
  let t ← peek
  if t.kind ≠ .reserved || t.text = "getline".toList then return .evaluate (← expr limit false)
  let value? := fun (_ : Unit) => do
    if ← isAtEnd then pure none else some <$> expr limit false
  match String.ofList t.text with
  | "print" =>
    skip
    let values ← printed limit
    return .print values (← outlet limit)
  | "printf" =>
    skip
    let values ← printed limit
    if values.isEmpty then refuse "no arguments in call to printf"
    return .printFormat values (← outlet limit)
  | "delete" =>
    skip
    let table ← name
    if ← accept "[" then return .erase table (← list limit "]") else return .clear table
  | "break" =>
    if (← get).loops = 0 then refuse "break statement outside of loop"
    skip
    return .break
  | "continue" =>
    if (← get).loops = 0 then refuse "continue statement outside of loop"
    skip
    return .continue
  | "next" =>
    if (← get).surroundings ≠ .rule then refuse "improper use of next"
    skip
    return .next
  | "nextfile" =>
    if (← get).surroundings ≠ .rule then refuse "improper use of nextfile"
    skip
    return .nextFile
  | "exit" =>
    skip
    return .exit (← value? ())
  | "return" =>
    if (← get).surroundings ≠ .function then refuse "return outside function body"
    skip
    return .return (← value? ())
  | _ => unexpected

/-- Reads something inside one more loop. -/
def looping {α : Type} (inner : Reading α) : Reading α := do
  modify fun r => { r with loops := r.loops + 1 }
  let answer ← inner
  modify fun r => { r with loops := r.loops - 1 }
  return answer

/-- Reads a condition between parentheses. -/
def condition (limit : Nat) : Reading Expr := do
  expect "("
  let e ← expr limit false
  expect ")"
  return e

mutual

/-- Reads a statement with its end. -/
def statement : Nat → Reading Statement
  | 0 => unexpected
  | limit + 1 => do
    if ← isAt "\x7b" then
      let inner ← block limit
      skipLines
      return inner
    else if ← accept ";" then
      skipLines
      return .block []
    else if ← isAtWord "if" then
      skip
      let test ← condition limit
      skipLines
      let first ← statement limit
      if ← isAtWord "else" then
        skip
        skipLines
        return .ifThen test first (some (← statement limit))
      else return .ifThen test first none
    else if ← isAtWord "while" then
      skip
      let test ← condition limit
      if ← accept ";" then
        skipLines
        return .loop test (.block [])
      else
        skipLines
        return .loop test (← looping (statement limit))
    else if ← isAtWord "do" then
      skip
      skipLines
      let body ← looping (statement limit)
      if !(← isAtWord "while") then unexpected
      skip
      let test ← condition limit
      terminator
      return .loopOnce body test
    else if ← isAtWord "for" then
      skip
      expect "("
      forLoop limit
    else
      let inner ← line limit
      terminator
      return inner

/-- Reads a loop behind its opening parenthesis. -/
def forLoop : Nat → Reading Statement
  | 0 => unexpected
  | limit + 1 => do
    match (← get).tokens with
    | ⟨.name, key, _⟩ :: ⟨.reserved, ['i', 'n'], _⟩ :: ⟨.name, table, _⟩ ::
        ⟨.sign, [')'], _⟩ :: rest =>
      modify fun r => { r with tokens := rest }
      skipLines
      return .forEach key table (← looping (statement limit))
    | _ =>
      let start ← if ← isAt ";" then pure (Statement.block []) else line limit
      expect ";"
      skipLines
      let test ← if ← isAt ";" then pure none else some <$> expr limit false
      expect ";"
      skipLines
      let step ← if ← isAt ")" then pure (Statement.block []) else line limit
      expect ")"
      if ← accept ";" then
        skipLines
        return .count start test step (.block [])
      else
        skipLines
        return .count start test step (← looping (statement limit))

/-- Reads a block. -/
def block : Nat → Reading Statement
  | 0 => unexpected
  | limit + 1 => do
    expect "\x7b"
    modify fun r => { r with braces := r.braces + 1 }
    skipLines
    let statements ← statements limit
    expect "\x7d"
    modify fun r => { r with braces := r.braces - 1 }
    return .block statements

/-- Reads the statements of a block. -/
def statements : Nat → Reading (List Statement)
  | 0 => unexpected
  | limit + 1 => do
    if ← isAt "\x7d" then return []
    let first ← statement limit
    return first :: (← statements limit)

end

/-! ## Rules -/

/-- Reads the block of a rule or a function and the end of the line behind it. -/
def action (limit : Nat) (surroundings : Surroundings) : Reading Statement := do
  modify fun r => { r with surroundings := surroundings }
  let inner ← block limit
  discard (accept ";")
  skipLines
  return inner

/-- Reads the names of parameters up to the closing parenthesis. -/
def params : Nat → List Word → Reading (List Word)
  | 0, _ => unexpected
  | limit + 1, known => do
    let param ← name
    if known.contains param then
      refuse s!"{String.ofList param} is duplicated in argument list"
    if ← accept "," then
      skipLines
      params limit (known ++ [param])
    else
      expect ")"
      return known ++ [param]

/-- Reads a function behind the word that begins it. -/
def function (limit : Nat) (known : List Function) : Reading Function := do
  let t ← peek
  if t.kind ≠ .called && t.kind ≠ .name then unexpected
  if known.any fun f => f.name = t.text then refuse s!"redefinition of {String.ofList t.text}"
  skip
  expect "("
  let params ← if ← accept ")" then pure [] else params limit []
  skipLines
  return ⟨t.text, params, ← action limit .function⟩

/-- What is done with a record that a rule without an action is for. -/
def usualAction : Statement := .print [] none

/-- Reads a rule. -/
def rule (limit : Nat) : Reading Rule := do
  if ← isAt "\x7b" then return ⟨.always, ← action limit .rule⟩
  else if ← isAtWord "BEGIN" then
    skip
    return ⟨.start, ← action limit .edge⟩
  else if ← isAtWord "END" then
    skip
    return ⟨.finish, ← action limit .edge⟩
  else
    let first ← expr limit false
    let occasion ← if ← accept "," then do
        skipLines
        pure (Occasion.range first (← expr limit false))
      else pure (.when first)
    if ← isAt "\x7b" then return ⟨occasion, ← action limit .rule⟩
    else if ← isAt "\x7d" then unexpected
    else
      terminator
      return ⟨occasion, usualAction⟩

/-- Reads the rules and functions that follow some. -/
def script : Nat → Script → Reading Script
  | 0, _ => unexpected
  | limit + 1, read => do
    let t ← peek
    if t.kind = .scriptEnd then return read
    else if ← isAt "\x7d" then
      let here := ScriptProblem.inLine t.line "extra '\x7d'"
      skip
      if (← peek).kind = .lineEnd then
        throw (.all [here, .inLine t.line "syntax error at or near end of line"])
      else throw here
    else if (← isAtWord "function") || (← isAtWord "func") then
      skip
      let f ← function limit read.functions
      script limit { read with functions := read.functions ++ [f] }
    else
      let r ← rule limit
      script limit { read with rules := read.rules ++ [r] }

/-- Requires that the functions that are called are there and take so many values. -/
def checkCalls (read : Script) : Reading Unit := do
  for call in (← get).calls do
    match read.functions.find? fun f => f.name = call.name with
    | none => refuse s!"function {String.ofList call.name} never defined"
    | some f =>
      if f.params.length < call.count then
        throw (.inLine call.line s!"too many arguments in call to {String.ofList call.name}")

end Reading

/-- The script that a text is. A parenthesis that closes nothing is passed over, but makes the
script useless. -/
def Script.read (cs : List Char) : Except ScriptProblem Script :=
  (Token.all cs).bind fun (tokens, extra) =>
    let limit := 16 * tokens.length + 16
    let reading := do
      Reading.skipLines
      let read ← Reading.script limit ⟨[], []⟩
      Reading.checkCalls read
      return read
    let problems := extra.map fun t => ScriptProblem.inLine t.line "extra ')'"
    match reading.run ⟨tokens, .rule, 0, 0, []⟩ with
    | .error problem => .error (.all (problems ++ [problem]))
    | .ok (read, _) => if problems = [] then .ok read else .error (.all problems)

end ArtifactSync.Process.Record
