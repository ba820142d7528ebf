import ArtifactSync.Process.Record.Token

/-!
# Patterns of record scripts

Record scripts write patterns in the extended style, and carry out the escapes of texts in them.
Behind any other character a backslash takes away its meaning, between brackets, too.
-/

namespace ArtifactSync.Process.Record

/-- A character that stands for itself, as a pattern without escapes writes it. -/
def literally (c : Char) : List Char :=
  if c.isAlphanum || 128 ≤ c.toNat || c.toNat ≤ 32 then [c]
  else if c = '^' then ['\\', '^']
  else ['[', c, ']']

/-- The character that a text behind a backslash stands for, and how many characters of it. -/
def escapedChar (cs : List Char) : Char × Nat :=
  let octal := (cs.take 3).takeWhile isOctal
  match cs with
  | [] => ('\\', 0)
  | c :: _ =>
    if octal ≠ [] then (Char.ofNat (numberIn 8 octal % 256), octal.length)
    else match (if c = 'e' then none else letterByte? c) with
      | some b => (Char.ofNat b.toNat, 1)
      | none => (c, 1)

/-- The members of a set up to the bracket that closes it, each written without escapes, and how
many characters they take with the bracket. The first `skip` characters are already understood. -/
def setMembers : Nat → List Char → Option (List (List Char) × Nat)
  | _, [] => none
  | skip + 1, _ :: cs => (setMembers skip cs).map fun (ms, n) => (ms, n + 1)
  | 0, c :: cs =>
    let put := fun (member : List Char) (taken : Nat) =>
      (setMembers taken cs).map fun (ms, n) => (member :: ms, n + 1)
    if c = ']' then some ([], 1)
    else if c = '\\' then
      let (d, taken) := escapedChar cs
      put [d] taken
    else match (if c = '[' then className? cs else none) with
      | some name => put ("[:".toList ++ name ++ ":]".toList) (name.length + 3)
      | none =>
        match cs with
        | '-' :: '\\' :: rest =>
          let (d, taken) := escapedChar rest
          put [c, '-', d] (taken + 2)
        | '-' :: d :: _ => if d = ']' then put [c] 0 else put [c, '-', d] 2
        | _ => put [c] 0

/-- A set without escapes: a bracket stands at its start, a hyphen at its end, and a circumflex not
at the start. -/
def plainSet (negated : Bool) (members : List (List Char)) : List Char :=
  let held := fun (c : Char) => if members.contains [c] then [c] else []
  let others := members.filter fun m => m ≠ [']'] && m ≠ ['-'] && m ≠ ['^']
  let inside := held ']' ++ others.flatten
  if !negated && inside = [] && held '-' = [] then ['\\', '^']
  else
    let circumflex := if !negated && inside = [] then [] else held '^'
    let behind := if !negated && inside = [] then held '^' else []
    '[' :: (if negated then ['^'] else []) ++ inside ++ circumflex ++ held '-' ++ behind ++ [']']

/-- A pattern in which no escapes are left but those that every extended pattern knows. The first
`skip` characters are already understood. -/
def plainPattern : Nat → List Char → List Char
  | _, [] => []
  | skip + 1, _ :: cs => plainPattern skip cs
  | 0, c :: cs =>
    if c = '\\' then
      let (d, taken) := escapedChar cs
      literally d ++ plainPattern taken cs
    else if c = '[' then
      let negated := cs.head? = some '^'
      let start := cs.drop (if negated then 1 else 0)
      let first := if start.head? = some ']' then [[']']] else []
      let front := (if negated then 1 else 0) + first.length
      match setMembers 0 (cs.drop front) with
      | some (members, taken) =>
        plainSet negated (first ++ members) ++ plainPattern (front + taken) cs
      | none => c :: plainPattern 0 cs
    else c :: plainPattern 0 cs

/-- What stands in front of a place in a pattern. -/
inductive Front where
  | nothing
  | opened
  | bar
  | circumflex
  | part
  deriving DecidableEq, Repr

/-- What is wrong with the shape of a pattern of whose parentheses `depth` are open: something is
missing where a part should be, or not closed. A parenthesis that closes nothing stands for itself.
The first `skip` characters are already understood. -/
def shapeProblem? : Nat → Nat → Front → List Char → Option String
  | _, depth, front, [] =>
    if front = .bar then some "missing operand"
    else if depth ≠ 0 then some "missing ')'"
    else none
  | skip + 1, depth, front, _ :: cs => shapeProblem? skip depth front cs
  | 0, depth, front, c :: cs =>
    let lacking := front = .nothing || front = .opened || front = .bar
    let missing := some "missing operand"
    if c = '\\' then shapeProblem? 1 depth .part cs
    else if c = '[' then
      let start := if cs.head? = some '^' then 1 else 0
      let first := if (cs.drop start).head? = some ']' then start + 1 else start
      match setMembers 0 (cs.drop first) with
      | some (_, taken) => shapeProblem? (first + taken) depth .part cs
      | none => some "bad class -- [], [^] or ["
    else if c = '(' then shapeProblem? 0 (depth + 1) .opened cs
    else if c = ')' && depth ≠ 0 then
      if lacking then missing else shapeProblem? 0 (depth - 1) .part cs
    else if c = '|' then (if lacking then missing else shapeProblem? 0 depth .bar cs)
    else if "*+?".toList.contains c && lacking then missing
    else if (c = '*' || c = '+') && front = .circumflex then some "syntax error ^* or ^+"
    else shapeProblem? 0 depth (if c = '^' then .circumflex else .part) cs

/-- The pattern that a text writes, or what is wrong with it. -/
def patternOf (cs : List Char) : Except String Regular :=
  let failure := fun (why : String) =>
    Except.error (s!"regular expression compile failed ({why})\n" ++ String.ofList cs)
  match shapeProblem? 0 0 .nothing cs with
  | some why => failure why
  | none =>
    match Regular.read true true (plainPattern 0 cs) with
    | .ok r => .ok r
    | .error _ => failure "bad class -- [], [^] or ["

end ArtifactSync.Process.Record
