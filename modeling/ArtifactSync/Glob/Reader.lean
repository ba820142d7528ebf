import ArtifactSync.Glob.Token

/-!
# Reading globs

A glob is read one character at a time. What has been read is the row of the innermost open group,
and for each open group the row it stands in with the rows of it that are complete. Some characters
take following ones with them: a backslash its character, two stars a separator, and an open bracket
its class. A bracket that is never closed stands for itself, and so does every later one.
-/

namespace ArtifactSync.Glob

/-- What is wrong with a glob. -/
inductive Problem where
  | unopenedGroup
  | unclosedGroup
  | invalidRange (low high : Char)
  | danglingEscape
  deriving DecidableEq, Repr

/-- The text of a problem. -/
def Problem.toString : Problem → String
  | unopenedGroup =>
    "unopened alternate group; missing '\x7b' (maybe escape '\x7d' with '[\x7d]'?)"
  | unclosedGroup =>
    "unclosed alternate group; missing '\x7d' (maybe escape '\x7b' with '[\x7b]'?)"
  | invalidRange low high => s!"invalid range; '{low}' > '{high}'"
  | danglingEscape => "dangling '\\'"

instance : ToString Problem := ⟨Problem.toString⟩

/-- A group that is open: the row it stands in, and its complete rows; both are in reverse. -/
structure Group where
  outer : List Token
  rows : List (List Token)

/-- What has been read of a glob: the row being read, in reverse, the open groups, innermost first,
the last character, and whether a bracket was found that is never closed. -/
structure Reading where
  row : List Token
  groups : List Group
  last : Option Char
  plainBrackets : Bool

namespace Reading

/-- Nothing has been read. -/
def start : Reading := ⟨[], [], none, false⟩

/-- Puts a token behind the row being read. -/
def push (r : Reading) (t : Token) : Reading :=
  { r with row := t :: r.row }

/-- Puts a tree token in place of the separator in front of it. Behind another tree token that has
taken in the separator, there is nothing to add. -/
def pushTree (r : Reading) (t : Token) : Reading :=
  match r.row with
  | .treeBefore :: _ => r
  | .treeBehind :: _ => r
  | _ :: row => { r with row := t :: row }
  | [] => { r with row := [t] }

/-- Reads two stars, the second of which is the first of `rest`, and gives how many characters of
`rest` they take. -/
def readTree (r : Reading) (rest : List Char) : Reading × Nat :=
  let next := rest[1]?
  let grouped := !r.groups.isEmpty
  let stars := ((r.push .star).push .star, 1)
  if r.row.isEmpty then
    if next = none then (r.push .treeBefore, 1)
    else if next = some '/' then (r.push .treeBefore, 2)
    else stars
  else if r.last ≠ some '/' ∧ ¬(grouped ∧ (r.last = some ',' ∨ r.last = some '\x7b')) then stars
  else if next = none ∨ (grouped ∧ (next = some ',' ∨ next = some '\x7d')) then
    (r.pushTree .treeBehind, 1)
  else if next = some '/' then (r.pushTree .treeBetween, 2)
  else stars

end Reading

/-- What has been read of a class: its ranges in reverse, whether nothing has been read, whether a
hyphen waits for the end of a range, and the number of characters taken. -/
structure ClassReading where
  ranges : List (Char × Char)
  first : Bool
  inRange : Bool
  taken : Nat

namespace ClassReading

/-- Ends the range whose start was read last. -/
def endRange (k : ClassReading) (c : Char) : Except Problem ClassReading :=
  match k.ranges with
  | (low, _) :: ranges =>
    if c < low then .error (.invalidRange low c)
    else .ok ⟨(low, c) :: ranges, false, false, k.taken + 1⟩
  | [] => .ok ⟨[(c, c)], false, false, k.taken + 1⟩

/-- Reads one character that does not close the class. -/
def read (k : ClassReading) (c : Char) : Except Problem ClassReading :=
  if k.first then .ok ⟨(c, c) :: k.ranges, false, false, k.taken + 1⟩
  else if k.inRange then k.endRange c
  else if c = '-' then .ok { k with inRange := true, taken := k.taken + 1 }
  else .ok ⟨(c, c) :: k.ranges, false, false, k.taken + 1⟩

/-- The ranges of a class that is closed now. A hyphen that still waits stands for itself. -/
def finish (k : ClassReading) : List (Char × Char) :=
  (if k.inRange then ('-', '-') :: k.ranges else k.ranges).reverse

/-- Reads a class up to the bracket that closes it: its ranges and how many characters it takes, or
nothing if it is never closed. A bracket in the first place stands for itself. -/
def readAll (k : ClassReading) : List Char → Except Problem (Option (List (Char × Char) × Nat))
  | [] => .ok none
  | c :: cs =>
    if c = ']' ∧ !k.first then .ok (some (k.finish, k.taken + 1))
    else match k.read c with
      | .error e => .error e
      | .ok k => k.readAll cs

end ClassReading

namespace Reading

/-- Reads a class whose open bracket stands in front of `rest`. -/
def readClass (r : Reading) (rest : List Char) : Except Problem (Reading × Nat) :=
  let negated := rest.head? = some '!' ∨ rest.head? = some '^'
  let body := if negated then rest.drop 1 else rest
  match (ClassReading.mk [] true false (rest.length - body.length)).readAll body with
  | .error e => .error e
  | .ok (some (ranges, taken)) => .ok (r.push (.byteClass negated ranges), taken)
  | .ok none => .ok ({ r with plainBrackets := true }.push (.literal '['), 0)

/-- Reads one character with `rest` behind it, and gives how many characters of `rest` it takes. -/
def read (r : Reading) (c : Char) (rest : List Char) : Except Problem (Reading × Nat) :=
  if c = '?' then .ok (r.push .any, 0)
  else if c = '*' then
    if rest.head? = some '*' then .ok (r.readTree rest) else .ok (r.push .star, 0)
  else if c = '[' ∧ !r.plainBrackets then r.readClass rest
  else if c = '\x7b' then .ok ({ r with row := [], groups := ⟨r.row, []⟩ :: r.groups }, 0)
  else if c = '\x7d' then
    match r.groups with
    | [] => .error .unopenedGroup
    | g :: groups =>
      let branches := (r.row.reverse :: g.rows).reverse
      .ok ({ r with row := .choice branches :: g.outer, groups := groups }, 0)
  else if c = ',' then
    match r.groups with
    | [] => .ok (r.push (.literal ','), 0)
    | g :: groups =>
      .ok ({ r with row := [], groups := ⟨g.outer, r.row.reverse :: g.rows⟩ :: groups }, 0)
  else if c = '\\' then
    match rest with
    | [] => .error .danglingEscape
    | d :: _ => .ok (r.push (.literal d), 1)
  else .ok (r.push (.literal c), 0)

/-- Reads a text to its end. The first `skip` characters are already taken. -/
def readAll : Nat → Reading → List Char → Except Problem Reading
  | _, r, [] => .ok r
  | skip + 1, r, c :: cs => readAll skip { r with last := some c } cs
  | 0, r, c :: cs =>
    match r.read c cs with
    | .error e => .error e
    | .ok (r, taken) => readAll taken { r with last := some c } cs

end Reading

/-- The tokens of a glob. -/
def parse (cs : List Char) : Except Problem (List Token) :=
  match Reading.readAll 0 .start cs with
  | .error e => .error e
  | .ok r => if r.groups.isEmpty then .ok r.row.reverse else .error .unclosedGroup

end ArtifactSync.Glob
