import ArtifactSync.Process.Input
import ArtifactSync.Process.Regular

/-!
# Reckoning

The tool that counts from one number to another, and the one that works out an expression.
-/

namespace ArtifactSync.Process

/-! ## Numbers in a row -/

/-- A decimal number: a whole number of units, and how many digits behind the point a unit is. -/
structure Decimal where
  units : Int
  places : Nat
  deriving DecidableEq, Repr

/-- The decimal number that a word spells. -/
def Decimal.read? (w : Word) : Option Decimal :=
  let negative := w.head? = some '-'
  let body := if negative || w.head? = some '+' then w.drop 1 else w
  let whole := body.takeWhile Char.isDigit
  let behind := body.drop whole.length
  let part := if behind.head? = some '.' then (behind.drop 1).takeWhile Char.isDigit else []
  let rest := if behind.head? = some '.' then behind.drop (part.length + 1) else behind
  let power := match rest with
    | [] => some 0
    | e :: digits => if e.toLower = 'e' && isNumber digits then some (countOf digits) else none
  match power with
  | none => none
  | some power =>
    if whole = [] && part = [] then none
    else
      let n : Int := numberIn 10 (whole ++ part) * Nat.pow 10 power
      let n := if negative then -n else n
      let cut := min power part.length
      some ⟨n / (Nat.pow 10 cut : Nat), part.length - cut⟩

/-- The units of a decimal number if they are as small as so many places make them. -/
def Decimal.unitsAt (d : Decimal) (places : Nat) : Int :=
  d.units * (Nat.pow 10 (places - d.places) : Nat)

/-- So many units with digits behind a point, as wide as asked with zeros behind the sign. -/
def decimalText (units : Int) (places width : Nat) : List Char :=
  let digits := Fraction.digits (places + 1) units.natAbs
  let whole := digits.take (digits.length - places)
  let text := whole ++ (if places = 0 then [] else '.' :: digits.drop whole.length)
  let sign := if units < 0 then ['-'] else []
  sign ++ List.replicate (width - sign.length - text.length) '0' ++ text

/-- Words in which a negative number behind the options is none. -/
def withNegatives : List Word → List Word
  | ['-', letter] :: w :: ws =>
    if letter = 's' || letter = 'f' then ['-', letter] :: w :: withNegatives ws
    else if letter.isDigit then ['-', '-'] :: ['-', letter] :: w :: ws
    else ['-', letter] :: withNegatives (w :: ws)
  | w :: ws =>
    if w.head? ≠ some '-' || w = ['-', '-'] then w :: ws
    else if (w[1]?).any fun c => c.isDigit || c = '.' then ['-', '-'] :: w :: ws
    else w :: withNegatives ws
  | [] => []

/-- The numbers from one to another. -/
def seq (c : Call) : Ran :=
  let rules : OptionRules := ⟨"w", "sf", [("equal-width", 'w'), ("separator", 's'),
    ("format", 'f')], false⟩
  let ran := { c with args := withNegatives c.args }.withOptions rules 1 fun o =>
    let bad := o.words.find? fun w => (Decimal.read? w).isNone
    match o.words, bad with
    | [], _ => c.refuses "missing operand" 1
    | _ :: _ :: _ :: extra :: _, _ => c.refuses s!"extra operand {plainQuoted extra}" 1
    | _, some w => c.refuses s!"invalid floating point argument: {plainQuoted w}" 1
    | words, none =>
      let one : Decimal := ⟨1, 0⟩
      let (low, step, high) := match words.filterMap Decimal.read? with
        | [high] => (one, one, high)
        | [low, high] => (low, one, high)
        | low :: step :: high :: _ => (low, step, high)
        | [] => (one, one, one)
      if step.units = 0 then
        c.refuses s!"invalid Zero increment value: {plainQuoted ((words[1]?).getD [])}" 1
      else
        let shown := max low.places step.places
        let places := max shown high.places
        let a := low.unitsAt places
        let b := step.unitsAt places
        let z := high.unitsAt places
        let count := ((z - a).fdiv b + 1).toNat
        let numbers := (List.range (min 200000 count)).map fun (i : Nat) =>
          (a + b * (i : Int)).tdiv (Nat.pow 10 (places - shown) : Nat)
        let width := if o.has 'w' then
            (numbers.map fun n => (decimalText n shown 0).length).foldl max 0
          else 0
        let plain := numbers.map fun n => decimalText n shown width
        let format := o.value? 'f'
        let printer : Printer := ⟨.tool, c.complaint⟩
        let texts := match format with
          | none => plain.map Word.bytes
          | some format => plain.map fun text => printedOn .out (printer.run format [text]).1
        let separator := Word.bytes ((o.value? 's').getD ['\n'])
        if texts.isEmpty then c.prints [] 0
        else c.prints (List.intercalate separator texts ++ [10]) 0
  { ran with rest := c.input }

/-! ## Expressions -/

/-- What is wrong with an expression. -/
inductive ExpressionProblem where
  | missingBehind (word : Word)
  | unexpected (word : Word)
  | expectingClose (word : Word)
  | notWhole
  | divisionByZero
  | pattern (problem : RegularProblem)
  deriving DecidableEq, Repr

/-- The text of a problem. -/
def ExpressionProblem.toString : ExpressionProblem → String
  | missingBehind w => s!"syntax error: missing argument after {plainQuoted w}"
  | unexpected w => s!"syntax error: unexpected argument {plainQuoted w}"
  | expectingClose w => s!"syntax error: expecting ')' after {plainQuoted w}"
  | notWhole => "non-integer argument"
  | divisionByZero => "division by zero"
  | pattern problem => problem.toString

namespace Expression

/-- The whole number that a value is. -/
def whole? (w : Word) : Option Int :=
  let digits := if w.head? = some '-' then w.drop 1 else w
  if !isNumber digits then none
  else
    let n : Int := numberIn 10 digits
    some (if w.head? = some '-' then -n else n)

/-- Whether a value counts as false: nothing, or zero. -/
def isNull (w : Word) : Bool :=
  w = [] || whole? w = some 0

/-- A value that is a whole number. -/
def ofWhole (n : Int) : Word := (toString n).toList

/-- A value that is a truth value. -/
def ofBool (b : Bool) : Word := if b then ['1'] else ['0']

/-- The signs between two values, with their ranks. -/
def ranks : List (String × Nat) :=
  [("|", 1), ("&", 2), ("<", 3), ("<=", 3), ("=", 3), ("==", 3), ("!=", 3), (">=", 3), (">", 3),
    ("+", 4), ("-", 4), ("*", 5), ("/", 5), ("%", 5), (":", 6)]

/-- What a pattern matches at the start of a value: the text of its group if it has one, and how
much it takes otherwise. -/
def matched (value pattern : Word) : Except ExpressionProblem Word :=
  match Regular.read false false pattern with
  | .error problem => .error (.pattern problem)
  | .ok r =>
    let hasGroup := (pattern.zip (pattern.drop 1)).contains ('\\', '(')
    match r.here false none value with
    | none => .ok (if hasGroup then [] else ['0'])
    | some m =>
      if hasGroup then .ok (((m.behind.groups.find? fun g => g.1 = 1).map Prod.snd).getD [])
      else .ok (Nat.toDigits 10 m.text.length)

/-- What a sign makes of two values. -/
def combine (sign : String) (a b : Word) : Except ExpressionProblem Word :=
  let reckon := fun (f : Int → Int → Except ExpressionProblem Int) =>
    match whole? a, whole? b with
    | some x, some y => (f x y).map ofWhole
    | _, _ => .error .notWhole
  let compared := fun (f : Ordering → Bool) =>
    match whole? a, whole? b with
    | some x, some y => .ok (ofBool (f (compare x y)))
    | _, _ =>
      let key := fun (w : Word) => w.map Char.toNat
      let order := if key a < key b then Ordering.lt else if key b < key a then .gt else .eq
      .ok (ofBool (f order))
  match sign with
  | "|" => .ok (if isNull a then (if isNull b then ['0'] else b) else a)
  | "&" => .ok (if isNull a || isNull b then ['0'] else a)
  | "<" => compared (· == .lt)
  | "<=" => compared (· != .gt)
  | "=" => compared (· == .eq)
  | "==" => compared (· == .eq)
  | "!=" => compared (· != .eq)
  | ">=" => compared (· != .lt)
  | ">" => compared (· == .gt)
  | "+" => reckon fun x y => .ok (x + y)
  | "-" => reckon fun x y => .ok (x - y)
  | "*" => reckon fun x y => .ok (x * y)
  | "/" => reckon fun x y => if y = 0 then .error .divisionByZero else .ok (x.tdiv y)
  | "%" => reckon fun x y => if y = 0 then .error .divisionByZero else .ok (x.tmod y)
  | _ => matched a b

/-- A value with the words behind it. -/
abbrev Worked := Except ExpressionProblem (Word × List Word)

mutual

/-- Works out a value: a word, what stands between parentheses, or what one of the named operations
makes of the words behind it. The last word in front is for complaints. -/
def primary : Nat → Word → List Word → Worked
  | 0, last, _ => .error (.missingBehind last)
  | depth + 1, last, words =>
    let take := fun (words : List Word) (last : Word) => primary depth last words
    match words with
    | [] => .error (.missingBehind last)
    | w :: rest =>
      match String.ofList w with
      | "(" =>
        match binary depth 1 w rest with
        | .error e => .error e
        | .ok (value, [')'] :: rest) => .ok (value, rest)
        | .ok (_, rest) =>
          .error (.expectingClose ((words.take (words.length - rest.length)).getLastD w))
      | ")" => .error (.unexpected w)
      | "+" =>
        match rest with
        | [] => .error (.missingBehind w)
        | quoted :: rest => .ok (quoted, rest)
      | "length" =>
        match take rest w with
        | .error e => .error e
        | .ok (value, rest) => .ok (Nat.toDigits 10 value.length, rest)
      | "match" =>
        match take rest w with
        | .error e => .error e
        | .ok (value, rest) =>
          match take rest value with
          | .error e => .error e
          | .ok (pattern, rest) => (matched value pattern).map fun m => (m, rest)
      | "index" =>
        match take rest w with
        | .error e => .error e
        | .ok (value, rest) =>
          match take rest value with
          | .error e => .error e
          | .ok (signs, rest) =>
            let place := (value.findIdx? fun c => signs.contains c).map (· + 1)
            .ok (Nat.toDigits 10 (place.getD 0), rest)
      | "substr" =>
        match take rest w with
        | .error e => .error e
        | .ok (value, rest) =>
          match take rest value with
          | .error e => .error e
          | .ok (start, rest) =>
            match take rest start with
            | .error e => .error e
            | .ok (length, rest) =>
              let part := match whole? start, whole? length with
                | some s, some n =>
                  if s ≤ 0 || n ≤ 0 then [] else (value.drop (s.toNat - 1)).take n.toNat
                | _, _ => []
              .ok (part, rest)
      | _ => .ok (w, rest)

/-- Works out values with signs of a rank or a higher one between them. -/
def binary : Nat → Nat → Word → List Word → Worked
  | 0, _, last, _ => .error (.missingBehind last)
  | depth + 1, rank, last, words =>
    match primary depth last words with
    | .error e => .error e
    | .ok (value, rest) => onward depth rank value rest

/-- Goes on from a value. -/
def onward : Nat → Nat → Word → List Word → Worked
  | 0, _, last, _ => .error (.missingBehind last)
  | depth + 1, rank, value, words =>
    match words with
    | [] => .ok (value, [])
    | w :: rest =>
      match ranks.find? fun r => r.1.toList = w with
      | none => .ok (value, w :: rest)
      | some (sign, own) =>
        if own < rank then .ok (value, w :: rest)
        else
          match primary depth w rest with
          | .error e => .error e
          | .ok (second, rest) =>
            match onward depth (own + 1) second rest with
            | .error e => .error e
            | .ok (second, rest) =>
              match combine sign value second with
              | .error e => .error e
              | .ok value => onward depth rank value rest

end

end Expression

/-- Works out an expression. -/
def expr (c : Call) : Ran :=
  let args := if c.args.head? = some ['-', '-'] then c.args.drop 1 else c.args
  if args = [] then c.refuses "missing operand" 2
  else
    match Expression.binary (4 * args.length + 4) 1 [] args with
    | .error e => c.complains e.toString 2
    | .ok (_, extra :: _) => c.complains (ExpressionProblem.unexpected extra).toString 2
    | .ok (value, []) =>
      { c.prints (Word.bytes (value ++ ['\n'])) (if Expression.isNull value then 1 else 0) with
        rest := c.input }

end ArtifactSync.Process
