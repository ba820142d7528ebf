import ArtifactSync.Process.Fraction
import ArtifactSync.Process.Piece

/-!
# Sums in shell scripts

A shell reckons with whole numbers of 64 bits. The signs are those of common use: each has a rank,
and signs of a higher rank bind first, those of the same rank from the left. A sum may give values
to variables while it is reckoned, so the variables are a store that is handed on from part to part.
Parts that a choice leaves out are read but not carried out.
-/

namespace ArtifactSync.Process

/-- What is wrong with a sum. -/
inductive SumProblem where
  | expectingPrimary
  | expectingEnd
  | expectingClose
  | expectingColon
  | divisionByZero
  /-- A variable does not hold a number. -/
  | illegalNumber (value : Word)
  /-- A variable keeps its value. -/
  | readOnly (name : List Char)
  deriving DecidableEq, Repr

/-- The text of a problem with a sum. -/
def SumProblem.report (sum : List Char) (problem : SumProblem) : String :=
  let text := fun (what : String) =>
    s!"arithmetic expression: {what}: " ++ "\"" ++ String.ofList sum ++ "\""
  match problem with
  | expectingPrimary => text "expecting primary"
  | expectingEnd => text "expecting EOF"
  | expectingClose => text "expecting ')'"
  | expectingColon => text "expecting ':'"
  | divisionByZero => text "division by zero"
  | illegalNumber value => s!"Illegal number: {String.ofList value}"
  | readOnly name => s!"{String.ofList name}: is read only"

/-! ## Pieces of a sum -/

/-- A piece of a sum. -/
inductive SumItem where
  | number (n : Int)
  | variable (name : List Char)
  | sign (text : List Char)
  /-- A character that no sum holds. -/
  | unknown
  deriving DecidableEq, Repr

/-- The signs between two numbers, with their ranks. -/
def signRanks : List (String × Nat) := [
  ("*", 8), ("/", 8), ("%", 8), ("+", 7), ("-", 7), ("<<", 6), (">>", 6), ("<", 5), (">", 5),
  ("<=", 5), (">=", 5), ("==", 4), ("!=", 4), ("&", 3), ("^", 2), ("|", 1)]

/-- The signs that give a variable a value, with what they reckon before that. -/
def assigningSigns : List (String × String) := [
  ("=", ""), ("+=", "+"), ("-=", "-"), ("*=", "*"), ("/=", "/"), ("%=", "%"), ("<<=", "<<"),
  (">>=", ">>"), ("&=", "&"), ("^=", "^"), ("|=", "|")]

/-- All signs, the longer ones first. -/
def sumSigns : List (List Char) :=
  ["<<=", ">>=", "<<", ">>", "<=", ">=", "==", "!=", "&&", "||", "+=", "-=", "*=", "/=", "%=",
    "&=", "^=", "|=", "<", ">", "=", "!", "&", "|", "+", "-", "*", "/", "%", "^", "~", "?", ":",
    "(", ")"].map String.toList

/-- The number that digits at the start of a text spell, with a prefix in another base, and how many
characters it takes. No number is larger than 64 bits allow. -/
def leadingNumber (cs : List Char) : Int × Nat :=
  let (n, rest) := leadingWhole cs
  (min n (Nat.pow 2 63 - 1), cs.length - rest.length)

/-- The pieces of a sum. The first `skip` characters are already understood. -/
def sumItems : Nat → List Char → List SumItem
  | _, [] => []
  | skip + 1, _ :: cs => sumItems skip cs
  | 0, c :: cs =>
    if " \t\n".toList.contains c then sumItems 0 cs
    else if c.isDigit then
      let (n, taken) := leadingNumber (c :: cs)
      .number n :: sumItems (taken - 1) cs
    else if isNameStart c then
      let name := (c :: cs).takeWhile isNameChar
      .variable name :: sumItems (name.length - 1) cs
    else match sumSigns.find? fun sign => sign.isPrefixOf (c :: cs) with
      | some sign => .sign sign :: sumItems (sign.length - 1) cs
      | none => [.unknown]

/-! ## Reckoning -/

/-- A number kept within 64 bits. -/
def wrapped (n : Int) : Int :=
  (BitVec.ofInt 64 n).toInt

/-- One for what holds, zero for what does not. -/
def truth (b : Bool) : Int := if b then 1 else 0

/-- What a sign makes of two numbers. -/
def combine (sign : List Char) (a b : Int) : Except SumProblem Int :=
  let bits := fun (f : BitVec 64 → BitVec 64 → BitVec 64) =>
    (f (BitVec.ofInt 64 a) (BitVec.ofInt 64 b)).toInt
  match String.ofList sign with
  | "*" => .ok (wrapped (a * b))
  | "/" => if b = 0 then .error .divisionByZero else .ok (wrapped (a.tdiv b))
  | "%" => if b = 0 then .error .divisionByZero else .ok (a.tmod b)
  | "+" => .ok (wrapped (a + b))
  | "-" => .ok (wrapped (a - b))
  | "<<" => .ok (bits fun x y => x <<< (y.toNat % 64))
  | ">>" => .ok (bits fun x y => x.sshiftRight (y.toNat % 64))
  | "<" => .ok (truth (a < b))
  | ">" => .ok (truth (b < a))
  | "<=" => .ok (truth (a ≤ b))
  | ">=" => .ok (truth (b ≤ a))
  | "==" => .ok (truth (a = b))
  | "!=" => .ok (truth (a ≠ b))
  | "&" => .ok (bits fun x y => x &&& y)
  | "^" => .ok (bits fun x y => x ^^^ y)
  | "|" => .ok (bits fun x y => x ||| y)
  | _ => .ok b

/-- The number that the value of a variable spells; nothing at all spells zero. -/
def numberHeld (value : Word) : Except SumProblem Int :=
  let (n, rest) := leadingWhole value
  let bound : Int := Nat.pow 2 63
  if !(Word.trimStart rest).isEmpty || n < -bound || bound ≤ n then .error (.illegalNumber value)
  else .ok n

/-- How the variables of a store are read and given values. -/
structure Variables (σ : Type) where
  value : σ → List Char → Word
  assign : σ → List Char → Int → Except SumProblem σ

/-- A number with the pieces behind it, and the variables by then. -/
structure Reckoning (σ : Type) where
  number : Int
  rest : List SumItem
  store : σ

/-- What reckoning gives. -/
abbrev Reckoned (σ : Type) := Except SumProblem (Reckoning σ)

/-- The rank of the sign that comes first, if it stands between numbers. -/
def rankAhead? : List SumItem → Option (List Char × Nat)
  | .sign sign :: _ => (signRanks.find? fun s => s.1.toList = sign).map fun s => (sign, s.2)
  | _ => none

mutual

/-- Reckons a number with the signs in front of it, or what stands between parentheses. Only a live
part looks at variables. -/
def reckonUnary {σ : Type} (vars : Variables σ) (live : Bool) :
    Nat → σ → List SumItem → Reckoned σ
  | 0, _, _ => .error .expectingPrimary
  | depth + 1, store, items =>
    let signed := fun (f : Int → Int) (rest : List SumItem) =>
      (reckonUnary vars live depth store rest).map fun r => { r with number := f r.number }
    match items with
    | .number n :: rest => .ok ⟨n, rest, store⟩
    | .variable name :: rest =>
      if live then (numberHeld (vars.value store name)).map fun n => ⟨n, rest, store⟩
      else .ok ⟨0, rest, store⟩
    | .sign ['+'] :: rest => reckonUnary vars live depth store rest
    | .sign ['-'] :: rest => signed (fun n => wrapped (-n)) rest
    | .sign ['!'] :: rest => signed (fun n => truth (n = 0)) rest
    | .sign ['~'] :: rest => signed (fun n => -n - 1) rest
    | .sign ['('] :: rest =>
      (reckonAssignment vars live depth store rest).bind fun r =>
        match r.rest with
        | .sign [')'] :: rest => .ok { r with rest := rest }
        | _ => .error .expectingClose
    | _ => .error .expectingPrimary

/-- Goes on from a number through signs of a rank or a higher one. -/
def reckonFrom {σ : Type} (vars : Variables σ) (live : Bool) :
    Nat → Nat → Reckoning σ → Reckoned σ
  | 0, _, _ => .error .expectingPrimary
  | depth + 1, rank, a =>
    match rankAhead? a.rest with
    | none => .ok a
    | some (sign, own) =>
      if own < rank then .ok a
      else
        (reckonUnary vars live depth a.store (a.rest.drop 1)).bind fun b =>
          (reckonFrom vars live depth (own + 1) b).bind fun b =>
            let n := if live then combine sign a.number b.number else .ok b.number
            n.bind fun n => reckonFrom vars live depth rank { b with number := n }

/-- Reckons what has no signs for truth in it, outside parentheses. -/
def reckonSigns {σ : Type} (vars : Variables σ) (live : Bool) (depth : Nat) (store : σ)
    (items : List SumItem) : Reckoned σ :=
  match depth with
  | 0 => .error .expectingPrimary
  | depth + 1 =>
    (reckonUnary vars live depth store items).bind fun a => reckonFrom vars live depth 1 a

/-- Reckons whether all of some sums are other than zero. -/
def reckonAll {σ : Type} (vars : Variables σ) (live : Bool) :
    Nat → σ → List SumItem → Reckoned σ
  | 0, _, _ => .error .expectingPrimary
  | depth + 1, store, items =>
    (reckonSigns vars live depth store items).bind fun a =>
      match a.rest with
      | .sign ['&', '&'] :: rest =>
        let needed := live && a.number ≠ 0
        (reckonAll vars needed depth a.store rest).map fun b =>
          { b with number := truth (a.number ≠ 0 && b.number ≠ 0) }
      | _ => .ok a

/-- Reckons whether one of some sums is other than zero. -/
def reckonAny {σ : Type} (vars : Variables σ) (live : Bool) :
    Nat → σ → List SumItem → Reckoned σ
  | 0, _, _ => .error .expectingPrimary
  | depth + 1, store, items =>
    (reckonAll vars live depth store items).bind fun a =>
      match a.rest with
      | .sign ['|', '|'] :: rest =>
        let needed := live && a.number = 0
        (reckonAny vars needed depth a.store rest).map fun b =>
          { b with number := truth (a.number ≠ 0 || b.number ≠ 0) }
      | _ => .ok a

/-- Reckons a sum that may be a choice between two others. -/
def reckonChoice {σ : Type} (vars : Variables σ) (live : Bool) :
    Nat → σ → List SumItem → Reckoned σ
  | 0, _, _ => .error .expectingPrimary
  | depth + 1, store, items =>
    (reckonAny vars live depth store items).bind fun a =>
      match a.rest with
      | .sign ['?'] :: rest =>
        (reckonAssignment vars (live && a.number ≠ 0) depth a.store rest).bind fun b =>
          match b.rest with
          | .sign [':'] :: rest =>
            (reckonChoice vars (live && a.number = 0) depth b.store rest).map fun c =>
              { c with number := if a.number ≠ 0 then b.number else c.number }
          | _ => .error .expectingColon
      | _ => .ok a

/-- Reckons a sum that may be the new value of a variable. -/
def reckonAssignment {σ : Type} (vars : Variables σ) (live : Bool) :
    Nat → σ → List SumItem → Reckoned σ
  | 0, _, _ => .error .expectingPrimary
  | depth + 1, store, items =>
    match items with
    | .variable name :: .sign sign :: rest =>
      match assigningSigns.find? fun s => s.1.toList = sign with
      | none => reckonChoice vars live depth store items
      | some (_, before) =>
        (reckonAssignment vars live depth store rest).bind fun r =>
          if !live then .ok r
          else
            let old := if before = "" then .ok 0 else numberHeld (vars.value r.store name)
            (old.bind fun n => combine before.toList n r.number).bind fun n =>
              (vars.assign r.store name n).map fun store => ⟨n, r.rest, store⟩
    | items => reckonChoice vars live depth store items

end

/-- The value of a sum, and the variables behind it. -/
def reckon {σ : Type} (vars : Variables σ) (store : σ) (sum : List Char) :
    Except SumProblem (Int × σ) :=
  let items := sumItems 0 sum
  (reckonAssignment vars true (8 * items.length + 8) store items).bind fun r =>
    if r.rest.isEmpty then .ok (r.number, r.store) else .error .expectingEnd

end ArtifactSync.Process
