/-!
# Numbers with a fraction

A configuration may hold numbers with a fraction, which are only ever shown in messages. They are
shown as the nearest binary number of 64 bits prints: with the fewest digits that name it, and never
with an exponent. This module rounds an exact decimal to that binary number and finds those digits,
all in whole numbers.
-/

namespace ArtifactSync.Toml

/-- A number as written. -/
inductive Number where
  /-- The digits, and the power of ten they are multiplied by. -/
  | finite (negative : Bool) (digits : Nat) (exponent : Int)
  | infinite (negative : Bool)
  | nan
  deriving DecidableEq, Repr

/-- A binary number `fraction * 2 ^ exponent`, or one too large to be held. -/
inductive Binary where
  | finite (fraction : Nat) (exponent : Int)
  | tooLarge
  deriving DecidableEq, Repr

namespace Number

/-- The power of ten of a number that has no fewer than one digit in front of the point: `10 ^ p` is
the first power of ten above it. Zero has none. -/
def decimalWidth (digits : Nat) : Nat :=
  (toString digits).length

/-- A power with a whole exponent, as a quotient. -/
def power (base : Nat) (exponent : Int) : Nat × Nat :=
  if exponent ≥ 0 then (Nat.pow base exponent.toNat, 1) else (1, Nat.pow base (-exponent).toNat)

/-- The nearest whole number to a quotient; of two that are equally near, the even one. -/
def roundHalfEven (num den : Nat) : Nat :=
  let low := num / den
  let twice := 2 * (num % den)
  if twice < den then low
  else if twice > den then low + 1
  else if low % 2 = 0 then low else low + 1

/-- The exponent of the binary number nearest to a quotient that is not zero: its fraction then has
53 bits, unless the number is smaller than such fractions reach. -/
def binaryExponent (num den : Nat) : Int :=
  let guess : Int := (num.log2 : Int) - (den.log2 : Int) - 52
  -- the quotient lies between 2 ^ (guess + 51) and 2 ^ (guess + 53)
  let (up, down) := power 2 guess
  let exact := if num * down < den * up * Nat.pow 2 52 then guess - 1 else guess
  max exact (-1074)

/-- The nearest binary number of 64 bits to a quotient. -/
def nearest (num den : Nat) : Binary :=
  if num = 0 then .finite 0 (-1074)
  else
    let q := binaryExponent num den
    let (up, down) := power 2 q
    let fraction := roundHalfEven (num * down) (den * up)
    let (fraction, q) := if fraction = Nat.pow 2 53 then (Nat.pow 2 52, q + 1) else (fraction, q)
    if q > 971 then .tooLarge else .finite fraction q

/-- The nearest binary number to `digits * 10 ^ exponent`. What is far too large or far too small is
settled without computing the power. -/
def toBinary (digits : Nat) (exponent : Int) : Binary :=
  let width : Int := exponent + decimalWidth digits
  if digits = 0 ∨ width < -400 then .finite 0 (-1074)
  else if width > 400 then .tooLarge
  else
    let (up, down) := power 10 exponent
    nearest (digits * up) down

/-- The whole numbers next to a quotient in units of `10 ^ scale`, the nearer one first and of two
that are equally near the upper one, if one of them is nearest to the binary number given. -/
def digitsOf? (binary : Binary) (num den : Nat) (scale : Int) : Option Nat :=
  let (up, down) := power 10 scale
  let low := num * down / (den * up)
  let twice := 2 * (num * down % (den * up))
  let candidates := if twice < den * up then [low, low + 1] else [low + 1, low]
  candidates.find? fun n => toBinary n scale = binary

/-- The first power of ten above a quotient that is not zero, near a guess. -/
def widthOf (num den : Nat) (guess : Int) : Int :=
  let above := fun (p : Int) =>
    let (up, down) := power 10 p
    num * down < den * up
  if above (guess - 1) then guess - 1 else if above guess then guess else guess + 1

/-- The fewest digits that name a binary number, and the power of ten in front of whose point they
stand: `0.DIGITS * 10 ^ width`. -/
def shortest (fraction : Nat) (q : Int) : Nat × Int :=
  let (up, den) := power 2 q
  let num := fraction * up
  let guess : Int := (decimalWidth num : Int) - (decimalWidth den : Int) + 1
  let width := widthOf num den guess
  let found := (List.range 18).findSome? fun (count : Nat) =>
    (digitsOf? (.finite fraction q) num den (width - (count : Int) - 1)).map fun n => (n, count + 1)
  match found with
  | some (n, count) => if n = Nat.pow 10 count then (1, width + 1) else (n, width)
  | none => (fraction, width)

/-- Digits with a point behind the first `width` of them, and a zero where either side has none. -/
def withPoint (digits : List Char) (width : Int) : List Char :=
  if width ≤ 0 then ['0', '.'] ++ List.replicate (-width).toNat '0' ++ digits
  else
    let whole := digits.take width.toNat ++ List.replicate (width.toNat - digits.length) '0'
    let rest := digits.drop width.toNat
    whole ++ '.' :: (if rest = [] then ['0'] else rest)

/-- Whether a number is too large to be held. A negative one of that size counts as infinite. -/
def overflows : Number → Bool
  | finite false digits exponent => toBinary digits exponent = .tooLarge
  | _ => false

/-- A number as messages show it. -/
def toString : Number → String
  | nan => "NaN"
  | infinite negative => if negative then "-inf" else "inf"
  | finite negative digits exponent =>
    let sign := if negative then ['-'] else []
    match toBinary digits exponent with
    | .tooLarge => String.ofList (sign ++ "inf".toList)
    | .finite fraction q =>
      if fraction = 0 then String.ofList (sign ++ "0.0".toList)
      else
        let (n, width) := shortest fraction q
        let shown := (ToString.toString n).toList
        let trimmed := (shown.reverse.dropWhile (· = '0')).reverse
        String.ofList (sign ++ withPoint trimmed width)

instance : ToString Number := ⟨toString⟩

end Number

end ArtifactSync.Toml
