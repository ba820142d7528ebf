/-!
# Fractions as digits

Tools show numbers with a fraction by so many digits behind the point, with or without an exponent.
A number is a quotient of whole numbers here, and every digit that is shown is exact: what is left
over is rounded to the nearest, and from the middle to the even neighbour.

Numbers are read to the nearest one that a machine can hold, which keeps so many binary digits.
-/

namespace ArtifactSync.Process

/-- A number that a machine works with. -/
inductive Fraction where
  | finite (negative : Bool) (num den : Nat)
  | infinite (negative : Bool)
  | nan
  deriving DecidableEq, Repr

/-- The nearest whole number to a quotient; of two that are equally near, the even one. -/
def nearestWhole (num den : Nat) : Nat :=
  let low := num / den
  let twice := 2 * (num % den)
  if twice < den || (twice = den && low % 2 = 0) then low else low + 1

/-- A quotient that is multiplied by a power of a base. -/
def scaled (base : Nat) (exponent : Int) (num den : Nat) : Nat × Nat :=
  if 0 ≤ exponent then (num * Nat.pow base exponent.toNat, den)
  else (num, den * Nat.pow base (-exponent).toNat)

/-- The quotient that keeps so many binary digits of another one. -/
def kept (bits num den : Nat) : Nat × Nat :=
  if num = 0 || den = 0 then (0, 1)
  else
    let guess : Int := (bits : Int) - 1 - ((num.log2 : Int) - (den.log2 : Int))
    -- the product lies between 2 ^ (bits - 2) and 2 ^ bits
    let (n, d) := scaled 2 guess num den
    let shift := if n < d * Nat.pow 2 (bits - 1) then guess + 1 else guess
    let (n, d) := scaled 2 shift num den
    scaled 2 (-shift) (nearestWhole n d) 1

namespace Fraction

/-- A whole number. -/
def ofInt (n : Int) : Fraction :=
  .finite (n < 0) n.natAbs 1

/-- The power of ten that the first digit of a positive quotient stands for. -/
def leadingPower (num den : Nat) : Int :=
  let guess : Int := ((Nat.toDigits 10 num).length : Int) - ((Nat.toDigits 10 den).length : Int)
  let (n, d) := scaled 10 (-guess) num den
  if n < d then guess - 1 else guess

/-- The digits of a number in a base, at least so many, filled up with zeros in front. -/
def digitsIn (base least n : Nat) : List Char :=
  let shown := Nat.toDigits base n
  List.replicate (least - shown.length) '0' ++ shown

/-- The decimal digits of a number, at least so many. -/
def digits (least n : Nat) : List Char :=
  digitsIn 10 least n

/-- A quotient with so many digits behind the point. -/
def fixed (places : Nat) (point : Bool) (num den : Nat) : List Char :=
  let (n, d) := scaled 10 places num den
  let shown := digits (places + 1) (nearestWhole n d)
  let whole := shown.take (shown.length - places)
  whole ++ (if places = 0 && !point then [] else '.' :: shown.drop whole.length)

/-- The first digits of a quotient, one and so many more, and the power of ten of the first. -/
def rounded (places num den : Nat) : Nat × Int :=
  if num = 0 then (0, 0)
  else
    let power := leadingPower num den
    let (n, d) := scaled 10 ((places : Int) - power) num den
    let first := nearestWhole n d
    if first < Nat.pow 10 (places + 1) then (first, power) else (first / 10, power + 1)

/-- A quotient with one digit in front of the point, so many behind it, and an exponent. -/
def scientific (places : Nat) (point : Bool) (num den : Nat) : List Char :=
  let (first, power) := rounded places num den
  let shown := digits (places + 1) first
  let sign := if power < 0 then '-' else '+'
  shown.take 1 ++ (if places = 0 && !point then [] else '.' :: shown.drop 1) ++
    'e' :: sign :: digits 2 power.natAbs

/-- Digits behind a point without the zeros at their end. -/
def withoutZeros (cs : List Char) : List Char :=
  if !cs.contains '.' then cs
  else
    let kept := cs.reverse.dropWhile (· = '0')
    (if kept.head? = some '.' then kept.drop 1 else kept).reverse

/-- A quotient with so many digits in all, in the shorter of the two forms. -/
def general (count : Nat) (point : Bool) (num den : Nat) : List Char :=
  let count := max count 1
  let (_, power) := rounded (count - 1) num den
  if -4 ≤ power && power < count then
    let text := fixed ((count : Int) - 1 - power).toNat point num den
    if point then text else withoutZeros text
  else
    let text := scientific (count - 1) point num den
    if point then text
    else withoutZeros (text.takeWhile (· ≠ 'e')) ++ text.dropWhile (· ≠ 'e')

/-- The sign and the digits of a number, by the letter of a conversion. -/
def shown (kind : Char) (places : Nat) (point : Bool) (f : Fraction) : Bool × List Char :=
  match f with
  | nan => (false, "nan".toList)
  | infinite negative => (negative, "inf".toList)
  | finite negative num den =>
    let text := match kind with
      | 'f' => fixed places point num den
      | 'e' => scientific places point num den
      | _ => general places point num den
    (negative, text)

end Fraction

/-! ## Reading numbers -/

/-- The value of a digit in bases up to 36, if it is one. -/
def digitValue? (c : Char) : Option Nat :=
  if c.isDigit then some (c.toNat - 48)
  else if c.isAlpha then some (c.toLower.toNat - 87)
  else none

/-- Whether a character is a digit in a base. -/
def isDigitIn (base : Nat) (c : Char) : Bool :=
  (digitValue? c).any (· < base)

/-- The number that digits spell in a base. -/
def numberIn (base : Nat) (cs : List Char) : Nat :=
  cs.foldl (fun n c => n * base + (digitValue? c).getD 0) 0

/-- Whether a text begins with another one in either kind of letters. -/
def startsLike (start : String) (cs : List Char) : Bool :=
  start.toList.isPrefixOf (cs.map Char.toLower)

/-- A whole number at the start of a text behind blanks and a sign, and what is behind it: with a
prefix it is hexadecimal, behind a zero octal. Without a number all of the text is left. -/
def leadingWhole (cs : List Char) : Int × List Char :=
  let text := cs.dropWhile fun c => c = ' ' || (9 ≤ c.toNat && c.toNat ≤ 13)
  let negative := text.head? = some '-'
  let body := if negative || text.head? = some '+' then text.drop 1 else text
  let hex := startsLike "0x" body && ((body.drop 2).head?).any (isDigitIn 16)
  let base := if hex then 16 else if body.head? = some '0' then 8 else 10
  let body := if hex then body.drop 2 else body
  let shown := body.takeWhile (isDigitIn base)
  if shown = [] then (0, cs)
  else
    let n : Int := numberIn base shown
    (if negative then -n else n, body.drop shown.length)

/-- A decimal number at the start of a text, to so many binary digits, and what is behind it.
Without a number all of the text is left. -/
def leadingFraction (bits : Nat) (cs : List Char) : Fraction × List Char :=
  let text := cs.dropWhile fun c => c = ' ' || (9 ≤ c.toNat && c.toNat ≤ 13)
  let negative := text.head? = some '-'
  let body := if negative || text.head? = some '+' then text.drop 1 else text
  let whole := body.takeWhile Char.isDigit
  let behind := body.drop whole.length
  let hasPoint := behind.head? = some '.'
  let part := if hasPoint then (behind.drop 1).takeWhile Char.isDigit else []
  if startsLike "infinity" body then (.infinite negative, body.drop 8)
  else if startsLike "inf" body then (.infinite negative, body.drop 3)
  else if startsLike "nan" body then (.nan, body.drop 3)
  else if startsLike "0x" body && ((body.drop 2).head?).any (isDigitIn 16) then
    let shown := (body.drop 2).takeWhile (isDigitIn 16)
    let (num, den) := kept bits (numberIn 16 shown) 1
    (.finite negative num den, body.drop (shown.length + 2))
  else if whole = [] && part = [] then (.finite false 0 1, cs)
  else
    let rest := if hasPoint then behind.drop (part.length + 1) else behind
    let sign := (rest.drop 1).head?
    let signed := sign = some '-' || sign = some '+'
    let power := (rest.drop (if signed then 2 else 1)).takeWhile Char.isDigit
    let hasPower := (rest.head?.map Char.toLower) = some 'e' && power ≠ []
    let exponent : Int := if hasPower then numberIn 10 power else 0
    let exponent := (if sign = some '-' then -exponent else exponent) - (part.length : Int)
    let rest := if hasPower then rest.drop (power.length + (if signed then 2 else 1)) else rest
    let n := numberIn 10 (whole ++ part)
    let width : Int := exponent + ((Nat.toDigits 10 n).length : Int)
    if n = 0 || width < -5000 then (.finite negative 0 1, rest)
    else if width > 5000 then (.infinite negative, rest)
    else
      let (num, den) := scaled 10 exponent n 1
      let (num, den) := kept bits num den
      -- the smaller format holds nothing beyond a bound
      if bits = 53 && Nat.pow 2 1024 * den ≤ num then (.infinite negative, rest)
      else (.finite negative num den, rest)

end ArtifactSync.Process
