import ArtifactSync.Process.Print
import ArtifactSync.Process.Record.Table

/-!
# Values of record scripts

A value is a text or a number of the machine. Text that was read counts as a number where it looks
like one, and a variable without a value counts as either. A number is shown as a whole number if it
is one, and under a format otherwise.
-/

namespace ArtifactSync.Process

/-! ## Numbers of the machine -/

/-- A number of the machine as a quotient. -/
def Fraction.ofFloat (f : Float) : Fraction :=
  let bits := f.toBits.toNat
  let negative := Nat.pow 2 63 ≤ bits
  let exponent : Int := (bits / Nat.pow 2 52 % 2048 : Nat)
  let part := bits % Nat.pow 2 52
  if exponent = 2047 then (if part = 0 then .infinite negative else .nan)
  else
    let (num, shift) := if exponent = 0 then (part, (-1074 : Int))
      else (part + Nat.pow 2 52, exponent - 1075)
    let (num, den) := scaled 2 shift num 1
    .finite negative num den

/-- The number of the machine that a quotient is, if its denominator is a power of two. -/
def Fraction.toFloat : Fraction → Float
  | finite negative num den =>
    let f := (Float.ofNat num).scaleB (-(den.log2 : Int))
    if negative then -f else f
  | infinite negative => if negative then -(1.0 / 0.0) else 1.0 / 0.0
  | nan => 0.0 / 0.0

namespace Record

/-- The whole number that is left of a number when its fraction is cut off, within the bounds of
what can be shown: 64 bits without a sign, and as many with one for negative numbers. -/
def wholeOf (f : Float) : Int :=
  let most : Int := Nat.pow 2 64 - 1
  let least : Int := -(Nat.pow 2 63 : Nat)
  match Fraction.ofFloat f with
  | .finite negative num den =>
    let n : Int := (num / den : Nat)
    if negative then (if -n < least then least + 1 else -n) else min n most
  | .infinite negative => if negative then least + 1 else most
  | .nan => least

/-- Whether a number is whole and can be shown as one. -/
def isWhole (f : Float) : Bool :=
  match Fraction.ofFloat f with
  | .finite negative num den =>
    num % den = 0 && num / den ≤ (if negative then Nat.pow 2 63 else Nat.pow 2 64)
  | _ => false

/-! ## Values -/

/-- A value of a script. -/
inductive Value where
  | unset
  | number (n : Float)
  | text (w : Word)
  /-- Text that was read, and that may be a number. -/
  | read (w : Word)

/-- The number at the start of a word. -/
def numberAt (w : Word) : Float :=
  (leadingFraction 53 w).1.toFloat

/-- The number that a word is from end to end, if it is one. It holds a digit or more, so that no
name is a number. -/
def numberOf? (w : Word) : Option Float :=
  let w := Word.trim w
  let (f, rest) := leadingFraction 53 w
  if rest ≠ [] || !w.any Char.isDigit then none else some f.toFloat

/-! ## Formats -/

/-- What keeps values from being shown under a format. -/
inductive FormatProblem where
  | tooFew
  /-- The conversion of a number, counted from one, is not known. -/
  | improper (number : Nat)
  deriving DecidableEq, Repr

/-- The conversion behind a percent sign, in which a star is a width or a precision that is still to
be given: the conversion, which numbers are still to be given, and how many characters it takes. -/
structure WrittenConversion where
  conversion : Conversion
  widthGiven : Bool
  precisionGiven : Bool
  taken : Nat
  deriving DecidableEq, Repr

/-- Reads the conversion behind a percent sign. -/
def WrittenConversion.read? (cs : List Char) : Option WrittenConversion :=
  let flags := cs.takeWhile fun f => "#-+ 0".toList.contains f
  let behind := cs.drop flags.length
  let star := behind.head? = some '*'
  let digits := behind.takeWhile Char.isDigit
  let behind := behind.drop (if star then 1 else digits.length)
  let point := behind.head? = some '.'
  let behind := if point then behind.drop 1 else behind
  let starred := point && behind.head? = some '*'
  let places := if point then behind.takeWhile Char.isDigit else []
  let behind := behind.drop (if starred then 1 else places.length)
  let behind := behind.dropWhile fun m => m = 'l' || m = 'h'
  behind.head?.map fun kind =>
    let precision := if point && !starred then some (numberIn 10 places) else none
    ⟨⟨flags, numberIn 10 digits, precision, kind⟩, star, starred,
      cs.length - behind.length + 1⟩

/-- The bytes that a value of a kind gives under a conversion; values are asked for their numbers
and texts. -/
def converted? (k : Conversion) (isNumber : Bool) (n : Float) (w : Word) : Option Word :=
  let number := fun (kind : Char) => Word.ofBytes ({ k with kind := kind }.whole (wholeOf n))
  if k.kind = 'd' || k.kind = 'i' then some (number 'd')
  else if "oxXu".toList.contains k.kind then some (number k.kind)
  else if "eEfFgG".toList.contains k.kind then
    some (Word.ofBytes (k.fraction (Fraction.ofFloat n)))
  else if k.kind = 'c' then
    let byte := if isNumber then byteOf ((wholeOf n) % 256).toNat
      else byteOf ((w.head?.map Char.toNat).getD 0)
    some (Word.ofBytes (k.fill [byte]))
  else if k.kind = 's' then some (Word.ofBytes (k.text (Word.bytes w)))
  else none

/-- A number under a format of one conversion. -/
def underFormat (format : Word) (n : Float) : Word :=
  let front := format.takeWhile (· ≠ '%')
  let behind := format.drop (front.length + 1)
  match WrittenConversion.read? behind with
  | some c => front ++ (converted? c.conversion true n []).getD [] ++ behind.drop c.taken
  | none => format

/-- A number as text: a whole number as it is, another one under a format. -/
def textOfNumber (format : Word) (n : Float) : Word :=
  if isWhole n then (toString (wholeOf n)).toList
  else if n.isNaN then "-nan".toList
  else underFormat format n

namespace Value

/-- A truth value as a number. -/
def ofBool (b : Bool) : Value := .number (if b then 1.0 else 0.0)

/-- The number that a value counts as. -/
def toNumber : Value → Float
  | unset => 0.0
  | number n => n
  | text w => numberAt w
  | read w => numberAt w

/-- The text of a value; the format is for numbers with a fraction. -/
def toText (format : Word) : Value → Word
  | unset => []
  | number n => textOfNumber format n
  | text w => w
  | read w => w

/-- The number that a value is, if it is one. -/
def number? : Value → Option Float
  | unset => some 0.0
  | number n => some n
  | text _ => none
  | read w => numberOf? w

/-- Whether a value is a number, or text that was read and is one. -/
def isNumeric : Value → Bool
  | unset => false
  | v => v.number?.isSome

/-- Whether a value counts as true. -/
def isTrue : Value → Bool
  | unset => false
  | number n => n != 0.0
  | text w => !w.isEmpty
  | read w =>
    match numberOf? w with
    | some n => n != 0.0
    | none => !w.isEmpty

/-- The key that a value is. Whole numbers beyond the bounds of one with a sign are shown under the
format. -/
def toKey (format : Word) : Value → Key
  | number n =>
    if isWhole n && n.abs < 2147483648.0 then .number (wholeOf n)
    else if n.abs < 9223372036854775808.0 then .word (textOfNumber format n)
    else .word (underFormat format n)
  | v => .word (v.toText format)

end Value

/-- How two values compare. -/
inductive Comparison where
  | less
  | atMost
  | same
  | other
  | more
  | atLeast
  deriving DecidableEq, Repr

/-- Whether two numbers compare so, by their difference: without a sign of it they are the same. -/
def Comparison.ofNumbers (c : Comparison) (a b : Float) : Bool :=
  let difference := a - b
  match c with
  | less => difference < 0.0
  | atMost => !(0.0 < difference)
  | same => !(difference < 0.0) && !(0.0 < difference)
  | other => difference < 0.0 || 0.0 < difference
  | more => 0.0 < difference
  | atLeast => !(difference < 0.0)

/-- Whether two words compare so, byte by byte. -/
def Comparison.ofWords : Comparison → Word → Word → Bool
  | less, a, b => !Word.comesNoLater b a
  | atMost, a, b => Word.comesNoLater a b
  | same, a, b => a = b
  | other, a, b => a ≠ b
  | more, a, b => !Word.comesNoLater a b
  | atLeast, a, b => Word.comesNoLater b a

/-- Whether two values compare so: as numbers if both are some, and as texts otherwise. -/
def Comparison.holds (c : Comparison) (format : Word) (a b : Value) : Bool :=
  match a.number?, b.number? with
  | some m, some n => c.ofNumbers m n
  | _, _ => c.ofWords (a.toText format) (b.toText format)

/-- A text in which each conversion of a format shows the next value, as far as there are values,
and what keeps it from going on. The conversions are counted, and the first `skip` characters belong
to one that is already shown. -/
def formatFrom (numberFormat : Word) : Nat → Nat → List Char → List Value →
    Word × Option FormatProblem
  | _, _, [], _ => ([], none)
  | count, skip + 1, _ :: cs, values => formatFrom numberFormat count skip cs values
  | count, 0, c :: cs, values =>
    let behind := fun (front : Word) (count skip : Nat) (values : List Value) =>
      let (text, problem) := formatFrom numberFormat count skip cs values
      (front ++ text, problem)
    if c ≠ '%' then behind [c] count 0 values
    else if cs.head? = some '%' then behind ['%'] count 1 values
    else match WrittenConversion.read? cs with
      | none => ([], some .tooFew)
      | some written =>
        let given := fun (asked : Bool) (values : List Value) =>
          if asked then (values.head?.map fun v => wholeOf v.toNumber, values.drop 1)
          else (some 0, values)
        let (width, values) := given written.widthGiven values
        let (places, values) := given written.precisionGiven values
        match width, places, values with
        | some width, some places, value :: rest =>
          let k := written.conversion
          let k := if width < 0 then { k with flags := '-' :: k.flags } else k
          let k := if written.widthGiven then { k with width := width.natAbs } else k
          let k := if !written.precisionGiven then k
            else { k with precision := if 0 ≤ places then some places.toNat else none }
          match converted? k value.isNumeric value.toNumber (value.toText numberFormat) with
          | none => ([], some (.improper (count + 1)))
          | some text => behind text (count + 1) written.taken rest
        | _, _, _ => ([], some .tooFew)

end Record

end ArtifactSync.Process
