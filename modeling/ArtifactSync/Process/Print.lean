import ArtifactSync.Process.Fraction
import ArtifactSync.Process.Quote
import ArtifactSync.Process.Status

/-!
# Formatted printing

The program that prints its words under a format, the program that prints them as they are, and the
escapes both understand. A shell has its own ones of these, with somewhat different manners.
-/

namespace ArtifactSync.Process

/-- Whose manners a printer has. -/
inductive Manners where
  | shell
  | tool
  deriving DecidableEq, Repr

/-! ## Escapes -/

/-- Whether a character is an octal digit. -/
def isOctal (c : Char) : Bool :=
  '0' ≤ c && c ≤ '7'

/-- The byte that a number gives when nothing else of it is kept. -/
def byteOf (n : Nat) : UInt8 := UInt8.ofNat n

/-- The byte of a letter behind a backslash. -/
def letterByte? (c : Char) : Option UInt8 :=
  (([('a', 7), ('b', 8), ('e', 27), ('f', 12), ('n', 10), ('r', 13), ('t', 9), ('v', 11),
    ('\\', 92)] : List (Char × UInt8)).find? fun e => e.1 = c).map Prod.snd

/-- Where an escape stands: in a format, or in a word that is printed with its escapes. -/
inductive EscapePlace where
  | format
  | word
  /-- In a word of a tool that knows no formats. -/
  | plainWord
  deriving DecidableEq, Repr

/-- What an escape prints, how many characters behind the backslash it takes, whether it ends all
printing, and whether digits are missing in it. -/
structure Escape where
  bytes : List UInt8
  taken : Nat
  ends : Bool
  lacks : Bool
  deriving DecidableEq, Repr

/-- An escape that prints bytes. -/
def Escape.simple (bytes : List UInt8) (taken : Nat) : Escape :=
  ⟨bytes, taken, false, false⟩

/-- The escape of a tool that names a character by its number. The numbers of characters beyond
ASCII are printed as they are written. -/
def numberedEscape (letter : Char) (rest : List Char) : Escape :=
  let count := if letter = 'u' then 4 else 8
  let digits := (rest.take count).takeWhile (isDigitIn 16)
  if digits.length < count then ⟨[], 0, false, true⟩
  else
    let n := numberIn 16 digits
    if n < 128 then .simple [byteOf n] (count + 1)
    else .simple (Word.bytes ('\\' :: letter :: digits.map Char.toUpper)) (count + 1)

/-- The escape that a backslash makes of the text behind it. -/
def escapeOf (manners : Manners) (place : EscapePlace) (cs : List Char) : Escape :=
  match cs with
  | [] => .simple [92] 0
  | c :: rest =>
    let isTool := manners = .tool
    let unknown : Escape :=
      if isTool then .simple (92 :: Word.bytes [c]) 1 else .simple [92] 0
    if c = 'c' && (isTool || place ≠ .format) then ⟨[], 1, true, false⟩
    else if isOctal c then
      let skip := if place ≠ .format && c = '0' then 1 else 0
      let digits := ((cs.drop skip).take 3).takeWhile isOctal
      .simple [byteOf (numberIn 8 digits)] (digits.length + skip)
    else if isTool && c = 'x' then
      let digits := (rest.take 2).takeWhile (isDigitIn 16)
      if digits ≠ [] then .simple [byteOf (numberIn 16 digits)] (digits.length + 1)
      else if place = .plainWord then unknown
      else ⟨[], 0, false, true⟩
    else if isTool && place ≠ .plainWord && (c = 'u' || c = 'U') then numberedEscape c rest
    else if isTool && place ≠ .plainWord && c = '"' then .simple [34] 1
    else match letterByte? c with
      | some b => .simple [b] 1
      | none => unknown

/-- A text with its escapes carried out, and whether one of them ended all printing. The first
`skip` characters belong to an escape that is already printed. -/
def unescape (manners : Manners) (place : EscapePlace) : Nat → List Char → List UInt8 × Bool
  | _, [] => ([], false)
  | skip + 1, _ :: cs => unescape manners place skip cs
  | 0, c :: cs =>
    let (front, taken, ends) :=
      if c = '\\' then
        let e := escapeOf manners place cs
        (e.bytes, e.taken, e.ends)
      else (Word.bytes [c], 0, false)
    if ends then (front, true)
    else
      let (rest, ended) := unescape manners place taken cs
      (front ++ rest, ended)

/-- Words with blanks between them. -/
def joinWords (words : List Word) : Word :=
  List.intercalate [' '] words

/-! ## Words as they are -/

/-- What a shell prints for words: with their escapes, each behind a blank, and with a line end
unless the first word forbids it. An escape may end the printing of its word, and then of the line
end. -/
def shellEcho (args : List Word) : List UInt8 :=
  let quiet := args.head? = some ['-', 'n']
  let words := (if quiet then args.drop 1 else args).map (unescape .shell .word 0)
  let shown := words.map Prod.fst
  let ended := words.any Prod.snd
  -- what is printed behind an escape that ends it is not seen
  let kept := if ended then shown.take ((words.takeWhile fun w => !w.2).length + 1) else shown
  List.intercalate [32] kept ++ (if quiet || ended then [] else [10])

/-- Prints words as they are, and a line end unless options forbid it. Escapes are carried out if
options ask for that. -/
def echo (c : Call) : Ran :=
  let isOption := fun (w : Word) =>
    w.head? = some '-' && w.length > 1 && (w.drop 1).all fun l => "neE".toList.contains l
  let options := c.args.takeWhile isOption
  let letters := options.flatMap fun w => w.drop 1
  let text := joinWords (c.args.drop options.length)
  let escapes := (letters.filter fun l => l ≠ 'n').getLast? = some 'e'
  let (out, ended) := if escapes then unescape .tool .plainWord 0 text
    else (Word.bytes text, false)
  let tail : List UInt8 := if letters.contains 'n' || ended then [] else [10]
  { c.prints (out ++ tail) 0 with rest := c.input }

/-! ## Formats -/

/-- What a conversion asks for: its signs, its width and its precision. -/
structure Conversion where
  flags : List Char
  width : Nat
  precision : Option Nat
  kind : Char
  deriving DecidableEq, Repr

/-- Bytes filled up with blanks to a width. -/
def Conversion.fill (k : Conversion) (bytes : List UInt8) : List UInt8 :=
  let blanks := List.replicate (k.width - bytes.length) 32
  if k.flags.contains '-' then bytes ++ blanks else blanks ++ bytes

/-- A number filled up to a width, with zeros behind its sign if asked for. -/
def Conversion.fillNumber (k : Conversion) (zeros : Bool) (front digits : List Char) :
    List UInt8 :=
  if zeros && k.flags.contains '0' && !k.flags.contains '-' then
    let fill := List.replicate (k.width - front.length - digits.length) '0'
    Word.bytes (front ++ fill ++ digits)
  else k.fill (Word.bytes (front ++ digits))

/-- The sign in front of a number. -/
def Conversion.sign (k : Conversion) (negative : Bool) : List Char :=
  if negative then ['-']
  else if k.flags.contains '+' then ['+']
  else if k.flags.contains ' ' then [' ']
  else []

/-- What a conversion prints for a whole number. -/
def Conversion.whole (k : Conversion) (n : Int) : List UInt8 :=
  let unsigned := (BitVec.ofInt 64 n).toNat
  let (front, digits) := match k.kind with
    | 'd' => (k.sign (n < 0), Nat.toDigits 10 n.natAbs)
    | 'i' => (k.sign (n < 0), Nat.toDigits 10 n.natAbs)
    | 'o' => ([], Nat.toDigits 8 unsigned)
    | 'x' => (if k.flags.contains '#' && n ≠ 0 then ['0', 'x'] else [], Nat.toDigits 16 unsigned)
    | 'X' => (if k.flags.contains '#' && n ≠ 0 then ['0', 'X'] else [],
        (Nat.toDigits 16 unsigned).map Char.toUpper)
    | _ => ([], Nat.toDigits 10 unsigned)
  let digits := if k.kind = 'o' && k.flags.contains '#' && n ≠ 0 then '0' :: digits else digits
  match k.precision with
  | none => k.fillNumber true front digits
  | some least =>
    let digits := if least = 0 && n = 0 then [] else digits
    k.fillNumber false front (List.replicate (least - digits.length) '0' ++ digits)

/-- What a conversion prints for a number with a fraction. -/
def Conversion.fraction (k : Conversion) (f : Fraction) : List UInt8 :=
  let (negative, digits) :=
    f.shown k.kind.toLower (k.precision.getD 6) (k.flags.contains '#')
  let digits := if k.kind.isUpper then digits.map Char.toUpper else digits
  let isFinite := match f with
    | .finite _ _ _ => true
    | _ => false
  k.fillNumber isFinite (k.sign negative) digits

/-- A word cut to a precision and filled up to a width. -/
def Conversion.text (k : Conversion) (bytes : List UInt8) : List UInt8 :=
  k.fill (match k.precision with
    | some most => bytes.take most
    | none => bytes)

/-- Printing under a format: what is printed so far, the words left over, whether one was asked for,
the code so far, and whether printing has stopped. -/
structure Printing where
  printed : List (Stream × List UInt8)
  args : List Word
  asked : Bool
  code : Nat
  stopped : Bool

namespace Printing

/-- Prints bytes. -/
def out (p : Printing) (bytes : List UInt8) : Printing :=
  { p with printed := p.printed ++ [(.out, bytes)] }

/-- Takes the next word. -/
def next (p : Printing) : Option Word × Printing :=
  (p.args.head?, { p with args := p.args.drop 1, asked := true })

/-- Stops with a complaint. -/
def stop (p : Printing) (complaint : Stream × List UInt8) (code : Nat) : Printing :=
  { p with printed := p.printed ++ [complaint], code := code, stopped := true }

end Printing

/-- A printer: its manners, and how its complaints look. -/
structure Printer where
  manners : Manners
  complaint : String → Stream × List UInt8

namespace Printer

/-- The number that a word is taken for, with a complaint if it is none or more than that. A quoted
character stands for its own number. -/
def number {α : Type} (printer : Printer) (ofByte : Nat → α)
    (read : List Char → α × List Char) (exceeds : α → Bool) (p : Printing) : α × Printing :=
  let (word, p) := p.next
  let isTool := printer.manners = .tool
  let complain := fun (message : String) (p : Printing) =>
    { p with printed := p.printed ++ [printer.complaint message], code := 1 }
  match word with
  | none => (ofByte 0, p)
  | some w =>
    let shown := if isTool then plainQuoted w else String.ofList w
    let isQuote := w.head? = some '\'' || w.head? = some '"'
    if isQuote && (w.length > 1 || !isTool) then
      let value := ofByte (((w[1]?).map Char.toNat).getD 0)
      if isTool && w.length > 2 then
        let more := String.ofList (w.drop 2)
        (value, { p with printed := p.printed ++ [printer.complaint
          s!"warning: {more}: character(s) following character constant have been ignored"] })
      else (value, p)
    else
      let (n, rest) := read w
      if exceeds n && (isTool || rest = []) then
        (n, complain s!"{shown}: Numerical result out of range" p)
      else if rest = [] then (n, p)
      else if rest = w then
        let article := if isTool then "a " else ""
        (n, complain s!"{shown}: expected {article}numeric value" p)
      else
        let what := if isTool then "value not completely converted"
          else "not completely converted"
        (n, complain s!"{shown}: {what}" p)

/-- The whole number of the next word, within 64 bits. -/
def whole (printer : Printer) (signed : Bool) (p : Printing) : Int × Printing :=
  let high : Int := Nat.pow 2 (if signed then 63 else 64) - 1
  let low : Int := if signed then -high - 1 else -high
  let (n, p) := printer.number (fun n => (n : Int)) leadingWhole (fun n => n < low || high < n) p
  ((if signed then max low (min high n) else if n < low || high < n then high else n), p)

/-- The number with a fraction of the next word. -/
def fraction (printer : Printer) (p : Printing) : Fraction × Printing :=
  let bits := if printer.manners = .tool then 64 else 53
  printer.number (fun n => .ofInt n) (leadingFraction bits) (fun _ => false) p

/-- Prints the next word by a conversion; the text of the conversion is for complaints. -/
def convert (printer : Printer) (k : Conversion) (text : List Char) (p : Printing) : Printing :=
  let isTool := printer.manners = .tool
  let unknown := fun (_ : Unit) =>
    let what := if isTool then "invalid conversion specification" else "invalid directive"
    p.stop (printer.complaint s!"{String.ofList text}: {what}") (if isTool then 1 else 2)
  if "di".toList.contains k.kind then
    let (n, p) := printer.whole true p
    p.out (k.whole n)
  else if "ouxX".toList.contains k.kind then
    let (n, p) := printer.whole false p
    p.out (k.whole n)
  else if "eEfFgG".toList.contains k.kind then
    let (f, p) := printer.fraction p
    p.out (k.fraction f)
  else if k.kind = 'c' then
    let (word, p) := p.next
    p.out (k.fill [byteOf (((word.getD []).head?.map Char.toNat).getD 0)])
  else if k.kind = 's' then
    let (word, p) := p.next
    p.out (k.text (Word.bytes (word.getD [])))
  else if isTool && text.length > 2 then unknown ()
  else if k.kind = 'b' then
    let (word, p) := p.next
    let (bytes, ended) := unescape printer.manners .word 0 (word.getD [])
    { p.out (k.text bytes) with stopped := ended }
  else if isTool && k.kind = 'q' then
    let (word, p) := p.next
    p.out (Word.bytesOf (shellShown (word.getD [])))
  else unknown ()

/-- Prints words under a format once. The first `skip` characters of the format are already
printed. -/
def once (printer : Printer) : Nat → List Char → Printing → Printing
  | _, [], p => p
  | skip + 1, _ :: cs, p => once printer skip cs p
  | 0, c :: cs, p =>
    let isTool := printer.manners = .tool
    if p.stopped then p
    else if c = '\\' then
      let e := escapeOf printer.manners .format cs
      if e.lacks then
        p.stop (printer.complaint "missing hexadecimal number in escape") 1
      else if e.ends then { p with stopped := true }
      else once printer e.taken cs (p.out e.bytes)
    else if c ≠ '%' then once printer 0 cs (p.out (Word.bytes [c]))
    else if cs.head? = some '%' then once printer 1 cs (p.out [37])
    else
      let flags := cs.takeWhile fun f => "#-+ 0".toList.contains f
      let behind := cs.drop flags.length
      let star := behind.head? = some '*'
      let digits := behind.takeWhile Char.isDigit
      let (width, p) := if star then printer.whole true p else ((numberIn 10 digits : Nat), p)
      let behind := behind.drop (if star then 1 else digits.length)
      let point := behind.head? = some '.'
      let behind := if point then behind.drop 1 else behind
      let starred := point && behind.head? = some '*'
      let digits := if point then behind.takeWhile Char.isDigit else []
      let (most, p) := if starred then printer.whole true p else ((numberIn 10 digits : Nat), p)
      let behind := behind.drop (if starred then 1 else digits.length)
      let behind := if isTool then behind.dropWhile fun m => "hlLqjzt".toList.contains m else behind
      let taken := cs.length - behind.length
      let flags := if width < 0 then '-' :: flags else flags
      match behind with
      | [] =>
        if isTool then
          p.stop (printer.complaint
            s!"{String.ofList (c :: cs)}: invalid conversion specification") 1
        else p.stop (printer.complaint "missing format character") 2
      | kind :: _ =>
        let precision := if point && 0 ≤ most then some most.toNat else none
        let text := c :: cs.take (taken + 1)
        once printer (taken + 1) cs
          (printer.convert ⟨flags, width.natAbs, precision, kind⟩ text p)

/-- Prints words under a format, again and again until none are left, at most `limit` times more. -/
def all (printer : Printer) (format : List Char) : Nat → Printing → Printing
  | 0, p => p
  | limit + 1, p =>
    let ended := printer.once 0 format { p with asked := false }
    if ended.stopped || ended.args.isEmpty || !ended.asked then ended
    else printer.all format limit ended

/-- Prints words under a format: what is printed, and the code. -/
def run (printer : Printer) (format : Word) (args : List Word) :
    List (Stream × List UInt8) × Nat :=
  let p := printer.all format (args.length + 1) ⟨[], args, false, 0, false⟩
  match printer.manners, p.stopped, p.args with
  | .tool, false, extra :: _ =>
    let warning := s!"warning: ignoring excess arguments, starting with {plainQuoted extra}"
    (p.printed ++ [printer.complaint warning], p.code)
  | .tool, _, _ => (p.printed, p.code)
  | .shell, _, _ =>
    -- a shell prints all at once, and its complaints before that
    let on := fun (stream : Stream) => p.printed.filter fun x => x.1 = stream
    (on .err ++ on .out, p.code)

end Printer

/-- Prints words under the format that the first word is. -/
def printf (c : Call) : Ran :=
  let args := if c.args.head? = some ['-', '-'] then c.args.drop 1 else c.args
  match args with
  | [] =>
    c.complains s!"missing operand\nTry '{String.ofList c.name} --help' for more information." 1
  | format :: args =>
    let (printed, code) := (Printer.mk .tool c.complaint).run format args
    { c.ends printed code with rest := c.input }

end ArtifactSync.Process
