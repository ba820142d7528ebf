import ArtifactSync.Toml.Value

/-!
# Scanning configuration text

Readers for the parts of a configuration text that hold no other parts: blanks, comments, names,
strings, numbers and dates. A reader takes a place in the text and gives what it read with the place
behind it, or nothing if the text cannot be read so.
-/

namespace ArtifactSync.Toml

/-- A place in a text: what is left, and the number of characters in front of it. -/
structure Cursor where
  rest : List Char
  offset : Nat

/-- A reader of one kind of thing. -/
abbrev Reader (α : Type) := Cursor → Option (α × Cursor)

namespace Cursor

/-- The place at the start of a text. -/
def start (cs : List Char) : Cursor := ⟨cs, 0⟩

/-- The place some characters further on. -/
def advance (c : Cursor) (n : Nat) : Cursor :=
  ⟨c.rest.drop n, c.offset + n⟩

/-- The next character. -/
def peek? (c : Cursor) : Option Char := c.rest.head?

/-- Whether a text comes next. -/
def sees (c : Cursor) (text : List Char) : Bool :=
  text.isPrefixOf c.rest

/-- The place behind a text that must come next. -/
def skip? (c : Cursor) (text : List Char) : Option Cursor :=
  if c.sees text then some (c.advance text.length) else none

/-- The characters of a class that come next, and the place behind them. -/
def takeWhile (c : Cursor) (p : Char → Bool) : List Char × Cursor :=
  let taken := c.rest.takeWhile p
  (taken, c.advance taken.length)

/-- The place behind the blanks that come next on the line. -/
def skipBlanks (c : Cursor) : Cursor :=
  (c.takeWhile fun ch => ch == ' ' || ch == '\t').2

/-- The place behind a line end, which must come next. -/
def skipLineEnd? (c : Cursor) : Option Cursor :=
  match c.rest with
  | '\n' :: _ => some (c.advance 1)
  | '\r' :: '\n' :: _ => some (c.advance 2)
  | _ => none

/-- Whether a character may stand in a comment. -/
def isCommentChar (ch : Char) : Bool :=
  ch == '\t' || (32 ≤ ch.toNat && ch.toNat ≠ 127)

/-- The place behind a comment, if one comes next. -/
def skipComment (c : Cursor) : Cursor :=
  if c.peek? = some '#' then (c.takeWhile isCommentChar).2 else c

/-- The place behind the rest of a line on which only blanks and a comment may stand. -/
def endLine? (c : Cursor) : Option Cursor :=
  let c := c.skipBlanks.skipComment
  if c.rest = [] then some c else c.skipLineEnd?

/-- The place behind blanks, line ends, and comments that end in one; at most `limit` of the last
two. -/
def skipLinesWithin : Nat → Cursor → Option Cursor
  | 0, c => some c.skipBlanks
  | limit + 1, c =>
    let c := c.skipBlanks
    match c.peek? with
    | some '#' => c.skipComment.skipLineEnd?.bind (skipLinesWithin limit)
    | some '\n' => c.skipLineEnd?.bind (skipLinesWithin limit)
    | some '\r' => c.skipLineEnd?.bind (skipLinesWithin limit)
    | _ => some c

/-- The place behind blanks, line ends, and comments that end in one. -/
def skipLines? (c : Cursor) : Option Cursor :=
  skipLinesWithin c.rest.length c

end Cursor

/-! ## Strings -/

/-- Whether a character is a hexadecimal digit. -/
def isHex (c : Char) : Bool :=
  c.isDigit || ('a' ≤ c && c ≤ 'f') || ('A' ≤ c && c ≤ 'F')

/-- The value of a digit in any base up to sixteen. -/
def digitValue (c : Char) : Nat :=
  if c.isDigit then c.toNat - 48 else c.toLower.toNat - 87

/-- The number that digits spell in a base. -/
def numberIn (base : Nat) (digits : List Char) : Nat :=
  digits.foldl (fun n c => n * base + digitValue c) 0

/-- The character that hexadecimal digits name. -/
def codePoint? (digits : List Char) (count : Nat) : Option Char :=
  let n := numberIn 16 digits
  if digits.length = count && digits.all isHex && n.isValidChar then some (Char.ofNat n) else none

/-- What stands behind a backslash: how many characters it takes, and the one it means. -/
def escape? (cs : List Char) : Option (Nat × Char) :=
  match cs with
  | 'b' :: _ => some (1, Char.ofNat 8)
  | 'f' :: _ => some (1, Char.ofNat 12)
  | 'n' :: _ => some (1, '\n')
  | 'r' :: _ => some (1, '\r')
  | 't' :: _ => some (1, '\t')
  | '\\' :: _ => some (1, '\\')
  | '"' :: _ => some (1, '"')
  | 'u' :: rest => (codePoint? (rest.take 4) 4).map fun c => (5, c)
  | 'U' :: rest => (codePoint? (rest.take 8) 8).map fun c => (9, c)
  | _ => none

/-- Whether a character may stand for itself in a string. -/
def isPlain (c : Char) : Bool :=
  c == '\t' || (32 ≤ c.toNat && c.toNat ≠ 127)

/-- The rest of a string on one line: what it means, and how many characters it takes with its
closing quote. The first `skip` characters are already understood. -/
def lineString? (quote : Char) (escapes : Bool) : Nat → List Char → Option (List Char × Nat)
  | _, [] => none
  | skip + 1, _ :: cs => (lineString? quote escapes skip cs).map fun (s, n) => (s, n + 1)
  | 0, c :: cs =>
    if c = quote then some ([], 1)
    else if escapes && c = '\\' then
      match escape? cs with
      | none => none
      | some (taken, meant) =>
        (lineString? quote escapes taken cs).map fun (s, n) => (meant :: s, n + 1)
    else if isPlain c then (lineString? quote escapes 0 cs).map fun (s, n) => (c :: s, n + 1)
    else none

/-- How many characters a backslash at the end of a line takes: the blanks behind it, the line end,
and all blanks and line ends that follow. Nothing if other text follows on the line. -/
def lineEscape? (cs : List Char) : Option Nat :=
  let blanks := cs.takeWhile fun c => c == ' ' || c == '\t'
  let blanksAndEnds := cs.takeWhile fun c => c == ' ' || c == '\t' || c == '\n' || c == '\r'
  -- a carriage return counts only in front of a line feed
  let pairs := fun (ws : List Char) =>
    (List.range ws.length).find? fun i => ws[i]? = some '\r' && ws[i + 1]? ≠ some '\n'
  let taken := (pairs blanksAndEnds).getD blanksAndEnds.length
  match (cs.take taken).drop blanks.length with
  | [] => none
  | _ => some taken

/-- The rest of a string over several lines: what it means, and how many characters it takes with
its three closing quotes. Up to two quotes may stand in front of those. -/
def blockString? (quote : Char) (escapes : Bool) : Nat → List Char → Option (List Char × Nat)
  | _, [] => none
  | skip + 1, _ :: cs => (blockString? quote escapes skip cs).map fun (s, n) => (s, n + 1)
  | 0, c :: cs =>
    if c = quote then
      let run := ((c :: cs).takeWhile (· = quote)).length
      if run ≥ 3 then
        let inside := min (run - 3) 2
        some (List.replicate inside quote, inside + 3)
      else (blockString? quote escapes 0 cs).map fun (s, n) => (c :: s, n + 1)
    else if escapes && c = '\\' then
      match lineEscape? cs with
      | some taken => (blockString? quote escapes taken cs).map fun (s, n) => (s, n + 1)
      | none =>
        match escape? cs with
        | none => none
        | some (taken, meant) =>
          (blockString? quote escapes taken cs).map fun (s, n) => (meant :: s, n + 1)
    else if c = '\n' then (blockString? quote escapes 0 cs).map fun (s, n) => (c :: s, n + 1)
    else if c = '\r' && cs.head? = some '\n' then
      (blockString? quote escapes 0 cs).map fun (s, n) => (s, n + 1)
    else if isPlain c then (blockString? quote escapes 0 cs).map fun (s, n) => (c :: s, n + 1)
    else none

/-- Reads a string in the quotes given, on one line. -/
def readLineString (quote : Char) : Reader (List Char) := fun c =>
  match c.rest with
  | q :: cs =>
    if q = quote then
      (lineString? quote (quote = '"') 0 cs).map fun (s, n) => (s, c.advance (n + 1))
    else none
  | [] => none

/-- Reads a string in three of the quotes given, on any number of lines. A line end behind the
opening quotes is left out. -/
def readBlockString (quote : Char) : Reader (List Char) := fun c =>
  (c.skip? [quote, quote, quote]).bind fun c =>
    let c := c.skipLineEnd?.getD c
    (blockString? quote (quote = '"') 0 c.rest).map fun (s, n) => (s, c.advance n)

/-- Reads a string of any kind. -/
def readString : Reader (List Char) := fun c =>
  match c.peek? with
  | none => none
  | some quote =>
    if c.sees [quote, quote, quote] then readBlockString quote c else readLineString quote c

/-! ## Names -/

/-- Whether a character may stand in a name without quotes. -/
def isBare (c : Char) : Bool :=
  c.isAlphanum || c == '-' || c == '_'

/-- Reads one name. -/
def readName : Reader Key := fun c =>
  match c.peek? with
  | none => none
  | some ch =>
    if ch = '"' ∨ ch = '\'' then
      (readLineString ch c).map fun (text, after) => (⟨text, c.offset, after.offset⟩, after)
    else match c.takeWhile isBare with
      | ([], _) => none
      | (text, after) => some (⟨text, c.offset, after.offset⟩, after)

/-- How many names with dots between them may stand in a row. -/
def maxNames : Nat := 80

/-- Reads names with dots between them, fewer than `limit`. -/
def readNamesWithin : Nat → Reader (List Key)
  | 0, _ => none
  | limit + 1, c =>
    match readName c.skipBlanks with
    | none => none
    | some (key, c) =>
      let c := c.skipBlanks
      if c.peek? = some '.' then
        (readNamesWithin limit (c.advance 1)).map fun (keys, c) => (key :: keys, c)
      else some ([key], c)

/-- Reads names with dots between them. -/
def readNames : Reader (List Key) :=
  readNamesWithin (maxNames - 1)

/-! ## Numbers -/

/-- Reads digits of a base, with single underscores between them, and gives the digits. -/
def readDigits (isDigit : Char → Bool) : Reader (List Char) := fun c =>
  let (text, after) := c.takeWhile fun ch => isDigit ch || ch == '_'
  let doubled := (text.zip (text.drop 1)).any fun p => p.1 == '_' && p.2 == '_'
  if text = [] || text.head? = some '_' || text.getLast? = some '_' || doubled then none
  else some (text.filter (· ≠ '_'), after)

/-- Reads a sign, if there is one, and says whether it is a minus. -/
def readSign (c : Cursor) : Bool × Cursor :=
  match c.peek? with
  | some '-' => (true, c.advance 1)
  | some '+' => (false, c.advance 1)
  | _ => (false, c)

/-- Reads the digits of a whole decimal: a zero stands alone. -/
def readWhole : Reader (List Char) := fun c =>
  if c.peek? = some '0' then some (['0'], c.advance 1)
  else readDigits Char.isDigit c

/-- Reads a point and the digits behind it, if there is a point. -/
def readFraction : Reader (List Char) := fun c =>
  if c.peek? = some '.' then readDigits Char.isDigit (c.advance 1) else some ([], c)

/-- Reads an exponent, if there is one. -/
def readExponent : Reader (Option Int) := fun c =>
  if c.peek? = some 'e' ∨ c.peek? = some 'E' then
    let (negative, c) := readSign (c.advance 1)
    (readDigits Char.isDigit c).map fun (digits, c) =>
      let n : Int := numberIn 10 digits
      (some (if negative then -n else n), c)
  else some (none, c)

/-- The whole numbers that fit: those of 64 bits with a sign. -/
def fits (n : Int) : Bool :=
  -9223372036854775808 ≤ n && n ≤ 9223372036854775807

/-- Reads one of the names of numbers that no digits spell. -/
def readNamedNumber (negative : Bool) : Reader Scalar := fun c =>
  if c.sees "inf".toList then some (.number (.infinite negative), c.advance 3)
  else if c.sees "nan".toList then some (.number .nan, c.advance 3)
  else none

/-- Reads a decimal, with a fraction or an exponent or neither. -/
def readDecimal : Reader Scalar := fun c =>
  let (negative, unsigned) := readSign c
  match readNamedNumber negative unsigned with
  | some answer => some answer
  | none =>
    match readWhole unsigned with
    | none => none
    | some (whole, c) =>
      match readFraction c with
      | none => none
      | some (fraction, c) =>
        match readExponent c with
        | none => none
        | some (exponent, c) =>
          if fraction = [] && exponent = none then
            let n : Int := numberIn 10 whole
            let n := if negative then -n else n
            if fits n then some (.integer n, c) else none
          else
            let value := Number.finite negative (numberIn 10 (whole ++ fraction))
              (exponent.getD 0 - fraction.length)
            if value.overflows then none else some (.number value, c)

/-- Reads a whole number in the base that a prefix names. -/
def readBased (base : Nat) (isDigit : Char → Bool) : Reader Scalar := fun c =>
  (readDigits isDigit (c.advance 2)).bind fun (digits, c) =>
    let n : Int := numberIn base digits
    if fits n then some (.integer n, c) else none

/-! ## Dates -/

/-- Reads a number of a fixed count of digits in a range. -/
def readFixed (count low high : Nat) : Reader Nat := fun c =>
  let digits := (c.rest.take count).takeWhile Char.isDigit
  let n := numberIn 10 digits
  if digits.length = count && low ≤ n && n ≤ high then some (n, c.advance count) else none

/-- The number of days in a month. -/
def daysIn (year month : Nat) : Nat :=
  let leap := year % 4 = 0 && (year % 100 ≠ 0 || year % 400 = 0)
  if month = 2 then (if leap then 29 else 28)
  else if [4, 6, 9, 11].contains month then 30 else 31

/-- The place behind a date. -/
def skipDay? (c : Cursor) : Option Cursor :=
  (readFixed 4 0 9999 c).bind fun (year, c) =>
  (c.skip? ['-']).bind fun c =>
  (readFixed 2 1 12 c).bind fun (month, c) =>
  (c.skip? ['-']).bind fun c =>
  (readFixed 2 1 (daysIn year month) c).map Prod.snd

/-- The place behind a time of day. -/
def skipTime? (c : Cursor) : Option Cursor :=
  (readFixed 2 0 23 c).bind fun (_, c) =>
  (c.skip? [':']).bind fun c =>
  (readFixed 2 0 59 c).bind fun (_, c) =>
  (c.skip? [':']).bind fun c =>
  (readFixed 2 0 60 c).bind fun (_, c) =>
    if c.peek? = some '.' then
      match (c.advance 1).takeWhile Char.isDigit with
      | ([], _) => none
      | (_, c) => some c
    else some c

/-- The place behind a difference to universal time, if there is one. -/
def skipZone? (c : Cursor) : Option Cursor :=
  match c.peek? with
  | some 'Z' => some (c.advance 1)
  | some 'z' => some (c.advance 1)
  | some '+' => hours (c.advance 1)
  | some '-' => hours (c.advance 1)
  | _ => some c
where
  /-- The place behind hours and minutes. -/
  hours (c : Cursor) : Option Cursor :=
    (readFixed 2 0 23 c).bind fun (_, c) =>
    (c.skip? [':']).bind fun c =>
    (readFixed 2 0 59 c).map Prod.snd

/-- The place behind a date, a time of day, or a date with a time of day. -/
def skipDate? (c : Cursor) : Option Cursor :=
  match skipDay? c with
  | none => skipTime? c
  | some day =>
    match day.peek? with
    | some ch =>
      if ch = 'T' ∨ ch = 't' ∨ ch = ' ' then
        match (skipTime? (day.advance 1)).bind skipZone? with
        | some c => some c
        | none => some day
      else some day
    | none => some day

/-- Reads a date or a number. -/
def readNumberOrDate : Reader Scalar := fun c =>
  match skipDate? c with
  | some after => some (.date, after)
  | none =>
    if c.sees ['0', 'x'] then readBased 16 isHex c
    else if c.sees ['0', 'o'] then readBased 8 (fun d => '0' ≤ d && d ≤ '7') c
    else if c.sees ['0', 'b'] then readBased 2 (fun d => d == '0' || d == '1') c
    else readDecimal c

/-- Reads a value without parts. -/
def readScalar : Reader Scalar := fun c =>
  match c.peek? with
  | none => none
  | some ch =>
    if ch = '"' ∨ ch = '\'' then (readString c).map fun (s, c) => (.string s, c)
    else if c.sees "true".toList then some (.boolean true, c.advance 4)
    else if c.sees "false".toList then some (.boolean false, c.advance 5)
    else if ch = 'i' ∨ ch = 'n' then readNamedNumber false c
    else if ch = '+' ∨ ch = '-' ∨ ch.isDigit then readNumberOrDate c
    else none

end ArtifactSync.Toml
