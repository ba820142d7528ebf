import ArtifactSync.Process.Input

/-!
# Parts of text

The tools that print text as it is, a part of it, or how much of it there is.
-/

namespace ArtifactSync.Process

/-! ## All of it -/

/-- A number with blanks in front. -/
def numberField (width n : Nat) : List Char :=
  let digits := Nat.toDigits 10 n
  List.replicate (width - digits.length) ' ' ++ digits

/-- A byte in a form that can be printed. -/
def visibleByte (b : UInt8) : List UInt8 :=
  let plain := fun (n : Nat) =>
    if n < 32 then [94, byteOf (n + 64)] else if n = 127 then [94, 63] else [byteOf n]
  let n := b.toNat
  if n < 128 then plain n else [77, 45] ++ plain (n - 128)

/-- Where the tool that copies stands between two files: the number of the last line, and how many
lines in front are empty, if a line begins here. -/
structure CatPlace where
  number : Nat
  fresh : Bool
  voids : Nat

/-- Copies a file in the way that options say. -/
def catFile (o : Options) (place : CatPlace) (bytes : List UInt8) : CatPlace × List UInt8 :=
  let has := fun (letters : String) => letters.toList.any o.has
  let showLine := fun (line : List UInt8) =>
    (body line).flatMap fun b =>
      if b = 9 then (if has "tTA" then [94, 73] else [b])
      else if has "veAt" then visibleByte b else [b]
  (byteLines bytes).foldl (fun (place, out) line =>
    let isVoid := place.fresh && line = [10]
    if isVoid && has "s" && 0 < place.voids then (place, out)
    else
      let counts := place.fresh && (if has "b" then !isVoid else has "n")
      let number := if counts then place.number + 1 else place.number
      let front := if counts then Word.bytes (numberField 6 number ++ ['\t']) else []
      let ended := line.getLast? = some 10
      let tail : List UInt8 := if ended then (if has "EeA" then [36, 10] else [10]) else []
      let voids := if isVoid then place.voids + 1 else 0
      (⟨number, ended, voids⟩, out ++ front ++ showLine line ++ tail)) (place, [])

/-- Copies files one behind the other. -/
def cat (c : Call) : Ran :=
  let rules : OptionRules := ⟨"AbeEnstTuv", "", [("show-all", 'A'), ("number-nonblank", 'b'),
    ("show-ends", 'E'), ("number", 'n'), ("squeeze-blank", 's'), ("show-tabs", 'T'),
    ("show-nonprinting", 'v')], true⟩
  c.withOptions rules 1 fun o =>
    if o.given.isEmpty then printEach c plainComplaint 1 id o.words
    else
      let read := readFiles c o.words
      let (_, printed) := read.foldl (fun (place, printed) (w, r) =>
        match r with
        | .ok bytes =>
          let (place, out) := catFile o place bytes
          (place, printed ++ [(Stream.out, out)])
        | .error e => (place, printed ++ [c.complaint (plainComplaint w e)]))
        (CatPlace.mk 0 true 0, [])
      let failed := read.any fun (_, r) => r.toOption.isNone
      { c.ends printed (if failed then 1 else 0) with rest := inputBehind c o.words }

/-- The lines with their numbers in front. -/
def numberLines (c : Call) : Ran :=
  let rules : OptionRules := ⟨"p", "bnswvihfld", [("body-numbering", 'b'), ("number-format", 'n'),
    ("number-separator", 's'), ("number-width", 'w'), ("starting-line-number", 'v'),
    ("line-increment", 'i')], true⟩
  c.withOptions rules 1 fun o =>
    let (bytes, complaints) := gather c plainComplaint o.words
    let width := ((o.value? 'w').map countOf).getD 6
    let start := ((o.value? 'v').map countOf).getD 1
    let step := ((o.value? 'i').map countOf).getD 1
    let separator := (o.value? 's').getD ['\t']
    let style := (o.value? 'b').getD ['t']
    let form := (o.value? 'n').getD ['r', 'n']
    let field := fun (n : Nat) =>
      let digits := Nat.toDigits 10 n
      if form = ['l', 'n'] then digits ++ List.replicate (width - digits.length) ' '
      else if form = ['r', 'z'] then Fraction.digits width n
      else numberField width n
    let (_, out) := (byteLines bytes).foldl (fun (number, out) line =>
      let text := body line
      let counts := style = ['a'] || (style = ['t'] && text ≠ [])
      let front := if counts then Word.bytes (field number ++ separator)
        else List.replicate (width + separator.length) 32
      (if counts then number + step else number, out ++ front ++ text ++ [10]))
      (start, ([] : List UInt8))
    c.ends (complaints ++ [(.out, out)]) (if complaints.isEmpty then 0 else 1)

/-! ## The start and the end -/

/-- How much of a text is asked for: so many lines or bytes, counted from the start or the end. -/
structure Portion where
  lines : Bool
  fromOtherEnd : Bool
  count : Nat
  deriving DecidableEq, Repr

/-- The number that a word with a unit behind it spells. -/
def sized? (w : Word) : Option Nat :=
  let digits := w.takeWhile Char.isDigit
  let unit := match String.ofList (w.drop digits.length) with
    | "" => some 1
    | "b" => some 512
    | "kB" => some 1000
    | "K" => some 1024
    | "k" => some 1024
    | "MB" => some 1000000
    | "M" => some 1048576
    | _ => none
  if digits = [] then none else unit.map fun u => numberIn 10 digits * u

/-- Words in which a number behind a hyphen is the value of an option. -/
def withCountOption : List Word → List Word
  | ('-' :: d :: ds) :: rest =>
    if d.isDigit && (d :: ds).all Char.isDigit then "-n".toList :: (d :: ds) :: rest
    else ('-' :: d :: ds) :: rest
  | words => words

/-- The portion that options ask for, which is counted from the other end behind a sign; or what is
wrong. -/
def portionOf (sign : Char) (o : Options) : Except String Portion :=
  let asked := (o.given.filter fun g => g.1 = 'n' || g.1 = 'c').getLast?
  match asked with
  | none => .ok ⟨true, false, 10⟩
  | some (letter, w) =>
    let other := w.head? = some sign
    let digits := if w.head? = some '-' || w.head? = some '+' then w.drop 1 else w
    let what := if letter = 'n' then "lines" else "bytes"
    match sized? digits with
    | some n => .ok ⟨letter = 'n', other, n⟩
    | none => .error s!"invalid number of {what}: {plainQuoted w}"

/-- The parts of a text that a portion counts. -/
def Portion.pieces (p : Portion) (bytes : List UInt8) : List (List UInt8) :=
  if p.lines then byteLines bytes else bytes.map fun b => [b]

/-- The start of a text. -/
def Portion.start (p : Portion) (bytes : List UInt8) : List UInt8 :=
  let pieces := p.pieces bytes
  (pieces.take (if p.fromOtherEnd then pieces.length - p.count else p.count)).flatten

/-- The end of a text. -/
def Portion.finish (p : Portion) (bytes : List UInt8) : List UInt8 :=
  let pieces := p.pieces bytes
  (pieces.drop (if p.fromOtherEnd then p.count - 1 else pieces.length - p.count)).flatten

/-- Prints a part of each file, with titles if there are several. -/
def printParts (c : Call) (o : Options) (part : List UInt8 → List UInt8) : Ran :=
  let files := if o.words.isEmpty then [['-']] else o.words
  let titled := (o.has 'v' || files.length > 1) && !o.has 'q'
  let read := readFiles c files
  let (_, printed) := read.foldl (fun (first, printed) (w, r) =>
    let name := if w = ['-'] then "standard input".toList else w
    let blank := if first then [] else ['\n']
    let title := if titled then Word.bytes (blank ++ "==> ".toList ++ name ++ " <==\n".toList)
      else []
    match r with
    | .ok bytes => (false, printed ++ [(Stream.out, title ++ part bytes)])
    | .error .isDirectory => (false, printed ++ [(Stream.out, title),
        c.complaint s!"error reading {shellQuoted w}: Is a directory"])
    | .error e => (first, printed ++
        [c.complaint s!"cannot open {shellQuoted w} for reading: {reason e}"])) (true, [])
  let failed := read.any fun (_, r) => r.toOption.isNone
  { c.ends printed (if failed then 1 else 0) with rest := inputBehind c files }

/-- The options of the tools that print a part of each file. -/
def partRules : OptionRules :=
  ⟨"qvzf", "nc", [("lines", 'n'), ("bytes", 'c'), ("quiet", 'q'), ("silent", 'q'),
    ("verbose", 'v')], true⟩

/-- The start of each file. From a file that is the input only so much is taken. -/
def head (c : Call) : Ran :=
  { c with args := withCountOption c.args }.withOptions partRules 1 fun o =>
    match portionOf '-' o with
    | .error message => c.complains message 1
    | .ok p =>
      let ran := printParts c o p.start
      let taken := (p.start c.input).length
      if c.isFile && o.words.isEmpty then { ran with rest := c.input.drop taken } else ran

/-- The end of each file. -/
def tail (c : Call) : Ran :=
  { c with args := withCountOption c.args }.withOptions partRules 1 fun o =>
    match portionOf '+' o with
    | .error message => c.complains message 1
    | .ok p => printParts c o p.finish

/-! ## How much there is -/

/-- The length of the longest line as it is shown. -/
def longestLine (bytes : List UInt8) : Nat :=
  let lengths := (byteLines bytes).map fun line =>
    (body line).foldl (fun n b =>
      if b = 9 then (n / 8 + 1) * 8 else if isPrintable (Char.ofNat b.toNat) then n + 1 else n) 0
  lengths.foldl max 0

/-- The counts that can be asked for, by their letters in the order in which they are shown. -/
def countsOf (bytes : List UInt8) : List (Char × Nat) :=
  [('l', bytes.countP (· = 10)), ('w', (Word.runs (Word.ofBytes bytes)).length),
    ('m', bytes.length), ('c', bytes.length), ('L', longestLine bytes)]

/-- Counts lines, words and bytes of each file, and of all together. -/
def wc (c : Call) : Ran :=
  let rules : OptionRules := ⟨"lwmcL", "", [("lines", 'l'), ("words", 'w'), ("chars", 'm'),
    ("bytes", 'c'), ("max-line-length", 'L')], true⟩
  c.withOptions rules 1 fun o =>
    let wanted := fun (letter : Char) => if o.given.isEmpty then "lwc".toList.contains letter
      else o.has letter
    let read := readFiles c o.words
    let kinds := "lwmcL".toList.filter wanted
    -- fields are as wide as the sum of the sizes needs, but wide if there is more than files
    let isPlain := fun (w : Word) (r : Except Errno (List UInt8)) =>
      if w = ['-'] then c.isFile else r.toOption.isSome
    let there := read.filter fun (_, r) => match r with
      | .ok _ => true
      | .error e => isDirectoryError e
    let firstThere := (read.head?).any fun (_, r) => match r with
      | .ok _ => true
      | .error e => isDirectoryError e
    let size := (there.map fun (_, r) => (r.toOption.getD []).length).foldl (· + ·) 0
    let width := if read.length = 1 && kinds.length = 1 || !firstThere then 1
      else if there.all fun (w, r) => isPlain w r then (Nat.toDigits 10 size).length
      else max 7 (Nat.toDigits 10 size).length
    let line := fun (counts : List (Char × Nat)) (name : List Char) =>
      let fields := (counts.filter fun x => wanted x.1).map fun x => numberField width x.2
      (Stream.out, Word.bytes (joinWords fields ++ name ++ ['\n']))
    let nameOf := fun (w : Word) => if o.words.isEmpty then [] else ' ' :: w
    let printed := read.flatMap fun (w, r) =>
      match r with
      | .ok bytes => [line (countsOf bytes) (nameOf w)]
      | .error e =>
        c.complaint (plainComplaint w e) ::
          (if isDirectoryError e then [line (countsOf []) (nameOf w)] else [])
    let add := fun (a b : List (Char × Nat)) => List.zipWith (fun x y =>
      (x.1, if x.1 = 'L' then max x.2 y.2 else x.2 + y.2)) a b
    let totals := (there.map fun (_, r) => countsOf (r.toOption.getD [])).foldl add (countsOf [])
    let summed := if read.length > 1 then [line totals " total".toList] else []
    let failed := read.any fun (_, r) => r.toOption.isNone
    { c.ends (printed ++ summed) (if failed then 1 else 0) with
      rest := inputBehind c o.words }

/-! ## Columns -/

/-- Bytes cut at a separator. -/
def cutAt (separator : UInt8) : List UInt8 → List (List UInt8)
  | [] => [[]]
  | b :: bs =>
    match cutAt separator bs with
    | [] => [[b]]
    | first :: rest => if b = separator then [] :: first :: rest else (b :: first) :: rest

/-- The ranges of a list of numbers, each with its end if it has one; or what is wrong. -/
def rangesAsked (fields : Bool) (list : Word) : Except String (List (Nat × Option Nat)) :=
  let what := if fields then "field" else "byte/character"
  let bad := fun (w : Word) => Except.error (if fields then s!"invalid field value {plainQuoted w}"
    else s!"invalid byte or character range {plainQuoted w}")
  let zero := Except.error (if fields then "fields are numbered from 1"
    else s!"{what} positions are numbered from 1")
  (Word.pieces (fun c => c == ',' || c == ' ') list).foldr (fun part acc =>
    acc.bind fun rest =>
      match Word.pieces (· == '-') part with
      | [single] =>
        if !isNumber single then bad part
        else if countOf single = 0 then zero
        else .ok ((countOf single, some (countOf single)) :: rest)
      | [low, high] =>
        if (low ≠ [] && !isNumber low) || (high ≠ [] && !isNumber high) then bad part
        else if low = [] && high = [] then .error "invalid range with no endpoint: -"
        else if low ≠ [] && countOf low = 0 then zero
        else if high ≠ [] && countOf high < max 1 (countOf low) then
          .error "invalid decreasing range"
        else .ok ((max 1 (countOf low), if high = [] then none else some (countOf high)) :: rest)
      | _ => bad part) (.ok [])

/-- Whether a number lies in one of some ranges. -/
def isAsked (ranges : List (Nat × Option Nat)) (n : Nat) : Bool :=
  ranges.any fun r => r.1 ≤ n && r.2.all (n ≤ ·)

/-- The bytes or fields of each line that a list names. -/
def cut (c : Call) : Ran :=
  let rules : OptionRules := ⟨"snz!", "bcfdO", [("bytes", 'b'), ("characters", 'c'),
    ("fields", 'f'), ("delimiter", 'd'), ("only-delimited", 's'), ("complement", '!'),
    ("output-delimiter", 'O')], true⟩
  c.withOptions rules 1 fun o =>
    let lists := o.given.filter fun g => "bcf".toList.contains g.1
    match lists with
    | [] => c.refuses "you must specify a list of bytes, characters, or fields" 1
    | [(letter, list)] =>
      let isFields := letter = 'f'
      let separator := (o.value? 'd').getD ['\t']
      if (o.value? 'd').any fun w => w.length > 1 then
        c.refuses "the delimiter must be a single character" 1
      else if !isFields && o.has 'd' then
        c.refuses "an input delimiter may be specified only when operating on fields" 1
      else match rangesAsked isFields list with
        | .error message => c.refuses message 1
        | .ok ranges =>
          let mark := (Word.bytes separator).headD 0
          let behind := ((o.value? 'O').map Word.bytes).getD (if isFields then [mark] else [])
          let asked := fun (n : Nat) => isAsked ranges n != o.has '!'
          let picked := fun {α : Type} (xs : List α) =>
            (xs.zipIdx.filter fun x => asked (x.2 + 1)).map Prod.fst
          let line := fun (l : List UInt8) =>
            let text := body l
            if !isFields then picked text ++ [10]
            else if text.contains mark then
              List.intercalate behind (picked (cutAt mark text)) ++ [10]
            else if o.has 's' then []
            else text ++ [10]
          printEach c plainComplaint 1 (fun bs => (byteLines bs).flatMap line) o.words
    | _ => c.refuses "only one list may be specified" 1

/-- The lines of files side by side, or those of each file on one line. -/
def paste (c : Call) : Ran :=
  let rules : OptionRules := ⟨"sz", "d", [("serial", 's'), ("delimiters", 'd')], true⟩
  c.withOptions rules 1 fun o =>
    let marks := Word.bytes (((o.value? 'd').map fun w =>
      Word.ofBytes (unescape .shell .format 0 w).1).getD ['\t'])
    let mark := fun (i : Nat) =>
      if marks.isEmpty then [] else [marks.getD (i % marks.length) 9]
    let files := if o.words.isEmpty then [['-']] else o.words
    let join := fun (parts : List (List UInt8)) =>
      (parts.zipIdx.flatMap fun x => (if x.2 = 0 then [] else mark (x.2 - 1)) ++ x.1) ++ [10]
    -- the input dealt out in turn, if it is named several times
    let hyphens := files.countP (· = ['-'])
    let all := byteLines c.input
    let dealt := fun (i : Nat) =>
      (all.zipIdx.filter fun x => x.2 % max 1 hyphens = i).map Prod.fst
    let read : List (Word × Except Errno (List (List UInt8))) := files.zipIdx.map fun (w, i) =>
      if w = ['-'] && !o.has 's' then
        (w, Except.ok (dealt ((files.take i).countP (· = ['-']))))
      else (w, (bytesNamed c w).map byteLines)
    match read.find? fun x => x.2.toOption.isNone with
    | some (w, .error e) => c.complains (plainComplaint w e) 1
    | _ =>
      let columns := read.map fun x => (x.2.toOption.getD []).map body
      let out := if o.has 's' then columns.flatMap join
        else
          let height := (columns.map List.length).foldl max 0
          (List.range height).flatMap fun i => join (columns.map fun lines => lines.getD i [])
      { c.prints out 0 with rest := inputBehind c files }

/-- A line in pieces no wider than a width, cut behind a blank if there is one and that is asked. -/
def foldLine (width : Nat) (atBlanks : Bool) : Nat → List UInt8 → List UInt8
  | 0, line => line
  | limit + 1, line =>
    if line.length ≤ width then line
    else
      let front := line.take width
      let kept := (front.reverse.dropWhile (· ≠ 32)).length
      let count := if atBlanks && 0 < kept then kept else max 1 width
      line.take count ++ 10 :: foldLine width atBlanks limit (line.drop count)

/-- Lines broken so that they are no wider than a width. -/
def foldLines (c : Call) : Ran :=
  let rules : OptionRules := ⟨"bs", "w", [("width", 'w'), ("spaces", 's'), ("bytes", 'b')], true⟩
  c.withOptions rules 1 fun o =>
    let width := ((o.value? 'w').map countOf).getD 80
    let line := fun (l : List UInt8) =>
      foldLine width (o.has 's') l.length (body l) ++ l.drop (body l).length
    printEach c plainComplaint 1 (fun bs => (byteLines bs).flatMap line) o.words

end ArtifactSync.Process
