import ArtifactSync.Process.Tool.Parts

/-!
# Lines in order

The tools that put lines in order, compare them with their neighbours, or turn them round.
-/

namespace ArtifactSync.Process

/-! ## Sorting -/

/-- How two lines are compared, or two parts of them. -/
structure Comparison where
  letters : List Char
  deriving DecidableEq, Repr

/-- A part of a line that is compared: the field and the character in it where it begins and where
it ends, and how. -/
structure SortKey where
  startField : Nat
  startChar : Nat
  endField : Option Nat
  endChar : Nat
  letters : List Char
  deriving DecidableEq, Repr

/-- Whether bytes come before others, after them or neither. -/
def compareBytes (a b : List UInt8) : Ordering :=
  if a.map UInt8.toNat < b.map UInt8.toNat then .lt
  else if b.map UInt8.toNat < a.map UInt8.toNat then .gt
  else .eq

/-- The number that text begins with, as a sign, a whole part and the digits behind a point. -/
def numberIn? (w : Word) : Bool × Nat × List Char :=
  let w := w.dropWhile Word.isBlank
  let negative := w.head? = some '-'
  let w := if negative then w.drop 1 else w
  let whole := w.takeWhile Char.isDigit
  let behind := w.drop whole.length
  let part := if behind.head? = some '.' then (behind.drop 1).takeWhile Char.isDigit else []
  (negative, numberIn 10 whole, (part.reverse.dropWhile (· = '0')).reverse)

/-- Compares texts by the numbers they begin with. -/
def compareNumbers (a b : List UInt8) : Ordering :=
  let value := fun (bytes : List UInt8) (places : Nat) =>
    let (negative, whole, part) := numberIn? (Word.ofBytes bytes)
    let digits := part.take places ++ List.replicate (places - part.length) '0'
    let n : Int := whole * Nat.pow 10 places + numberIn 10 digits
    if negative then -n else n
  let places := max (numberIn? (Word.ofBytes a)).2.2.length (numberIn? (Word.ofBytes b)).2.2.length
  compare (value a places) (value b places)

/-- Pieces of text that are digits or not, in turn. -/
def versionParts : Nat → Word → List (Word × Nat)
  | 0, _ => []
  | limit + 1, w =>
    if w = [] then []
    else
      let text := w.takeWhile fun c => !c.isDigit
      let rest := w.drop text.length
      let digits := rest.takeWhile Char.isDigit
      (text, numberIn 10 digits) :: versionParts limit (rest.drop digits.length)

/-- Compares texts in whose digits are taken as numbers. -/
def compareVersions (a b : List UInt8) : Ordering :=
  let parts := fun (bytes : List UInt8) => versionParts bytes.length (Word.ofBytes bytes)
  let rec go : List (Word × Nat) → List (Word × Nat) → Ordering
    | [], [] => .eq
    | [], _ => .lt
    | _, [] => .gt
    | (s, m) :: xs, (t, n) :: ys =>
      match compareBytes (Word.bytes s) (Word.bytes t) with
      | .eq =>
        match compare m n with
        | .eq => go xs ys
        | order => order
      | order => order
  go (parts a) (parts b)

/-- Compares texts in the way that letters say. -/
def compareBy (letters : List Char) (a b : List UInt8) : Ordering :=
  let has := letters.contains
  let prepared := fun (bytes : List UInt8) =>
    let w := Word.ofBytes bytes
    let w := if has 'b' then Word.trimStart w else w
    let w := if has 'd' then w.filter fun c => c.isAlphanum || Word.isBlank c else w
    let w := if has 'i' then w.filter isPrintable else w
    Word.bytes (if has 'f' then w.map Char.toUpper else w)
  let order := if has 'n' || has 'g' || has 'h' then compareNumbers a b
    else if has 'V' then compareVersions a b
    else compareBytes (prepared a) (prepared b)
  if has 'r' then order.swap else order

/-- The fields of a line, with how many bytes are in front of each. Without a separator each field
begins with the blanks in front of it. -/
def fieldStarts (separator : Option UInt8) (line : List UInt8) : List Nat :=
  match separator with
  | some mark => 0 :: (line.zipIdx.filter fun x => x.1 = mark).map fun x => x.2 + 1
  | none =>
    let isBlank := fun (b : UInt8) => b = 32 || b = 9
    0 :: ((line.zipIdx.zip (line.drop 1)).filter fun x => !isBlank x.1.1 && isBlank x.2).map
      fun x => x.1.2 + 1

/-- The bytes of a line that a key names. -/
def SortKey.part (k : SortKey) (separator : Option UInt8) (line : List UInt8) : List UInt8 :=
  let starts := fieldStarts separator line
  let isBlank := fun (b : UInt8) => b = 32 || b = 9
  let startOf := fun (field : Nat) => starts.getD (field - 1) line.length
  let skipBlanks := fun (place : Nat) =>
    if k.letters.contains 'b' then place + ((line.drop place).takeWhile isBlank).length else place
  let start := min line.length (skipBlanks (startOf k.startField) + (k.startChar - 1))
  let finish := match k.endField with
    | none => line.length
    | some field =>
      if k.endChar = 0 then
        match starts[field]? with
        | some next => if separator.isSome then next - 1 else next
        | none => line.length
      else min line.length (skipBlanks (startOf field) + k.endChar)
  (line.take finish).drop start

/-- A position in a key: a field, a character in it, and letters. -/
def keyPosition (w : Word) : Nat × Option Nat × List Char :=
  let field := w.takeWhile Char.isDigit
  let behind := w.drop field.length
  let point := behind.head? = some '.'
  let char := if point then (behind.drop 1).takeWhile Char.isDigit else []
  let letters := behind.drop (if point then char.length + 1 else 0)
  (countOf field, if point then some (countOf char) else none, letters)

/-- The key that a word describes. Without letters of its own it takes those of the whole. -/
def keyOf (common : List Char) (w : Word) : SortKey :=
  match Word.pieces (· == ',') w with
  | first :: rest =>
    let (startField, startChar, letters) := keyPosition first
    let (endField, endChar, more) := match rest with
      | [] => (none, none, [])
      | second :: _ =>
        let (field, char, letters) := keyPosition second
        (some field, char, letters)
    let own := letters ++ more
    ⟨max 1 startField, startChar.getD 1, endField, endChar.getD 0, if own = [] then common else own⟩
  | [] => ⟨1, 1, none, 0, common⟩

/-- Compares lines by keys, and as a whole if there are none. -/
def compareByKeys (keys : List SortKey) (common : List Char) (separator : Option UInt8)
    (a b : List UInt8) : Ordering :=
  if keys.isEmpty then compareBy common a b
  else keys.foldl (fun order k =>
    match order with
    | .eq => compareBy k.letters (k.part separator a) (k.part separator b)
    | order => order) .eq

/-- Lines without those that are equal to the one in front. -/
def withoutRepeats (same : List UInt8 → List UInt8 → Bool) :
    List (List UInt8) → List (List UInt8)
  | [] => []
  | a :: rest =>
    let kept := withoutRepeats same rest
    match kept with
    | b :: more => if same a b then a :: more else a :: kept
    | [] => [a]

/-- The lines in order. -/
def sort (c : Call) : Ran :=
  let rules : OptionRules := ⟨"bdfghinrsuVcCmz", "ktoST", [("numeric-sort", 'n'), ("reverse", 'r'),
    ("unique", 'u'), ("key", 'k'), ("field-separator", 't'), ("ignore-case", 'f'), ("output", 'o'),
    ("stable", 's'), ("ignore-leading-blanks", 'b'), ("version-sort", 'V'), ("check", 'c')], true⟩
  c.withOptions rules 2 fun o =>
    let letters := (o.given.map Prod.fst).filter fun l => "bdfghinrV".toList.contains l
    let separator := (o.value? 't').bind fun w => (Word.bytes w).head?
    let keys := (o.values 'k').map (keyOf letters)
    let byKeys := compareByKeys keys letters separator
    -- lines that are equal so far are compared as they are
    let whole := fun (a b : List UInt8) =>
      if o.has 'u' || o.has 's' then .eq
      else if letters.contains 'r' then (compareBytes a b).swap else compareBytes a b
    let le := fun (a b : List UInt8) => match byKeys (body a) (body b) with
      | .lt => true
      | .gt => false
      | .eq => whole (body a) (body b) ≠ .gt
    let read := readFiles c o.words
    match read.find? fun x => x.2.toOption.isNone with
    | some (w, .error .isDirectory) =>
      c.complains s!"read failed: {shellShown w}: Is a directory" 2
    | some (w, .error e) => c.complains s!"cannot read: {shellShown w}: {reason e}" 2
    | _ =>
      let lines := read.flatMap fun x => (byteLines (x.2.toOption.getD [])).map closed
      if o.has 'c' || o.has 'C' then
        let unordered := ((lines.zip (lines.drop 1)).zipIdx).find? fun x =>
          !le x.1.1 x.1.2 || (o.has 'u' && le x.1.2 x.1.1)
        match unordered with
        | none => c.prints [] 0
        | some ((_, line), i) =>
          let name := String.ofList (o.words.headD ['-'])
          let text := String.ofList (Word.ofBytes (body line))
          if o.has 'C' then c.prints [] 1
          else c.ends [c.complaint s!"{name}:{i + 2}: disorder: {text}"] 1
      else
        let sorted := lines.mergeSort le
        let sorted := if o.has 'u' then
            withoutRepeats (fun a b => byKeys (body a) (body b) = .eq) sorted
          else sorted
        match o.value? 'o' with
        | none => { c.prints sorted.flatten 0 with rest := inputBehind c o.words }
        | some target =>
          match c.disk.putBytes (Word.path target) sorted.flatten with
          | .ok disk => { c.prints [] 0 with disk := disk, rest := inputBehind c o.words }
          | .error e => c.complains s!"open failed: {shellShown target}: {reason e}" 2

/-! ## Neighbours -/

/-- Lines in runs of equal ones: the first of each run, and all of them. -/
def runsOf (same : List UInt8 → List UInt8 → Bool) :
    List (List UInt8) → List (List UInt8 × List (List UInt8))
  | [] => []
  | a :: rest =>
    match runsOf same rest with
    | [] => [(a, [a])]
    | (b, all) :: more =>
      if same a b then (a, a :: all) :: more else (a, [a]) :: (b, all) :: more

/-- Bytes without so many fields and then so many bytes at the start. -/
def pastFields (fields bytes : Nat) (w : Word) : Word :=
  ((List.range fields).foldl (fun w _ =>
    let isBlank := fun c => c = ' ' || c = '\t'
    (w.dropWhile isBlank).dropWhile fun c => !isBlank c) w).drop bytes

/-- The lines without those that repeat the one in front, or with how many of them there are. -/
def uniq (c : Call) : Ran :=
  let rules : OptionRules := ⟨"cdDiuz", "fsw", [("count", 'c'), ("repeated", 'd'),
    ("all-repeated", 'D'), ("ignore-case", 'i'), ("unique", 'u'), ("skip-fields", 'f'),
    ("skip-chars", 's'), ("check-chars", 'w')], true⟩
  c.withOptions rules 1 fun o =>
    let count := fun (letter : Char) => ((o.value? letter).map countOf).getD 0
    let key := fun (line : List UInt8) =>
      let w := pastFields (count 'f') (count 's') (Word.ofBytes line)
      let w := match o.value? 'w' with
        | some n => w.take (countOf n)
        | none => w
      if o.has 'i' then w.map Char.toLower else w
    match o.words with
    | _ :: _ :: extra :: _ => c.refuses s!"extra operand {plainQuoted extra}" 1
    | words =>
      let source := words.headD ['-']
      match bytesNamed c source with
      | .error .isDirectory => c.complains s!"error reading {shellQuoted source}: Is a directory" 1
      | .error e => c.complains (plainComplaint source e) 1
      | .ok bytes =>
        let lines := (byteLines bytes).map closed
        let runs := runsOf (fun a b => key (body a) = key (body b)) lines
        let shown := runs.flatMap fun (first, all) =>
          let repeats := all.length > 1
          if (o.has 'd' || o.has 'D') && !repeats || o.has 'u' && repeats then []
          else if o.has 'D' then all
          else if o.has 'c' then [Word.bytes (numberField 7 all.length ++ [' ']) ++ first]
          else [first]
        match words with
        | [_, target] =>
          match c.disk.putBytes (Word.path target) shown.flatten with
          | .ok disk => { c.prints [] 0 with disk := disk, rest := inputBehind c [source] }
          | .error e => c.complains (plainComplaint target e) 1
        | _ => { c.prints shown.flatten 0 with rest := inputBehind c [source] }

/-- The lines of two files in order, in three columns: those of the first alone, those of the second
alone, and those of both. At most `limit` lines are looked at. -/
def mergedColumns : Nat → List (List UInt8) → List (List UInt8) → List (Nat × List UInt8)
  | 0, _, _ => []
  | _ + 1, [], bs => bs.map fun b => (2, b)
  | _ + 1, as, [] => as.map fun a => (1, a)
  | limit + 1, a :: as, b :: bs =>
    match compareBytes (body a) (body b) with
    | .eq => (3, a) :: mergedColumns limit as bs
    | .lt => (1, a) :: mergedColumns limit as (b :: bs)
    | .gt => (2, b) :: mergedColumns limit (a :: as) bs

/-- Compares two files whose lines are in order. -/
def comm (c : Call) : Ran :=
  let rules : OptionRules := ⟨"123z", "", [], true⟩
  c.withOptions rules 1 fun o =>
    match o.words with
    | [] => c.refuses "missing operand" 1
    | [w] => c.refuses s!"missing operand after {plainQuoted w}" 1
    | [first, second] =>
      match bytesNamed c first, bytesNamed c second with
      | .error e, _ => c.complains (plainComplaint first e) 1
      | _, .error e => c.complains (plainComplaint second e) 1
      | .ok a, .ok b =>
        let isShown := fun (column : Nat) => !o.has (Char.ofNat (48 + column))
        let tabs := fun (column : Nat) =>
          List.replicate (((List.range column).filter fun n => 0 < n && isShown n).length) 9
        let lines := fun (bytes : List UInt8) => (byteLines bytes).map closed
        let merged := mergedColumns (a.length + b.length + 1) (lines a) (lines b)
        let out := merged.flatMap fun (column, line) =>
          if isShown column then tabs column ++ line else []
        c.prints out 0
    | _ :: _ :: extra :: _ => c.refuses s!"extra operand {plainQuoted extra}" 1

/-! ## Turning round -/

/-- Each line back to front. -/
def rev (c : Call) : Ran :=
  let turn := fun (line : List UInt8) => (body line).reverse ++ line.drop (body line).length
  printEach c (fun w e => s!"cannot open {String.ofList w}: {reason e}") 1
    (fun bs => (byteLines bs).flatMap turn) c.args

/-- The lines back to front. -/
def tac (c : Call) : Ran :=
  let rules : OptionRules := ⟨"br", "s", [], true⟩
  let complain := fun (w : Word) (e : Errno) =>
    if isDirectoryError e then s!"{shellShown w}: read error: Invalid argument"
    else s!"failed to open {shellQuoted w} for reading: {reason e}"
  c.withOptions rules 1 fun o =>
    printEach c complain 1 (fun bs => (byteLines bs).reverse.flatten) o.words

end ArtifactSync.Process
