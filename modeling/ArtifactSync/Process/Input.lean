import ArtifactSync.Process.Print
import ArtifactSync.Text.Lines

/-!
# What tools read

The words of a tool are options, values of options and names of files, and options may stand among
the files. Without files a tool reads its input. Text is read as bytes, line by line, and each line
keeps its end.
-/

namespace ArtifactSync.Process

/-! ## Options -/

/-- The options of a tool by their letters, in order, each with its value, and the other words. -/
structure Options where
  given : List (Char × Word)
  words : List Word
  deriving DecidableEq, Repr

namespace Options

/-- Whether an option is given. -/
def has (o : Options) (letter : Char) : Bool :=
  o.given.any fun g => g.1 = letter

/-- The value of an option; the last one counts. -/
def value? (o : Options) (letter : Char) : Option Word :=
  ((o.given.filter fun g => g.1 = letter).getLast?).map Prod.snd

/-- All the values of an option. -/
def values (o : Options) (letter : Char) : List Word :=
  (o.given.filter fun g => g.1 = letter).map Prod.snd

end Options

/-- The options that a tool knows: the letters without a value and those with one, and long names
for some of them. Files may stand in front of options unless the tool forbids that. -/
structure OptionRules where
  flags : String
  valued : String
  long : List (String × Char)
  mixed : Bool

/-- What is wrong with options. -/
inductive OptionProblem where
  | unknownLetter (letter : Char)
  | unknownName (word : Word)
  | lacksValue (letter : Char)
  deriving DecidableEq, Repr

/-- The text of a problem. -/
def OptionProblem.toString : OptionProblem → String
  | unknownLetter letter => s!"invalid option -- '{letter}'"
  | unknownName word => s!"unrecognized option '{String.ofList word}'"
  | lacksValue letter => s!"option requires an argument -- '{letter}'"

namespace OptionRules

/-- Reads the letters of one word: the options, and the letter whose value is the next word. -/
def letters (rules : OptionRules) : Word → Except OptionProblem (List (Char × Word) × Option Char)
  | [] => .ok ([], none)
  | l :: rest =>
    if rules.flags.toList.contains l then
      (rules.letters rest).map fun (given, open?) => ((l, []) :: given, open?)
    else if rules.valued.toList.contains l then
      if rest = [] then .ok ([], some l) else .ok ([(l, rest)], none)
    else .error (.unknownLetter l)

/-- Reads the words of a tool. -/
def read (rules : OptionRules) : List Word → Except OptionProblem Options
  | [] => .ok ⟨[], []⟩
  | w :: ws =>
    if w = ['-', '-'] then .ok ⟨[], ws⟩
    else match w with
      | '-' :: '-' :: name =>
        let key := name.takeWhile (· ≠ '=')
        let found := rules.long.filter fun l => key.isPrefixOf l.1.toList
        let exact := found.find? fun l => l.1.toList = key
        match exact.or (if found.length = 1 then found.head? else none) with
        | none => .error (.unknownName w)
        | some (_, letter) =>
          let value := name.drop (key.length + 1)
          (rules.read ws).map fun o => { o with given := (letter, value) :: o.given }
      | '-' :: l :: rest =>
        match rules.letters (l :: rest) with
        | .error e => .error e
        | .ok (given, none) =>
          (rules.read ws).map fun o => { o with given := given ++ o.given }
        | .ok (given, some letter) =>
          match ws with
          | [] => .error (.lacksValue letter)
          | value :: ws =>
            (rules.read ws).map fun o => { o with given := given ++ (letter, value) :: o.given }
      | w =>
        if rules.mixed then (rules.read ws).map fun o => { o with words := w :: o.words }
        else .ok ⟨[], w :: ws⟩

end OptionRules

namespace Call

/-- A tool ends with a complaint about how it was called. -/
def refuses (c : Call) (message : String) (code : Nat) : Ran :=
  c.complains (message ++ s!"\nTry '{String.ofList c.name} --help' for more information.") code

/-- Runs a tool with its options, or complains about them. -/
def withOptions (c : Call) (rules : OptionRules) (code : Nat) (use : Options → Ran) : Ran :=
  match rules.read c.args with
  | .ok o => use o
  | .error e => c.refuses e.toString code

end Call

/-! ## Files -/

/-- How many bytes are taken from a source that never ends. Whoever reads it stops earlier. -/
def endlessBytes : Nat := 1048576

/-- The bytes that a word names: the input for a hyphen, and a file or a device otherwise. -/
def bytesNamed (c : Call) (w : Word) : Except Errno (List UInt8) :=
  if w = ['-'] || w = "/dev/stdin".toList then .ok c.input
  else if w = "/dev/null".toList then .ok []
  else if w = "/dev/zero".toList then .ok (List.replicate endlessBytes 0)
  else c.disk.readBytes (Word.path w)

/-- A file that was read: its name, and its bytes or why there are none. -/
abbrev FileRead := Word × Except Errno (List UInt8)

/-- Reads the files that words name one after another. No words at all name the input, which is used
up when it is read once. -/
def readFiles (c : Call) (files : List Word) : List FileRead :=
  let files := if files.isEmpty then [['-']] else files
  (files.foldl (fun (read, c) w =>
    let isInput := w = ['-'] || w = "/dev/stdin".toList
    (read ++ [(w, bytesNamed c w)], if isInput then { c with input := [] } else c))
    (([] : List FileRead), c)).1

/-- The input that is left when some files are read. -/
def inputBehind (c : Call) (files : List Word) : List UInt8 :=
  if files.isEmpty || files.contains ['-'] || files.contains "/dev/stdin".toList then []
  else c.input

/-- Whether an error says that a directory stands in the place of a file. -/
def isDirectoryError (e : Errno) : Bool :=
  e = .isDirectory

/-- All bytes that words name, one file behind the other, with a complaint for each that cannot be
read. -/
def gather (c : Call) (complain : Word → Errno → String) (files : List Word) :
    List UInt8 × List (Stream × List UInt8) :=
  (readFiles c files).foldl (fun (bytes, complaints) (w, read) =>
    match read with
    | .ok more => (bytes ++ more, complaints)
    | .error e => (bytes, complaints ++ [c.complaint (complain w e)])) ([], [])

/-- The plain complaint about a file. -/
def plainComplaint (w : Word) (e : Errno) : String :=
  s!"{shellShown w}: {reason e}"

/-- Prints a piece for each file, or a complaint about it; a failure gives a code. -/
def printEach (c : Call) (complain : Word → Errno → String) (failure : Nat)
    (shown : List UInt8 → List UInt8) (files : List Word) : Ran :=
  let read := readFiles c files
  let printed := read.map fun (w, r) =>
    match r with
    | .ok bytes => (Stream.out, shown bytes)
    | .error e => c.complaint (complain w e)
  let failed := read.any fun (_, r) => r.toOption.isNone
  { c.ends printed (if failed then failure else 0) with rest := inputBehind c files }

/-! ## Lines -/

/-- The lines of bytes, each with its end. -/
def byteLines : List UInt8 → List (List UInt8)
  | [] => []
  | b :: bs =>
    if b = 10 then [b] :: byteLines bs
    else match byteLines bs with
      | [] => [[b]]
      | line :: rest => (b :: line) :: rest

/-- A line with an end. -/
def closed (line : List UInt8) : List UInt8 :=
  if line.getLast? = some 10 then line else line ++ [10]

/-- A line without its end. -/
def body (line : List UInt8) : List UInt8 :=
  if line.getLast? = some 10 then line.dropLast else line

/-- The number that a word spells. -/
def countOf (w : Word) : Nat :=
  numberIn 10 (w.takeWhile Char.isDigit)

/-- Whether a word spells a whole number without a sign. -/
def isNumber (w : Word) : Bool :=
  w ≠ [] && w.all Char.isDigit

end ArtifactSync.Process
