import ArtifactSync.Process.Digest
import ArtifactSync.Process.Input

/-!
# Bytes made visible

The tool that shows the bytes of files as numbers or characters, and those that print digests of
them.
-/

namespace ArtifactSync.Process

/-! ## Showing bytes -/

/-- How the bytes of a line are shown. -/
inductive DumpKind where
  /-- Characters, with escapes for those that cannot be printed. -/
  | characters
  /-- The names of characters of seven bits. -/
  | names
  | signed
  | unsigned
  | octal
  | hexadecimal
  deriving DecidableEq, Repr

/-- A way to show a line: the kind, how many bytes make one item, and whether the characters follow
behind the items. -/
structure DumpFormat where
  kind : DumpKind
  size : Nat
  withText : Bool
  deriving DecidableEq, Repr

namespace DumpFormat

/-- How many characters an item takes. -/
def width (f : DumpFormat) : Nat :=
  let most := Nat.pow 256 f.size - 1
  match f.kind with
  | .characters => 3
  | .names => 3
  | .signed => (Nat.toDigits 10 (most / 2)).length + 1
  | .unsigned => (Nat.toDigits 10 most).length
  | .octal => (Nat.toDigits 8 most).length
  | .hexadecimal => 2 * f.size

/-- The names of the characters that cannot be printed, and that of a blank. -/
def characterNames : List String :=
  ["nul", "soh", "stx", "etx", "eot", "enq", "ack", "bel", "bs", "ht", "nl", "vt", "ff", "cr", "so",
    "si", "dle", "dc1", "dc2", "dc3", "dc4", "nak", "syn", "etb", "can", "em", "sub", "esc", "fs",
    "gs", "rs", "us", "sp"]

/-- The text of an item. -/
def item (f : DumpFormat) (bytes : List UInt8) : List Char :=
  let n := Digest.numberOf bytes
  let whole := Nat.pow 256 f.size
  match f.kind with
  | .characters =>
    if n = 0 then ['\\', '0']
    else if isPrintable (Char.ofNat n) then [Char.ofNat n]
    else byteText n
  | .names =>
    let n := n % 128
    if n = 127 then "del".toList
    else ((characterNames[n]?).map String.toList).getD [Char.ofNat n]
  | .signed => (toString (if whole ≤ 2 * n then (n : Int) - whole else n)).toList
  | .unsigned => Nat.toDigits 10 n
  | .octal => Fraction.digitsIn 8 f.width n
  | .hexadecimal => Fraction.digitsIn 16 f.width n
where
  /-- A byte that cannot be printed. -/
  byteText (n : Nat) : List Char :=
    let escape := byteEscape (Char.ofNat n)
    if escape.length = 2 then escape else octalDigits (Char.ofNat n)

/-- The bytes of a line as items; there is room for so many bytes, and the items of a whole line are
as wide together as is asked for. -/
def line (f : DumpFormat) (room total : Nat) (bytes : List UInt8) : List Char :=
  let fields := room / f.size
  let spare := total - (f.width + 1) * fields
  let items := Digest.partsOf f.size bytes.length bytes
  let shown := items.zipIdx.flatMap fun (bytes, i) =>
    let left := fields - i
    let width := f.width + (spare * left / fields - spare * (left - 1) / fields)
    let text := f.item bytes
    ' ' :: List.replicate (width - text.length) ' ' ++ text
  if !f.withText then shown
  else
    let missing := (List.range (fields - items.length)).foldl (fun n i =>
      let left := fields - items.length - i
      n + f.width + 1 + (spare * left / fields - spare * (left - 1) / fields)) 0
    let text := bytes.map fun b =>
      let c := Char.ofNat b.toNat
      if isPrintable c then c else '.'
    shown ++ List.replicate missing ' ' ++ "  >".toList ++ text ++ ['<']

/-- The formats that a text writes, or the character that cannot be understood. The first `skip`
characters are already understood. -/
def read : Nat → List Char → Except Char (List DumpFormat)
  | _, [] => .ok []
  | skip + 1, _ :: cs => read skip cs
  | 0, c :: cs =>
    let put := fun (kind : DumpKind) (size taken : Nat) =>
      let withText := cs[taken]? = some 'z'
      (read (if withText then taken + 1 else taken) cs).map (⟨kind, size, withText⟩ :: ·)
    let sized := fun (kind : DumpKind) =>
      match cs with
      | 'C' :: _ => put kind 1 1
      | 'S' :: _ => put kind 2 1
      | 'I' :: _ => put kind 4 1
      | 'L' :: _ => put kind 8 1
      | cs =>
        let digits := cs.takeWhile Char.isDigit
        put kind (if digits = [] then 4 else countOf digits) digits.length
    if c = 'a' then put .names 1 0
    else if c = 'c' then put .characters 1 0
    else if c = 'd' then sized .signed
    else if c = 'u' then sized .unsigned
    else if c = 'o' then sized .octal
    else if c = 'x' then sized .hexadecimal
    else .error c

end DumpFormat

/-- The text of a place in front of a line. -/
def dumpAddress (radix : Char) (n : Nat) : List Char :=
  match radix with
  | 'd' => Fraction.digitsIn 10 7 n
  | 'x' => Fraction.digitsIn 16 6 n
  | 'n' => []
  | _ => Fraction.digitsIn 8 7 n

/-- Lines under formats, from a place on. A line that is the same as the one in front of it is shown
as a star, and further ones not at all, unless everything is to be shown. -/
def dumpLines (formats : List DumpFormat) (radix : Char) (everything : Bool) (room : Nat) :
    Nat → Option (List UInt8) → Bool → List (List UInt8) → List Char
  | place, _, _, [] => if radix = 'n' then [] else dumpAddress radix place ++ ['\n']
  | place, before, starred, bytes :: rest =>
    let behind := place + bytes.length
    let isSame := !everything && before = some bytes && bytes.length = room
    if isSame then
      (if starred then [] else ['*', '\n']) ++
        dumpLines formats radix everything room behind before true rest
    else
      let total := (formats.map fun f => (f.width + 1) * (room / f.size)).foldl max 0
      let address := dumpAddress radix place
      let blank := List.replicate address.length ' '
      let shown := formats.zipIdx.flatMap fun (f, i) =>
        (if i = 0 then address else blank) ++ f.line room total bytes ++ ['\n']
      shown ++ dumpLines formats radix everything room behind (some bytes) false rest

/-- A number of bytes as options give it: decimal, octal or hexadecimal, with a unit behind it. -/
def byteCount? (w : Word) : Option Nat :=
  let (n, rest) := leadingWhole w
  let unit := match String.ofList rest with
    | "" => some 1
    | "b" => some 512
    | "k" => some 1024
    | "K" => some 1024
    | "m" => some 1048576
    | "M" => some 1048576
    | _ => none
  if rest = w || n < 0 then none else unit.map (n.toNat * ·)

/-- The formats that the letters of options ask for. -/
def dumpFormats (o : Options) : Except Char (List DumpFormat) :=
  let short : List (Char × String) :=
    [('a', "a"), ('b', "o1"), ('c', "c"), ('d', "u2"), ('i', "d4"), ('l', "d8"), ('o', "o2"),
      ('s', "d2"), ('x', "x2")]
  o.given.foldl (fun read (letter, value) =>
    read.bind fun formats =>
      let text := if letter = 't' then some value
        else (short.find? fun s => s.1 = letter).map fun s => s.2.toList
      match text with
      | none => .ok formats
      | some text => (DumpFormat.read 0 text).map (formats ++ ·)) (.ok [])

/-- Shows the bytes of files. -/
def od (c : Call) : Ran :=
  let rules : OptionRules := ⟨"abcdilosxv", "AtNjwS", [("address-radix", 'A'), ("format", 't'),
    ("read-bytes", 'N'), ("skip-bytes", 'j'), ("width", 'w'), ("output-duplicates", 'v')], true⟩
  -- the width may stand right behind its letter, but not in the next word
  let args := c.args.map fun w => if w = ['-', 'w'] then "-w32".toList else w
  { c with args := args }.withOptions rules 1 fun o =>
    let radix := ((o.value? 'A').getD ['o']).headD 'o'
    let count := fun (letter : Char) => (o.value? letter).map fun w => (w, byteCount? w)
    let wrong := ['j', 'N', 'w'].findSome? fun letter =>
      match count letter with
      | some (w, none) => some s!"invalid -{letter} argument {plainQuoted w}"
      | _ => none
    let number := fun (letter : Char) => (count letter).bind Prod.snd
    match wrong, dumpFormats o with
    | some message, _ => c.complains message 1
    | none, .error letter =>
      let text := plainQuoted ((o.value? 't').getD [])
      c.complains s!"invalid character '{letter}' in type string {text}" 1
    | none, .ok formats =>
      if !"doxn".toList.contains radix then
        c.complains (s!"invalid output address radix '{radix}'; " ++
          "it must be one character from [doxn]") 1
      else
        let formats : List DumpFormat := if formats.isEmpty then [⟨.octal, 2, false⟩] else formats
        let (bytes, complaints) := gather c plainComplaint o.words
        let start := (number 'j').getD 0
        let bytes := bytes.drop start
        let bytes := ((number 'N').map bytes.take).getD bytes
        let step := (formats.map DumpFormat.size).foldl Nat.lcm 1
        let room := (number 'w').getD 16
        let fits := room ≠ 0 && room % step = 0
        let warning := s!"warning: invalid width {room}; using {step} instead"
        let lines := Digest.partsOf (if fits then room else step) bytes.length bytes
        let shown := dumpLines formats radix (o.has 'v') (if fits then room else step) start none
          false lines
        let all : List (Stream × List UInt8) :=
          (if fits then [] else [c.complaint warning]) ++ complaints
        -- nothing is shown if there was nothing to read from
        let out := if bytes.isEmpty && !complaints.isEmpty then [] else Word.bytes shown
        { c.ends (all ++ [(Stream.out, out)]) (if complaints.isEmpty then 0 else 1) with
          rest := inputBehind c o.words }

/-! ## Digests -/

/-- Prints a digest of each file. -/
def digestWith (kind : String) (digest : List UInt8 → List UInt8) (c : Call) : Ran :=
  let rules : OptionRules := ⟨"btz", "", [("binary", 'b'), ("text", 't'), ("tag", 'T'),
    ("zero", 'z')], true⟩
  c.withOptions rules 1 fun o =>
    let mark := if o.has 'b' then '*' else ' '
    let tail := if o.has 'z' then '\x00' else '\n'
    let printed := (readFiles c o.words).map fun (w, read) =>
      match read with
      | .error e => c.complaint (plainComplaint w e)
      | .ok bytes =>
        let shown := Digest.spelled (digest bytes)
        let text := if o.has 'T' then (kind ++ " (").toList ++ w ++ ") = ".toList ++ shown
          else shown ++ [' ', mark] ++ w
        (Stream.out, Word.bytes (text ++ [tail]))
    let failed := printed.any fun p => p.1 = .err
    { c.ends printed (if failed then 1 else 0) with rest := inputBehind c o.words }

/-- Prints a checksum and the length of each file. -/
def cksum (c : Call) : Ran :=
  c.withOptions ⟨"", "", [], true⟩ 1 fun o =>
    let printed := (readFiles c o.words).map fun (w, read) =>
      match read with
      | .error e => c.complaint (plainComplaint w e)
      | .ok bytes =>
        let name := if o.words.isEmpty then "" else " " ++ String.ofList w
        (Stream.out, Word.bytesOf s!"{Digest.checksum bytes} {bytes.length}{name}\n")
    let failed := printed.any fun p => p.1 = .err
    { c.ends printed (if failed then 1 else 0) with rest := inputBehind c o.words }

end ArtifactSync.Process
