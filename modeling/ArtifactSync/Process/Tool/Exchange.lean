import ArtifactSync.Process.CharClass
import ArtifactSync.Process.Input

/-!
# Exchanging bytes

The tool that exchanges, deletes and squeezes the bytes of a set, and the one that spells bytes with
64 signs.
-/

namespace ArtifactSync.Process

/-! ## Sets of bytes -/

/-- A part of a set as it is written. -/
inductive SetPart where
  | byte (c : Char)
  | range (first last : Char)
  | ranges (all : List CharRange)
  /-- A byte so many times; without a number, as often as is needed. -/
  | times (c : Char) (count : Nat)
  deriving DecidableEq, Repr

/-- The byte that a set begins with, with its escape carried out, and how many characters it
takes. -/
def setByte (c : Char) (cs : List Char) : Char × Nat :=
  if c ≠ '\\' then (c, 0)
  else
    let digits := (cs.take 3).takeWhile isOctal
    if digits ≠ [] then (Char.ofNat (numberIn 8 digits % 256), digits.length)
    else match cs with
      | [] => (c, 0)
      | d :: _ =>
        match letterByte? d with
        | some b => (if d = 'e' then d else Char.ofNat b.toNat, 1)
        | none => (d, 1)

/-- A part of a set between brackets, and how many characters behind the first bracket it takes. -/
def bracketed? (cs : List Char) : Option (SetPart × Nat) :=
  match cs with
  | ':' :: _ =>
    (className? cs).bind fun name =>
      (classRanges? name).map fun all => (.ranges all, name.length + 3)
  | '=' :: c :: '=' :: ']' :: _ => some (.byte c, 4)
  | c :: '*' :: rest =>
    let digits := rest.takeWhile Char.isDigit
    if (rest.drop digits.length).head? = some ']' then
      let base := if digits.head? = some '0' then 8 else 10
      some (.times c (numberIn base digits), digits.length + 3)
    else none
  | _ => none

/-- The parts of a set. The first `skip` characters are already understood. -/
def setParts : Nat → List Char → List SetPart
  | _, [] => []
  | skip + 1, _ :: cs => setParts skip cs
  | 0, c :: cs =>
    match (if c = '[' then bracketed? cs else none) with
    | some (part, taken) => part :: setParts taken cs
    | none =>
      let (first, taken) := setByte c cs
      match cs.drop taken with
      | '-' :: d :: rest =>
        let (last, more) := setByte d rest
        .range first last :: setParts (taken + 2 + more) cs
      | _ => .byte first :: setParts taken cs

/-- The bytes from one to another. -/
def bytesBetween (first last : Char) : List UInt8 :=
  (List.range (last.toNat + 1 - first.toNat)).map fun i => byteOf (first.toNat + i)

/-- The bytes of a set that has to hold at least so many. -/
def bytesOfParts (least : Nat) (parts : List SetPart) : List UInt8 :=
  let length := fun (part : SetPart) => match part with
    | .byte _ => 1
    | .range first last => (bytesBetween first last).length
    | .ranges all => (all.flatMap fun r => bytesBetween r.1 r.2).length
    | .times _ count => count
  let others := (parts.map length).foldl (· + ·) 0
  parts.flatMap fun part => match part with
    | .byte c => [byteOf c.toNat]
    | .range first last => bytesBetween first last
    | .ranges all => all.flatMap fun r => bytesBetween r.1 r.2
    | .times c count =>
      List.replicate (if count = 0 then least - others else count) (byteOf c.toNat)

/-- What is wrong with the parts of a set. -/
def setProblem? (parts : List SetPart) : Option String :=
  parts.findSome? fun part => match part with
    | .range first last =>
      if last.toNat < first.toNat then
        some s!"range-endpoints of '{first}-{last}' are in reverse collating sequence order"
      else none
    | _ => none

/-! ## Exchanging -/

/-- Drops all but the first of equal bytes in a row that are in a set. -/
def squeeze (set : List UInt8) : List UInt8 → List UInt8
  | a :: b :: rest =>
    if a = b && set.contains a then squeeze set (b :: rest) else a :: squeeze set (b :: rest)
  | rest => rest

/-- Exchanges, deletes or squeezes the bytes of sets. -/
def tr (c : Call) : Ran :=
  let rules : OptionRules := ⟨"cCdst", "", [("complement", 'c'), ("delete", 'd'),
    ("squeeze-repeats", 's'), ("truncate-set1", 't')], false⟩
  c.withOptions rules 1 fun o =>
    let deletes := o.has 'd'
    let squeezes := o.has 's'
    let wantsTwo := deletes = squeezes
    let mayBeTwo := wantsTwo || squeezes
    match o.words with
    | [] => c.refuses "missing operand" 1
    | first :: more =>
      let lacks := s!"missing operand after {plainQuoted first}\n"
      if wantsTwo && more.isEmpty then
        if deletes then c.refuses (lacks ++
          "Two strings must be given when both deleting and squeezing repeats.") 1
        else c.refuses (lacks ++ "Two strings must be given when translating.") 1
      else match more.drop (if mayBeTwo then 1 else 0) with
      | extra :: _ =>
        c.refuses (s!"extra operand {plainQuoted extra}" ++ (if mayBeTwo then "" else
          "\nOnly one string may be given when deleting without squeezing repeats.")) 1
      | [] =>
        let firstParts := setParts 0 first
        let secondParts := more.head?.map (setParts 0)
        match (setProblem? firstParts).or (secondParts.bind setProblem?) with
        | some message => c.complains message 1
        | none =>
          let named := bytesOfParts 0 firstParts
          let set := if o.has 'c' || o.has 'C' then
              ((List.range 256).map byteOf).filter fun b => !named.contains b
            else named
          let second := secondParts.map (bytesOfParts set.length)
          let kept := if deletes then c.input.filter fun b => !set.contains b else c.input
          match second with
          | none => c.prints (if squeezes then squeeze set kept else kept) 0
          | some second =>
            if deletes then c.prints (squeeze second kept) 0
            else if second.isEmpty then
              c.complains "when not truncating set1, string2 must be non-empty" 1
            else
              let set := if o.has 't' then set.take second.length else set
              let last := second.getLastD 0
              -- of a byte that is named twice, the later place counts
              let change := fun (b : UInt8) =>
                match set.reverse.idxOf? b with
                | some i => second.getD (set.length - 1 - i) last
                | none => b
              let changed := kept.map change
              c.prints (if squeezes then squeeze second changed else changed) 0

/-! ## Sixty-four signs -/

/-- The 64 signs, in order. -/
def signs64 : List Char :=
  (List.range 26).map (fun i => Char.ofNat (65 + i)) ++
    (List.range 26).map (fun i => Char.ofNat (97 + i)) ++ "0123456789+/".toList

/-- Bytes in signs, three in four. -/
def inSigns : List UInt8 → List Char
  | a :: b :: c :: rest => signs a b c ++ inSigns rest
  | [a, b] => (signs a b 0).take 3 ++ ['=']
  | [a] => (signs a 0 0).take 2 ++ ['=', '=']
  | [] => []
where
  /-- The four signs of three bytes. -/
  signs (a b c : UInt8) : List Char :=
    let n := (a.toNat * 256 + b.toNat) * 256 + c.toNat
    [n / 262144, n / 4096 % 64, n / 64 % 64, n % 64].map fun i => signs64.getD i 'A'

/-- The bytes that signs spell, and whether all of them could be read. -/
def outOfSigns : List Char → List UInt8 × Bool
  | a :: b :: c :: d :: rest =>
    match signs64.idxOf? a, signs64.idxOf? b, signs64.idxOf? c, signs64.idxOf? d with
    | some i, some j, some k, some l =>
      let n := ((i * 64 + j) * 64 + k) * 64 + l
      let (more, well) := outOfSigns rest
      ([byteOf (n / 65536), byteOf (n / 256 % 256), byteOf (n % 256)] ++ more, well)
    | some i, some j, some k, none =>
      let n := ((i * 64 + j) * 64 + k) * 64
      ([byteOf (n / 65536), byteOf (n / 256 % 256)], d = '=' && rest = [])
    | some i, some j, none, _ =>
      ([byteOf ((i * 64 + j) / 16)], c = '=' && d = '=' && rest = [])
    | _, _, _, _ => ([], false)
  | rest => ([], rest = [])

/-- A text in lines of a width. -/
def inLines (width : Nat) : Nat → List Char → List Char
  | 0, _ => []
  | limit + 1, cs =>
    if cs = [] then []
    else if width = 0 then cs
    else cs.take width ++ '\n' :: inLines width limit (cs.drop width)

/-- Spells bytes with 64 signs, or reads them back. -/
def base64 (c : Call) : Ran :=
  let rules : OptionRules := ⟨"di", "w", [("decode", 'd'), ("wrap", 'w'), ("ignore-garbage", 'i')],
    true⟩
  c.withOptions rules 1 fun o =>
    let source := o.words.headD ['-']
    match bytesNamed c source with
    | .error e => c.complains (plainComplaint source e) 1
    | .ok bytes =>
      if o.has 'd' then
        let signs := (Word.ofBytes bytes).filter (· ≠ '\n')
        let (out, well) := outOfSigns signs
        c.ends ((.out, out) :: (if well then [] else [c.complaint "invalid input"]))
          (if well then 0 else 1)
      else
        let width := ((o.value? 'w').map countOf).getD 76
        let signs := inSigns bytes
        c.prints (Word.bytes (inLines width (signs.length + 1) signs)) 0

end ArtifactSync.Process
