import ArtifactSync.Process.Input
import ArtifactSync.Process.Regular

/-!
# Looking for lines

The tool that shows the lines which hold a pattern.
-/

namespace ArtifactSync.Process

/-- The matches in a line behind a character one after another, at most `limit` of them, without
those of nothing. -/
def matchesIn (r : Regular) (folds : Bool) : Nat → Option Char → List Char → List (List Char)
  | 0, _, _ => []
  | limit + 1, before, cs =>
    match r.find folds before cs with
    | none => []
    | some m =>
      if m.text.isEmpty then
        match m.behind.rest with
        | [] => []
        | c :: rest => matchesIn r folds limit (some c) rest
      else m.text :: matchesIn r folds limit m.behind.before m.behind.rest

/-- How lines are looked for: the pattern, whether capitals count as small letters, and whether the
lines without it are wanted. -/
structure Search where
  pattern : Regular
  folds : Bool
  inverted : Bool

/-- Whether a line is wanted. -/
def Search.wants (s : Search) (line : List UInt8) : Bool :=
  s.pattern.isIn s.folds (Word.ofBytes (body line)) != s.inverted

/-- The lines of a text with their numbers, and whether each is wanted; at most so many are. -/
def Search.over (s : Search) (most : Nat) (bytes : List UInt8) :
    List (Nat × List UInt8 × Bool) :=
  let lines := (byteLines bytes).map closed
  (lines.zipIdx.foldl (fun (found, count) (line, i) =>
    let hit := count < most && s.wants line
    (found ++ [(i + 1, line, hit)], if hit then count + 1 else count))
    (([] : List (Nat × List UInt8 × Bool)), 0)).1

/-- How lines are shown. -/
structure SearchView where
  /-- The name in front of each line, if one is wanted. -/
  name : Option Word
  numbered : Bool
  onlyMatches : Bool
  /-- How many lines around each wanted one are shown too. -/
  before : Nat
  after : Nat

/-- What stands in front of a line. -/
def SearchView.front (v : SearchView) (mark : Char) (n : Nat) : List UInt8 :=
  let name := match v.name with
    | some name => name ++ [mark]
    | none => []
  let number := if v.numbered then Nat.toDigits 10 n ++ [mark] else []
  Word.bytes (name ++ number)

/-- The lines that are wanted, and those around them, with a line of hyphens where some are left
out. -/
def SearchView.lines (v : SearchView) (s : Search) (all : List (Nat × List UInt8 × Bool)) :
    List UInt8 :=
  let wanted := (all.filter fun x => x.2.2).map Prod.fst
  let isNear := fun (n : Nat) => wanted.any fun w => w ≤ n + v.before && n ≤ w + v.after
  let around := 0 < v.before || 0 < v.after
  let near := if around then all.filter fun x => isNear x.1 else all.filter fun x => x.2.2
  (near.foldl (fun (out, last) (n, line, hit) =>
    let gap : List UInt8 := if around && 0 < last && last + 1 < n then [45, 45, 10] else []
    let text :=
      if v.onlyMatches then
        if !hit || s.inverted then []
        else
          let chars := Word.ofBytes (body line)
          (matchesIn s.pattern s.folds (chars.length + 1) none chars).flatMap fun m =>
            v.front ':' n ++ Word.bytes m ++ [10]
      else v.front (if hit then ':' else '-') n ++ line
    (out ++ gap ++ text, n)) (([] : List UInt8), 0)).1

/-- The options of the tool. -/
def searchRules : OptionRules :=
  ⟨"EFGPivwxclLqshHnoabyZzrR0123456789", "efmABC", [("extended-regexp", 'E'),
    ("fixed-strings", 'F'), ("basic-regexp", 'G'), ("ignore-case", 'i'), ("invert-match", 'v'),
    ("word-regexp", 'w'), ("line-regexp", 'x'), ("count", 'c'), ("files-with-matches", 'l'),
    ("files-without-match", 'L'), ("quiet", 'q'), ("silent", 'q'), ("no-messages", 's'),
    ("no-filename", 'h'), ("with-filename", 'H'), ("line-number", 'n'), ("only-matching", 'o'),
    ("regexp", 'e'), ("file", 'f'), ("max-count", 'm'), ("after-context", 'A'),
    ("before-context", 'B'), ("context", 'C'), ("color", 'Z'), ("colour", 'Z'), ("text", 'a')],
    true⟩

/-- The pattern that some texts write together, each with as many patterns as it has lines. -/
def patternOf (o : Options) (texts : List Word) : Except RegularProblem Regular :=
  let read := fun (cs : List Char) =>
    if o.has 'F' then .ok (Regular.exactly cs) else Regular.read (o.has 'E' || o.has 'P') true cs
  let all := texts.flatMap fun text => Word.pieces (· == '\n') text
  let joined := all.foldl (fun (acc : Except RegularProblem (Option Regular)) cs =>
    acc.bind fun before => (read cs).map fun r =>
      some (match before with
        | some other => .choice other r
        | none => r)) (.ok none)
  joined.map fun r? =>
    -- no text at all is found nowhere
    let r := r?.getD (.oneOf false [])
    if o.has 'x' then
      .sequence (.border .textStart) (.sequence r (.border .textEnd))
    else if o.has 'w' then
      .sequence (.border .notBehindWord) (.sequence r (.border .notBeforeWord))
    else r

/-- The lines of files that hold a pattern. -/
def grep (c : Call) : Ran :=
  let c := { c with name := "grep".toList }
  let usage := "Usage: grep [OPTION]... PATTERNS [FILE]...\n" ++
    "Try 'grep --help' for more information.\n"
  let refuse := fun (message : List UInt8) =>
    { c.ends [(.err, message ++ Word.bytesOf usage)] 2 with rest := c.input }
  match searchRules.read c.args with
  | .error e => refuse (Word.bytesOf s!"grep: {e.toString}\n")
  | .ok o =>
    let fromFiles := (o.values 'f').map fun w => (w, bytesNamed c w)
    match fromFiles.find? fun x => x.2.toOption.isNone with
    | some (w, .error e) => c.complains (plainComplaint w e) 2
    | _ =>
      let given := o.values 'e' ++ fromFiles.flatMap fun x =>
        (byteLines (x.2.toOption.getD [])).map fun line => Word.ofBytes (body line)
      let isGiven := o.has 'e' || o.has 'f'
      match (if isGiven then given else o.words.take 1), isGiven with
      | [], false => refuse []
      | texts, _ =>
        let files := if isGiven then o.words else o.words.drop 1
        match patternOf o texts with
        | .error e => c.complains e.toString 2
        | .ok r =>
          let search : Search := ⟨r, o.has 'i' || o.has 'y', o.has 'v'⟩
          let most := ((o.value? 'm').map countOf).getD (c.input.length + 1000000)
          let around := fun (letter : Char) =>
            (((o.value? letter).or (o.value? 'C')).map countOf).getD 0
          let named := (files.length > 1 || o.has 'H') && !o.has 'h'
          let results := (readFiles c files).map fun (w, r) =>
            let name := if w = ['-'] then "(standard input)".toList else w
            match r with
            | .error e =>
              (none, if o.has 's' then (Stream.err, []) else
                c.complaint s!"{String.ofList w}: {reason e}")
            | .ok bytes =>
              let all := search.over most bytes
              let count := all.countP fun x => x.2.2
              let view : SearchView :=
                ⟨if named then some name else none, o.has 'n', o.has 'o', around 'B', around 'A'⟩
              let out := if o.has 'q' then []
                else if o.has 'l' then (if 0 < count then Word.bytes (name ++ ['\n']) else [])
                else if o.has 'L' then (if 0 < count then [] else Word.bytes (name ++ ['\n']))
                else if o.has 'c' then
                  let front := if named then name ++ [':'] else []
                  Word.bytes (front ++ Nat.toDigits 10 count ++ ['\n'])
                else if bytes.contains 0 && !o.has 'a' && 0 < count then
                  Word.bytesOf s!"grep: {String.ofList name}: binary file matches\n"
                else view.lines search all
              (some (decide (0 < count)), (Stream.out, out))
          let found := results.any fun x => x.1 = some true
          let failed := results.any fun x => x.1.isNone
          let well := if o.has 'L' then results.any fun x => x.1 = some false else found
          let code := if failed && !(o.has 'q' && found) then 2 else if well then 0 else 1
          { c.ends (results.map Prod.snd) code with rest := inputBehind c files }

end ArtifactSync.Process
