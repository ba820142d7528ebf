import ArtifactSync.Process.Input
import ArtifactSync.Process.Regular

/-!
# Scripts of the line editor

The line editor runs the same commands over every line. A script is a row of commands, each with the
lines it applies to; a block is a command that names the place behind its end, and a jump names the
place it leads to. `EditScript.read` tells what is wrong with a script, and behind how many of its
characters that shows.
-/

namespace ArtifactSync.Process

/-- A pattern as a script writes it, or the one that was looked for last. -/
structure EditPattern where
  pattern : Option Regular
  folds : Bool
  deriving DecidableEq, Repr

/-- Where a command applies. -/
inductive Address where
  | line (n : Nat)
  /-- Every so many lines, from one on. -/
  | every (first step : Nat)
  | last
  | holds (p : EditPattern)
  /-- So many lines behind the one where a range begins. -/
  | behind (n : Nat)
  /-- The next line whose number is a multiple. -/
  | multiple (n : Nat)
  deriving DecidableEq, Repr

/-- How the letters behind a place in a new text are changed. -/
inductive LetterCase where
  | upper
  | lower
  | upperOne
  | lowerOne
  | kept
  deriving DecidableEq, Repr

/-- A part of the text that replaces a match. -/
inductive NewPart where
  | char (c : Char)
  /-- The text of a group; that of the whole match is number zero. -/
  | group (index : Nat)
  | letters (how : LetterCase)
  deriving DecidableEq, Repr

/-- How matches are replaced: which of them, and what happens to a line in which one was. -/
structure Replacement where
  pattern : EditPattern
  new : List NewPart
  fromNumber : Nat
  everywhere : Bool
  prints : Bool
  file : Option Word
  deriving DecidableEq, Repr

/-- What a command does. Places in the script are counted from zero. -/
inductive Editing where
  /-- Begins a block, behind whose end there is a place. -/
  | block (behind : Nat)
  /-- Does nothing: the end of a block, or a label. -/
  | mark
  /-- Goes to a place; perhaps only if something was replaced, or if nothing was. -/
  | jump (onlyIf : Option Bool) (place : Nat)
  | replace (r : Replacement)
  | exchange (old new : List Char)
  | delete
  | deleteFirst
  | print
  | printFirst
  | printNumber
  | printPlainly
  | quit (quiet : Bool) (code : Nat)
  | append (text : List Char)
  | insert (text : List Char)
  | change (text : List Char)
  | next
  | appendNext
  | hold (adds : Bool)
  | get (adds : Bool)
  | swap
  | clear
  | readFile (file : Word)
  | writeFile (file : Word)
  deriving DecidableEq, Repr

/-- A command of the editor: the line, or the first and the last line, it applies to, and whether it
applies to all others instead. -/
structure LineCommand where
  first : Option Address
  final : Option Address
  negated : Bool
  editing : Editing
  deriving DecidableEq, Repr

/-- What is wrong with a script, and how many characters of it are read by then. -/
structure EditorProblem where
  position : Nat
  message : String
  deriving DecidableEq, Repr

namespace EditScript

/-- What is read of a script, with the characters left. -/
abbrev Reading (α : Type) := Except EditorProblem (α × List Char)

/-- A problem in front of some characters of a script of a length. -/
def problem (length : Nat) (rest : List Char) (message : String) : EditorProblem :=
  ⟨length - rest.length, message⟩

/-- A name between the marks of messages. -/
def marked (name : String) : String :=
  String.ofList (Char.ofNat 96 :: name.toList ++ ['\''])

/-! ## Parts of commands -/

/-- How many characters there are in a text up to a mark, those between brackets left out of account
if brackets count. -/
def markAt? (mark : Char) (brackets : Bool) : Nat → Bool → List Char → Option Nat
  | _, _, [] => none
  | skip + 1, inside, _ :: cs => (markAt? mark brackets skip inside cs).map (· + 1)
  | 0, true, c :: cs =>
    let skip := match (if c = '[' then className? cs else none) with
      | some name => name.length + 3
      | none => 0
    (markAt? mark brackets skip (c ≠ ']') cs).map (· + 1)
  | 0, false, c :: cs =>
    if c = mark then some 0
    else if c = '\n' && brackets then none
    else if c = '\\' then (markAt? mark brackets 1 false cs).map (· + 1)
    else if c = '[' && brackets then
      -- a bracket at the very start of a set does not end it
      let skip := if cs.head? = some ']' then 1
        else if cs.head? = some '^' then (if cs[1]? = some ']' then 2 else 1) else 0
      (markAt? mark brackets skip true cs).map (· + 1)
    else (markAt? mark brackets 0 false cs).map (· + 1)

/-- A text without the backslashes in front of the mark that ends it. A mark that has a meaning of
its own in patterns loses it, and a line end may be written as a letter. -/
def unmarked (mark : Char) (isPattern : Bool) : List Char → List Char
  | '\\' :: d :: rest =>
    if d = mark then
      (if isPattern && "*.[]^$+?|()\x7b\\".toList.contains d then ['[', d, ']'] else [d]) ++
        unmarked mark isPattern rest
    else '\\' :: d :: unmarked mark isPattern rest
  | c :: rest => c :: unmarked mark isPattern rest
  | [] => []

/-- The parts of a text that replaces a match. -/
def newParts : List Char → List NewPart
  | [] => []
  | '\\' :: d :: rest =>
    let part := match d with
      | 'n' => .char '\n'
      | 't' => .char '\t'
      | 'f' => .char '\x0c'
      | 'r' => .char '\r'
      | 'v' => .char '\x0b'
      | 'a' => .char '\x07'
      | 'U' => .letters .upper
      | 'L' => .letters .lower
      | 'u' => .letters .upperOne
      | 'l' => .letters .lowerOne
      | 'E' => .letters .kept
      | d => if d.isDigit then NewPart.group (d.toNat - 48) else .char d
    part :: newParts rest
  | c :: rest => (if c = '&' then .group 0 else .char c) :: newParts rest

/-- A pattern of a script; an empty one is the last that was looked for. -/
def readPattern (extended folds : Bool) (text : List Char) : Except RegularProblem EditPattern :=
  if text = [] then .ok ⟨none, folds⟩
  else (Regular.read extended false text).map fun r => ⟨some r, folds⟩

/-- Reads an address, if one is next. -/
def address (extended : Bool) (length : Nat) (cs : List Char) : Reading (Option Address) :=
  match cs with
  | '$' :: rest => .ok (some .last, rest)
  | '+' :: rest =>
    let digits := rest.takeWhile Char.isDigit
    .ok (some (.behind (countOf digits)), rest.drop digits.length)
  | '~' :: rest =>
    let digits := rest.takeWhile Char.isDigit
    .ok (some (.multiple (countOf digits)), rest.drop digits.length)
  | c :: rest =>
    let ownMark := c = '\\' && rest ≠ []
    if c = '/' || ownMark then
      let mark := if ownMark then rest.headD '/' else '/'
      let rest := if ownMark then rest.drop 1 else rest
      match markAt? mark true 0 false rest with
      | none => .error (problem length [] "unterminated address regex")
      | some n =>
        let behind := rest.drop (n + 1)
        let flags := behind.takeWhile fun f => f = 'I' || f = 'M'
        let behind := behind.drop flags.length
        match readPattern extended (flags.contains 'I') (unmarked mark true (rest.take n)) with
        | .error e => .error (problem length behind e.toString)
        | .ok p => .ok (some (.holds p), behind)
    else
      let digits := cs.takeWhile Char.isDigit
      let behind := cs.drop digits.length
      if digits = [] then .ok (none, cs)
      else match behind with
        | '~' :: more =>
          let step := more.takeWhile Char.isDigit
          .ok (some (.every (countOf digits) (countOf step)), more.drop step.length)
        | behind => .ok (some (.line (countOf digits)), behind)
  | [] => .ok (none, [])

/-- Whether a character is a blank within a line. -/
def isGap (c : Char) : Bool :=
  Word.isBlank c && c ≠ '\n'

/-- Requires the end of a command: the end of its line, a semicolon, a comment or the end of a
block. -/
def finish (length : Nat) (editing : Editing) (cs : List Char) : Reading Editing :=
  match cs.dropWhile isGap with
  | [] => .ok (editing, [])
  | c :: rest =>
    if c = '\n' || c = ';' then .ok (editing, rest)
    else if c = '\x7d' || c = '#' then .ok (editing, c :: rest)
    else .error (problem length rest "extra characters after command")

/-- A text behind a command without its backslashes, up to the end of its line. -/
def plainLines : List Char → List Char × List Char
  | [] => ([], [])
  | c :: cs =>
    if c = '\n' then ([], cs)
    else if c = '\\' then
      match cs with
      | [] => ([], [])
      | d :: rest =>
        let (text, left) := plainLines rest
        let known := [('a', '\x07'), ('f', '\x0c'), ('n', '\n'), ('r', '\r'), ('t', '\t'),
          ('v', '\x0b')]
        (((known.find? fun k => k.1 = d).map Prod.snd).getD d :: text, left)
    else
      let (text, left) := plainLines cs
      (c :: text, left)

/-- Reads the text of a command that adds lines. -/
def addedText (length : Nat) (cs : List Char) : Reading (List Char) :=
  match cs.dropWhile isGap with
  | [] => .error (problem length [] ("expected \\ after " ++ marked "a" ++ ", " ++ marked "c" ++
      " or " ++ marked "i"))
  | '\\' :: rest =>
    let behind := rest.dropWhile isGap
    let start := if behind.head? = some '\n' then behind.drop 1 else rest
    .ok (plainLines start)
  | start => .ok (plainLines start)

/-- Reads the name of a file, which goes to the end of the line. -/
def fileName (length : Nat) (cs : List Char) : Reading Word :=
  let name := (cs.dropWhile isGap).takeWhile (· ≠ '\n')
  let rest := (cs.dropWhile isGap).drop (name.length + 1)
  if name = [] then .error (problem length rest "missing filename in r/R/w/W commands")
  else .ok (name, rest)

/-- Reads the two parts between marks of a command, the first of which may be a pattern. -/
def twoParts (length : Nat) (name : String) (isPattern : Bool) (cs : List Char) :
    Reading (Char × List Char × List Char) :=
  let unterminated := .error (problem length [] s!"unterminated {marked name} command")
  match cs with
  | [] => unterminated
  | mark :: rest =>
    match markAt? mark isPattern 0 false rest with
    | none => unterminated
    | some n =>
      let behind := rest.drop (n + 1)
      match markAt? mark false 0 false behind with
      | none => unterminated
      | some m => .ok ((mark, rest.take n, behind.take m), behind.drop (m + 1))

/-- The letters and numbers behind a replacement, as they are read one after another. -/
def flags (length : Nat) (extended : Bool) (old : List Char) : Replacement → Bool → List Char →
    Reading Editing
  | r, numbered, cs =>
    let option := marked "s"
    let done := fun (rest : List Char) (behind : List Char) =>
      match readPattern extended r.pattern.folds old with
      | .error e => Except.error (problem length behind e.toString)
      | .ok p =>
        let groups := (p.pattern.map countGroups).getD 9
        let highest := (r.new.filterMap fun part => match part with
          | .group n => some n
          | _ => none).foldl max 0
        if groups < highest then
          .error (problem length behind s!"invalid reference \\{highest} on {option} command's RHS")
        else .ok (Editing.replace { r with pattern := p }, rest)
    match cs with
    | [] => done [] []
    | c :: rest =>
      let twice := fun (letter : String) =>
        .error (problem length rest s!"multiple {marked letter} options to {option} command")
      if c = 'g' then
        if r.everywhere then twice "g"
        else flags length extended old { r with everywhere := true } numbered rest
      else if c = 'p' then
        if r.prints then twice "p"
        else flags length extended old { r with prints := true } numbered rest
      else if c = 'i' || c = 'I' then
        flags length extended old { r with pattern := ⟨none, true⟩ } numbered rest
      else if c = 'm' || c = 'M' then flags length extended old r numbered rest
      else if c.isDigit then
        let digit := c.toNat - 48
        if numbered then
          -- a number goes on as long as there are digits
          flags length extended old { r with fromNumber := r.fromNumber * 10 + digit } true rest
        else if digit = 0 then
          .error (problem length rest s!"number option to {option} command may not be zero")
        else flags length extended old { r with fromNumber := digit } true rest
      else if c = 'w' then
        match fileName length rest with
        | .error e => .error e
        | .ok (name, rest) =>
          match readPattern extended r.pattern.folds old with
          | .error e => .error (problem length rest e.toString)
          | .ok p => .ok (.replace { r with pattern := p, file := some name }, rest)
      else if c = '\n' || c = ';' then done rest rest
      else if c = '\x7d' || c = '#' then done (c :: rest) rest
      else if isGap c then flags length extended old r numbered rest
      else .error (problem length rest s!"unknown option to {option}")
where
  /-- How many groups a pattern has. -/
  countGroups : Regular → Nat
  | .sequence a b => countGroups a + countGroups b
  | .choice a b => countGroups a + countGroups b
  | .repeated _ _ a => countGroups a
  | .group _ a => countGroups a + 1
  | _ => 0

/-- The characters of a list for exchanging, with their backslashes carried out. -/
def exchangeList (mark : Char) : List Char → List Char
  | '\\' :: d :: rest =>
    (if d = mark || d = '\\' then [d] else if d = 'n' then ['\n'] else ['\\', d]) ++
      exchangeList mark rest
  | c :: rest => c :: exchangeList mark rest
  | [] => []

/-- Reads a label. -/
def label (cs : List Char) (stops : Char → Bool) : List Char × List Char :=
  let start := cs.dropWhile isGap
  let name := start.takeWhile fun c => !Word.isBlank c && c ≠ ';' && !stops c
  (name, start.drop name.length)

/-! ## Commands -/

/-- A command as it is read: jumps still name their labels. -/
inductive RawEditing where
  | done (editing : Editing)
  | opens
  | closes
  | label (name : List Char)
  | jump (onlyIf : Option Bool) (name : List Char)
  deriving DecidableEq, Repr

/-- A command as it is read, with its addresses. -/
structure RawCommand where
  first : Option Address
  final : Option Address
  negated : Bool
  editing : RawEditing
  deriving DecidableEq, Repr

/-- What a command does by its letter and the text behind it. -/
def editing (extended : Bool) (length : Nat) (letter : Char) (cs : List Char) :
    Reading RawEditing :=
  let simple := fun (e : Editing) =>
    (finish length e cs).map fun (e, rest) => (RawEditing.done e, rest)
  let ready := fun (r : Reading Editing) => r.map fun (e, rest) => (RawEditing.done e, rest)
  let text := fun (f : List Char → Editing) =>
    (addedText length cs).map fun (t, rest) => (RawEditing.done (f t), rest)
  let file := fun (f : Word → Editing) =>
    (fileName length cs).map fun (name, rest) => (RawEditing.done (f name), rest)
  let jump := fun (onlyIf : Option Bool) =>
    let (name, rest) := label cs (· == '\x7d')
    (finish length .mark rest).map fun (_, rest) => (RawEditing.jump onlyIf name, rest)
  match letter with
  | '\x7b' => .ok (.opens, cs)
  | '\x7d' => (finish length .mark cs).map fun (_, rest) => (.closes, rest)
  | ':' =>
    let (name, rest) := label cs fun _ => false
    if name = [] then .error (problem length rest "\":\" lacks a label")
    else .ok (.label name, rest)
  | 'b' => jump none
  | 't' => jump (some true)
  | 'T' => jump (some false)
  | 's' =>
    match twoParts length "s" true cs with
    | .error e => .error e
    | .ok ((mark, old, new), rest) =>
      ready (flags length extended (unmarked mark true old)
        ⟨⟨none, false⟩, newParts (unmarked mark false new), 1, false, false, none⟩ false rest)
  | 'y' =>
    match twoParts length "y" false cs with
    | .error e => .error e
    | .ok ((mark, old, new), rest) =>
      let old := exchangeList mark old
      let new := exchangeList mark new
      if old.length ≠ new.length then
        let command := marked "y"
        .error (problem length rest s!"strings for {command} command are different lengths")
      else ready (finish length (.exchange old new) rest)
  | 'd' => simple .delete
  | 'D' => simple .deleteFirst
  | 'p' => simple .print
  | 'P' => simple .printFirst
  | '=' => simple .printNumber
  | 'l' => simple .printPlainly
  | 'n' => simple .next
  | 'N' => simple .appendNext
  | 'h' => simple (.hold false)
  | 'H' => simple (.hold true)
  | 'g' => simple (.get false)
  | 'G' => simple (.get true)
  | 'x' => simple .swap
  | 'z' => simple .clear
  | 'q' => quits false
  | 'Q' => quits true
  | 'a' => text .append
  | 'i' => text .insert
  | 'c' => text .change
  | 'r' => file .readFile
  | 'w' => file .writeFile
  | other => .error (problem length cs s!"unknown command: {marked (String.ofList [other])}")
where
  /-- A command that ends the editor, perhaps with a code. -/
  quits (quiet : Bool) : Reading RawEditing :=
    let start := cs.dropWhile isGap
    let digits := start.takeWhile Char.isDigit
    (finish length (.quit quiet (countOf digits)) (start.drop digits.length)).map
      fun (e, rest) => (.done e, rest)

/-- The commands of a script, at most `limit` of them, of which `depth` blocks are open. -/
def rawCommands (extended : Bool) (length : Nat) : Nat → Nat → List Char →
    Except EditorProblem (List RawCommand)
  | 0, _, _ => .ok []
  | limit + 1, depth, cs =>
    let cs := cs.dropWhile fun c => Word.isBlank c || c = ';'
    match address extended length cs with
    | .error e => .error e
    | .ok (first, behind) =>
      let ranged := first.isSome && (behind.dropWhile isGap).head? = some ','
      let second := (behind.dropWhile isGap).drop 1
      let final := if ranged then address extended length (second.dropWhile isGap)
        else .ok (none, behind)
      match final with
      | .error e => .error e
      | .ok (final, behind) =>
        let next := behind.dropWhile isGap
        if ranged && final.isNone then
          .error (problem length (next.drop 1) ("unexpected " ++ marked ","))
        else
          let negated := next.head? = some '!'
          let next := if negated then (next.drop 1).dropWhile isGap else next
          match next with
          | [] =>
            if first.isSome || negated then .error (problem length [] "missing command")
            else if 0 < depth then .error ⟨0, "unmatched " ++ marked "\x7b"⟩
            else .ok []
          | letter :: rest =>
            if letter = '#' then
              if first.isSome then
                .error (problem length rest "comments don't accept any addresses")
              else rawCommands extended length limit depth (rest.dropWhile (· ≠ '\n'))
            else if (letter = '\n' || letter = ';') && (first.isSome || negated) then
              .error (problem length rest "missing command")
            else if first = some (.line 0) && !(match final with
                | some (.holds _) => true
                | _ => false) then
              .error (problem length rest "invalid usage of line address 0")
            else if letter = '\x7d' && depth = 0 then
              .error (problem length rest ("unexpected " ++ marked "\x7d"))
            else if letter = '\x7d' && first.isSome then
              .error (problem length rest (marked "\x7d" ++ " doesn't want any addresses"))
            else if letter = ':' && first.isSome then
              .error (problem length rest ": doesn't want any addresses")
            else
              match editing extended length letter rest with
              | .error e => .error e
              | .ok (editing, rest) =>
                let depth := match editing with
                  | .opens => depth + 1
                  | .closes => depth - 1
                  | _ => depth
                (rawCommands extended length limit depth rest).map
                  (⟨first, final, negated, editing⟩ :: ·)

/-- How many commands there are up to the end of the block that is open, of those inside `depth`
others. -/
def blockLength : Nat → List RawCommand → Nat
  | _, [] => 0
  | depth, k :: rest =>
    match k.editing with
    | .opens => blockLength (depth + 1) rest + 1
    | .closes => if depth = 0 then 0 else blockLength (depth - 1) rest + 1
    | _ => blockLength depth rest + 1

/-- The command at a place, with the places of blocks and labels filled in; or the label that there
is not. -/
def settle (all : List RawCommand) (place : Nat) (k : RawCommand) :
    Except (List Char) LineCommand :=
  let done := fun (e : Editing) => Except.ok (LineCommand.mk k.first k.final k.negated e)
  match k.editing with
  | .done e => done e
  | .opens => done (.block (place + 1 + blockLength 0 (all.drop (place + 1))))
  | .closes => done .mark
  | .label _ => done .mark
  | .jump onlyIf name =>
    if name = [] then done (.jump onlyIf all.length)
    else match all.findIdx? fun other => other.editing = .label name with
      | some place => done (.jump onlyIf place)
      | none => .error name

/-- Why a script cannot be run. -/
inductive Fault where
  | problem (p : EditorProblem)
  | noLabel (name : List Char)
  deriving DecidableEq, Repr

/-- The commands of a script. -/
def read (extended : Bool) (script : List Char) : Except Fault (List LineCommand) :=
  match rawCommands extended script.length (script.length + 1) 0 script with
  | .error p => .error (.problem p)
  | .ok all =>
    (all.zipIdx.mapM fun (k, place) => settle all place k).mapError .noLabel

end EditScript

end ArtifactSync.Process
