import ArtifactSync.Process.Tool.EditScript

/-!
# The line editor

Runs a script over the lines of files. A line is kept in a space of its own while the commands
change it, and is printed behind the last of them; another space holds text from line to line. The
end of the last line is missing where it was missing in the input.
-/

namespace ArtifactSync.Process

/-- A line that is still to be read: its text, whether it has an end, and whether it is the last. -/
structure WaitingLine where
  text : Word
  ended : Bool
  isLast : Bool
  deriving DecidableEq, Repr

/-- The range of a command: where it ends, if that is known. -/
inductive RangeState where
  | outside
  | inside (final : Option Nat)
  deriving DecidableEq, Repr

/-- An editor between two commands. -/
structure Editor where
  quiet : Bool
  space : Word
  /-- Whether the line that is in the space had an end, and the one that is held. -/
  ended : Bool
  isLast : Bool
  held : Word
  heldEnded : Bool
  number : Nat
  waiting : List WaitingLine
  /-- What is printed behind the line. -/
  queue : List (List UInt8)
  changed : Bool
  ranges : List RangeState
  lastPattern : Regular
  out : List UInt8
  /-- Whether the end of the last printed line is still to be printed. -/
  owesEnd : Bool
  disk : Disk
  code : Option Nat

namespace Editor

/-! ## Printing -/

/-- Prints bytes behind the end of the line in front. -/
def emit (e : Editor) (bytes : List UInt8) : Editor :=
  { e with out := e.out ++ (if e.owesEnd then [10] else []) ++ bytes, owesEnd := false }

/-- Prints a text as a line that has an end if the line in the space had one. -/
def print (e : Editor) (text : Word) : Editor :=
  { e.emit (Word.bytes text ++ (if e.ended then [10] else [])) with owesEnd := !e.ended }

/-- Prints what is queued. -/
def flush (e : Editor) : Editor :=
  { e.queue.foldl emit e with queue := [] }

/-- Ends the cycle of a line. -/
def endCycle (e : Editor) (prints : Bool) : Editor :=
  (if prints && !e.quiet then e.print e.space else e).flush

/-- Adds bytes to a file. -/
def write (e : Editor) (file : Word) (bytes : List UInt8) : Editor :=
  if file = "/dev/stdout".toList then e.emit bytes
  else
    let before := (e.disk.readBytes (Word.path file)).toOption.getD []
    match e.disk.putBytes (Word.path file) (before ++ bytes) with
    | .ok disk => { e with disk := disk }
    | .error _ => e

/-- A text with everything that cannot be printed spelled out, in lines of 69 characters. -/
def plainly (text : Word) : List UInt8 :=
  let spell := fun (c : Char) =>
    if c = '\\' then ['\\', '\\'] else if isPrintable c then [c] else byteEscape c
  let (line, out) := text.foldl (fun (line, out) c =>
    let sign := spell c
    if 69 < line.length + sign.length then (sign, out ++ line ++ ['\\', '\n'])
    else (line ++ sign, out)) (([] : List Char), ([] : List Char))
  Word.bytes (out ++ line ++ ['$', '\n'])

/-! ## Addresses -/

/-- The pattern of a script, with the last one in place of an empty one. -/
def patternOf (e : Editor) (p : EditPattern) : Regular :=
  p.pattern.getD e.lastPattern

/-- Whether an address is that of the line, and the editor that remembers its pattern. -/
def isAt (e : Editor) (a : Address) : Bool × Editor :=
  match a with
  | .line n => (e.number = n, e)
  | .every first step =>
    (if step = 0 then e.number = first
      else first ≤ e.number && (e.number - first) % step = 0, e)
  | .last => (e.isLast, e)
  | .holds p =>
    let r := e.patternOf p
    (r.isIn p.folds e.space, { e with lastPattern := r })
  | .behind _ => (false, e)
  | .multiple n => (n = 0 || e.number % n = 0, e)

/-- Whether a command at a place applies to the line, and the editor with its range. -/
def applies (e : Editor) (place : Nat) (k : LineCommand) : Bool × Editor :=
  let set := fun (e : Editor) (state : RangeState) =>
    { e with ranges := e.ranges.set place state }
  let (hit, e) := match k.first, k.final with
    | none, _ => (true, e)
    | some first, none => e.isAt first
    | some first, some final =>
      match e.ranges.getD place .outside with
      | .inside (some n) =>
        (e.number ≤ n, if n ≤ e.number then set e .outside else e)
      | .inside none =>
        let (ends, e) := e.isAt final
        (true, if ends then set e .outside else e)
      | .outside =>
        let (begins, e) := e.isAt first
        if !begins then (false, e)
        else
          let known := match final with
            | .line n => some n
            | .behind n => some (e.number + n)
            | .multiple n => some (if n = 0 then e.number else (e.number + n - 1) / n * n)
            | _ => none
          match known with
          | some n => (true, if n ≤ e.number then e else set e (.inside (some n)))
          | none => (true, if final = .last && e.isLast then e else set e (.inside none))
  (hit != k.negated, e)

/-! ## Replacing -/

/-- Adds a character to a new text, in the case that is asked for. -/
def withCase (all one : LetterCase) (c : Char) : Char :=
  match one, all with
  | .upperOne, _ => c.toUpper
  | .lowerOne, _ => c.toLower
  | _, .upper => c.toUpper
  | _, .lower => c.toLower
  | _, _ => c

/-- The text that replaces a match. -/
def replacementFor (new : List NewPart) (m : Match) : List Char :=
  let put := fun (state : List Char × LetterCase × LetterCase) (c : Char) =>
    let (text, all, one) := state
    (text ++ [withCase all one c], all, LetterCase.kept)
  (new.foldl (fun state part =>
    match part with
    | .char c => put state c
    | .group 0 => m.text.foldl put state
    | .group index =>
      (((m.behind.groups.find? fun g => g.1 = index).map Prod.snd).getD []).foldl put state
    | .letters .kept => (state.1, .kept, .kept)
    | .letters .upper => (state.1, .upper, .kept)
    | .letters .lower => (state.1, .lower, .kept)
    | .letters one => (state.1, state.2.1, one)) (([] : List Char), .kept, .kept)).1

/-- Replaces matches in a text, the one with a number or all from there on, and tells whether there
was one. A match of nothing does not count right behind another match. At most `limit` matches are
looked at. -/
def replaceMatches (r : Regular) (folds : Bool) (new : List NewPart) (everywhere : Bool) :
    Nat → Nat → Option Char → Bool → List Char → List Char × Bool
  | 0, _, _, _, cs => (cs, false)
  | limit + 1, toSkip, before, behindMatch, cs =>
    match r.find folds before cs with
    | none => (cs, false)
    | some m =>
      let behind := m.behind.rest
      let isVoid := m.text.isEmpty
      let counts := !(isVoid && behindMatch && m.front.isEmpty)
      let hits := counts && toSkip = 0
      let shown := if hits then replacementFor new m else m.text
      if hits && !everywhere then (m.front ++ shown ++ behind, true)
      else if isVoid && behind.isEmpty then (m.front ++ shown, hits)
      else
        -- a match of nothing is followed by the next character as it is
        let step := if isVoid then behind.take 1 else []
        let before := if isVoid then step.head? else m.behind.before
        let toSkip := if counts then toSkip - 1 else toSkip
        let (more, hit) := replaceMatches r folds new everywhere limit toSkip before (!isVoid)
          (behind.drop step.length)
        (m.front ++ shown ++ step ++ more, hits || hit)

/-- Carries out a replacement. -/
def replace (e : Editor) (r : Replacement) : Editor :=
  let pattern := e.patternOf r.pattern
  let (text, hit) := replaceMatches pattern r.pattern.folds r.new r.everywhere
    (e.space.length + 2) (r.fromNumber - 1) none false e.space
  let e := { e with space := text, lastPattern := pattern, changed := e.changed || hit }
  if !hit then e
  else
    let e := if r.prints then e.print text else e
    match r.file with
    | some file => e.write file (Word.bytes text ++ [10])
    | none => e

/-! ## Running a script -/

/-- Takes the next line, put behind what is in the space already if asked for. -/
def take? (e : Editor) (adds : Bool) : Option Editor :=
  match e.waiting with
  | [] => none
  | line :: rest =>
    some { e with
      space := if adds then e.space ++ '\n' :: line.text else line.text
      ended := line.ended
      isLast := line.isLast
      number := e.number + 1
      waiting := rest }

/-- How the editor goes on behind a command. -/
inductive Onward where
  | place (n : Nat)
  /-- The line is done with, and printed or not. -/
  | nextLine (prints : Bool)
  /-- The commands begin again with what is in the space. -/
  | again
  | stop
  deriving DecidableEq, Repr

/-- Carries out a command at a place. -/
def carryOut (e : Editor) (place : Nat) (editing : Editing) : Editor × Onward :=
  let go := fun (e : Editor) => (e, Onward.place (place + 1))
  let line := e.space.takeWhile (· ≠ '\n')
  match editing with
  | .block _ => go e
  | .mark => go e
  | .jump none target => (e, .place target)
  | .jump (some wanted) target =>
    ({ e with changed := false }, .place (if e.changed = wanted then target else place + 1))
  | .replace r => go (e.replace r)
  | .exchange old new =>
    go { e with space := e.space.map fun c =>
      match old.idxOf? c with
      | some i => new.getD i c
      | none => c }
  | .delete => (e, .nextLine false)
  | .deleteFirst =>
    if line.length = e.space.length then (e, .nextLine false)
    else ({ e with space := e.space.drop (line.length + 1) }, .again)
  | .print => go (e.print e.space)
  | .printFirst => go (e.emit (Word.bytes line ++ [10]))
  | .printNumber => go (e.emit (Word.bytes (Nat.toDigits 10 e.number) ++ [10]))
  | .printPlainly => go (e.emit (plainly e.space))
  | .quit quiet code =>
    ({ (if quiet then e else e.endCycle true) with code := some code }, .stop)
  | .append text => go { e with queue := e.queue ++ [Word.bytes text ++ [10]] }
  | .insert text => go (e.emit (Word.bytes text ++ [10]))
  | .change text =>
    let isInside := match e.ranges.getD place .outside with
      | .inside _ => true
      | .outside => false
    (if isInside then e else e.emit (Word.bytes text ++ [10]), .nextLine false)
  | .next =>
    let printed := if e.quiet || e.waiting = [] then e else e.print e.space
    match printed.flush.take? false with
    | some e => go e
    | none => (e.endCycle true, .stop)
  | .appendNext =>
    match e.flush.take? true with
    | some e => go e
    | none => (e.endCycle true, .stop)
  | .hold adds =>
    let held := if adds then e.held ++ '\n' :: e.space else e.space
    go { e with held := held, heldEnded := e.ended }
  | .get adds =>
    let space := if adds then e.space ++ '\n' :: e.held else e.held
    go { e with space := space, ended := e.heldEnded }
  | .swap =>
    go { e with space := e.held, ended := e.heldEnded, held := e.space, heldEnded := e.ended }
  | .clear => go { e with space := [] }
  | .readFile file =>
    go { e with queue := e.queue ++ [((e.disk.readBytes (Word.path file)).toOption).getD []] }
  | .writeFile file => go (e.write file (Word.bytes e.space ++ [10]))

/-- Runs commands from a place on, in at most so many steps. -/
def run (commands : List LineCommand) : Nat → Nat → Editor → Editor
  | 0, _, e => e
  | steps + 1, place, e =>
    let readOn := fun (e : Editor) =>
      match e.take? false with
      | some e => run commands steps 0 { e with changed := false }
      | none => e
    match commands[place]? with
    | none => readOn (e.endCycle true)
    | some k =>
      let (hit, e) := e.applies place k
      if !hit then
        match k.editing with
        | .block behind => run commands steps behind e
        | _ => run commands steps (place + 1) e
      else
        match e.carryOut place k.editing with
        | (e, .place n) => run commands steps n e
        | (e, .nextLine prints) => readOn (e.endCycle prints)
        | (e, .again) => run commands steps 0 (e.endCycle false)
        | (e, .stop) => { e with waiting := [], code := some (e.code.getD 0) }

/-- The bound on the steps of a run. -/
def stepLimit : Nat := 200000

/-- An editor in front of some lines. -/
def fresh (quiet : Bool) (commands : List LineCommand) (lines : List WaitingLine) (disk : Disk) :
    Editor :=
  let begun := fun (k : LineCommand) =>
    if k.first = some (.line 0) then RangeState.inside none else .outside
  { quiet := quiet, space := [], ended := true, isLast := false, held := [], heldEnded := true
    number := 0, waiting := lines, queue := [], changed := false, ranges := commands.map begun
    lastPattern := .empty, out := [], owesEnd := false, disk := disk, code := none }

/-- Runs commands over lines. -/
def edited (quiet : Bool) (commands : List LineCommand) (lines : List WaitingLine) (disk : Disk) :
    Editor :=
  let e := fresh quiet commands lines disk
  match e.take? false with
  | none => e
  | some e => run commands stepLimit 0 e

end Editor

/-! ## The tool -/

/-- The lines of bytes, as they wait to be read. -/
def waitingLines (lastFile : Bool) (bytes : List UInt8) : List WaitingLine :=
  let lines := byteLines bytes
  lines.zipIdx.map fun (line, i) =>
    ⟨Word.ofBytes (body line), line.getLast? = some 10, lastFile && i + 1 = lines.length⟩

/-- Words in which each option that may have a value right behind it, but not in the next word, is
on its own; the values, and the other words. -/
def inPlaceOptions : List Word → List Word × List Word
  | [] => ([], [])
  | w :: ws =>
    let (values, rest) := inPlaceOptions ws
    match w with
    | '-' :: '-' :: name =>
      if w = ['-', '-'] then ([], w :: ws)
      else if "in-place".toList.isPrefixOf name then (name.drop 9 :: values, rest)
      else (values, w :: rest)
    | '-' :: letters =>
      let front := letters.takeWhile fun l => "nErsuz".toList.contains l
      match letters.drop front.length with
      | 'i' :: value =>
        (value :: values, if front = [] then rest else ('-' :: front) :: rest)
      | _ => (values, w :: rest)
    | w => (values, w :: rest)

/-- Edits each line. -/
def sed (c : Call) : Ran :=
  let c := { c with name := "sed".toList }
  let rules : OptionRules := ⟨"nErsuz", "efl", [("quiet", 'n'), ("silent", 'n'),
    ("regexp-extended", 'E'), ("expression", 'e'), ("file", 'f'), ("separate", 's'),
    ("unbuffered", 'u'), ("null-data", 'z'), ("posix", 'u')], true⟩
  let usage := "Usage: sed [OPTION]... \x7bscript-only-if-no-other-script\x7d [input-file]..."
  let (suffixes, args) := inPlaceOptions c.args
  match rules.read args with
  | .error e => c.complains (e.toString ++ "\n" ++ usage) 1
  | .ok o =>
    let scripts := (o.given.filter fun g => g.1 = 'e' || g.1 = 'f').map fun g =>
      if g.1 = 'e' then (false, g.2, Except.ok (Word.bytes g.2))
      else (true, g.2, bytesNamed c g.2)
    let isGiven := !scripts.isEmpty
    let unread := scripts.find? fun s => s.2.2.toOption.isNone
    match unread, isGiven || !o.words.isEmpty with
    | some (_, file, .error e), _ =>
      c.complains s!"couldn't open file {String.ofList file}: {reason e}" 4
    | _, false => { c.ends [(.err, Word.bytesOf (usage ++ "\n"))] 1 with rest := c.input }
    | _, true =>
      let texts := if isGiven then scripts.map fun s => Word.ofBytes (s.2.2.toOption.getD [])
        else o.words.take 1
      let texts := texts.map fun t => if t.getLast? = some '\n' then t.dropLast else t
      let files := if isGiven then o.words else o.words.drop 1
      let script := List.intercalate ['\n'] texts
      let quiet := o.has 'n' || ['#', 'n'] = script.takeWhile (· ≠ '\n')
      match EditScript.read (o.has 'E' || o.has 'r') script with
      | .error (.noLabel name) =>
        c.complains s!"can't find label for jump to {EditScript.marked (String.ofList name)}" 4
      | .error (.problem p) =>
        -- the script among several in which the problem shows
        let (number, start) := texts.foldl (fun (number, start) t =>
          if p.position ≤ start + t.length || number = texts.length then (number, start)
          else (number + 1, start + t.length + 1)) (1, 0)
        let place := p.position - start
        let file := ((scripts[number - 1]?).filter fun s => s.1).map fun s => String.ofList s.2.1
        match file with
        | some file =>
          let line := ((script.drop start).take place).countP (· = '\n') + 1
          c.complains s!"file {file} line {line}: {p.message}" 1
        | none => c.complains s!"-e expression #{number}, char {place}: {p.message}" 1
      | .ok commands =>
        let written := commands.filterMap fun k => match k.editing with
          | .writeFile file => some file
          | .replace r => r.file
          | _ => none
        let disk := written.foldl (fun d file =>
          if file = "/dev/stdout".toList then d
          else ((d.putBytes (Word.path file) []).toOption).getD d) c.disk
        let read := readFiles c files
        let complaint := fun (w : Word) (e : Errno) =>
          if isDirectoryError e then
            c.complaint s!"couldn't edit {String.ofList w}: not a regular file"
          else c.complaint s!"can't read {String.ofList w}: {reason e}"
        match read.find? fun x => isDirectory x.2 with
        | some (w, _) =>
          if suffixes.isEmpty then
            { c.complains s!"read error on {String.ofList w}: Is a directory" 4 with disk := disk }
          else
            { c.ends [complaint w .isDirectory] 4 with disk := disk }
        | none =>
          let complaints := read.filterMap fun (w, r) => match r with
            | .error e => some (complaint w e)
            | .ok _ => none
          let code := if complaints.isEmpty then 0 else 2
          let there := read.filterMap fun (w, r) => r.toOption.map fun bytes => (w, bytes)
          if suffixes.isEmpty && !o.has 's' then
            let lines := there.zipIdx.flatMap fun (x, i) =>
              waitingLines (i + 1 = there.length) x.2
            -- where a file ends without an end of its line, the next one begins a new line
            let lines := lines.zipIdx.map fun (l, i) =>
              if i + 1 < lines.length then { l with ended := true } else l
            let e := Editor.edited quiet commands lines disk
            { c.ends (complaints ++ [(.out, e.out)]) (e.code.getD code) with
              disk := e.disk, rest := inputBehind c files }
          else
            let (e, out) := there.foldl (fun (e, out) (file, bytes) =>
              if e.code.isSome then (e, out)
              else
                let fresh := Editor.edited quiet commands (waitingLines true bytes) e.disk
                if suffixes.isEmpty then (fresh, out ++ fresh.out)
                else
                  let backup := suffixes.headD []
                  let place := if backup.contains '*' then
                      backup.flatMap fun l => if l = '*' then file else [l]
                    else file ++ backup
                  let disk := if backup = [] then fresh.disk
                    else ((fresh.disk.putBytes (Word.path place) bytes).toOption).getD fresh.disk
                  let disk := ((disk.putBytes (Word.path file) fresh.out).toOption).getD disk
                  ({ fresh with disk := disk }, out))
              (Editor.fresh quiet commands [] disk, ([] : List UInt8))
            { c.ends (complaints ++ [(.out, out)]) (e.code.getD code) with
              disk := e.disk, rest := inputBehind c files }
where
  /-- Whether reading ended at a directory. -/
  isDirectory : Except Errno (List UInt8) → Bool
  | .error e => isDirectoryError e
  | .ok _ => false

end ArtifactSync.Process
