import ArtifactSync.Process.Wildcard

/-!
# Fields

An expanded word is a row of cells. A value that is not quoted is split at separators into fields.
Blanks among the separators are as good as nothing at the ends and count once between fields; any
other separator ends a field, together with the blanks around it.
-/

namespace ArtifactSync.Process

/-- How a character came into a word. -/
inductive Origin where
  /-- It stands in the script. -/
  | plain
  /-- It is quoted. -/
  | quoted
  /-- It comes from a value that is not quoted. -/
  | value
  deriving DecidableEq, Repr

/-- A part of an expanded word. -/
inductive Cell where
  | char (c : Char) (origin : Origin)
  /-- The end of a field between two parameters, which may be empty if they are quoted. -/
  | cut (quoted : Bool)
  /-- A quoted text that may be empty. -/
  | mark
  /-- The start of a value. -/
  | border
  deriving DecidableEq, Repr

/-- The cells of a value. -/
def cellsOf (quoted : Bool) (value : Word) : List Cell :=
  if quoted then .mark :: value.map fun c => .char c .quoted
  else .border :: value.map fun c => .char c .value

/-- The cells of parameters, each of which begins a field. -/
def cellsOfAll (quoted : Bool) (params : List Word) : List Cell :=
  ((params.map (cellsOf quoted)).intersperse [.cut quoted]).flatten

/-- A cell of a word that stands in place of a value: what is not quoted in it may be split. -/
def Cell.asValue : Cell → Cell
  | char c .plain => .char c .value
  | cell => cell

/-- Whether a character is a blank that may separate fields. -/
def isFieldBlank (c : Char) : Bool :=
  c = ' ' || c = '\t' || c = '\n'

/-- What comes of a field that is begun when a cell is read: the field, if the cell ends it, the
field that is begun then, and whether a blank has just ended one, so that another separator belongs
to the same break. -/
def Cell.after (separators : Word) (begun : Option (List Marked)) (behindBlank : Bool)
    (cell : Cell) :
    Option (List Marked) × Option (List Marked) × Bool :=
  let add := fun (c : Char) (quoted : Bool) =>
    (none, some ((c, quoted) :: begun.getD []), false)
  let blank := (begun, none, begun.isSome || behindBlank)
  match cell with
  | .border => (none, begun, false)
  | .mark => (none, some (begun.getD []), false)
  | .cut true => (some (begun.getD []), none, false)
  | .cut false => blank
  | .char c .plain => add c false
  | .char c .quoted => add c true
  | .char c .value =>
    if !separators.contains c then add c false
    else if isFieldBlank c then blank
    else if begun.isNone && behindBlank then (none, none, false)
    else (some (begun.getD []), none, false)

/-- The fields that cells make, behind a field that is begun, whose last character comes first. -/
def fieldsFrom (separators : Word) : Option (List Marked) → Bool → List Cell → List (List Marked)
  | begun, _, [] => (begun.map List.reverse).toList
  | begun, behindBlank, cell :: cells =>
    match cell.after separators begun behindBlank with
    | (none, begun, behindBlank) => fieldsFrom separators begun behindBlank cells
    | (some field, begun, behindBlank) =>
      field.reverse :: fieldsFrom separators begun behindBlank cells

/-- The fields that cells make. -/
def fieldsOf (separators : Word) (cells : List Cell) : List (List Marked) :=
  fieldsFrom separators none false cells

/-- The characters of cells as one text, each with whether it is quoted. -/
def markedOf (cells : List Cell) : List Marked :=
  cells.filterMap fun cell =>
    match cell with
    | .char c origin => some (c, origin = .quoted)
    | .cut _ => some (' ', true)
    | _ => none

/-- The characters of cells as one text. -/
def textOf (cells : List Cell) : Word :=
  (markedOf cells).map Prod.fst

/-! ## Lines that are read -/

/-- The characters of a line without the backslashes in it: what stands behind one is quoted, and a
line end there holds two lines together. -/
def unshielded : Word → List Marked
  | '\\' :: '\n' :: cs => unshielded cs
  | '\\' :: c :: cs => (c, true) :: unshielded cs
  | c :: cs => if c = '\\' && cs = [] then [] else (c, false) :: unshielded cs
  | [] => []

/-- How many characters of the last field of a line are kept. One break at its end is dropped:
blanks, with at most one other separator among them. -/
def keptOf (isSeparator : Marked → Bool) (text : List Marked) : Nat :=
  -- the place, where the break begins, whether there was a break, and whether it may go on
  let step := fun (state : Nat × Option Nat × Bool × Bool) (c : Marked) =>
    let (place, cut, broken, mayGoOn) := state
    let blank := isSeparator c && isFieldBlank c.1
    if !broken then
      if isSeparator c then (place + 1, some place, true, blank)
      else (place + 1, none, false, false)
    else if blank then (place + 1, some (cut.getD place), true, mayGoOn)
    else if isSeparator c && mayGoOn then (place + 1, cut, true, false)
    else (place + 1, none, true, false)
  let (_, cut, _, _) := text.foldl step (0, none, false, false)
  cut.getD text.length

/-- Splits a line into so many fields; the last one takes all that is left. -/
def splitLine (separators : Word) : Nat → List Marked → List Word
  | 0, _ => []
  | count + 1, text =>
    let isSeparator := fun (c : Marked) => !c.2 && separators.contains c.1
    let isBlank := fun (c : Marked) => isSeparator c && isFieldBlank c.1
    let text := text.dropWhile isBlank
    if count = 0 then [(text.take (keptOf isSeparator text)).map Prod.fst]
    else
      let field := text.takeWhile fun c => !isSeparator c
      let behind := (text.drop field.length).dropWhile isBlank
      let behind := match behind with
        | c :: rest => if isSeparator c then rest else behind
        | [] => []
      field.map Prod.fst :: splitLine separators count behind

end ArtifactSync.Process
