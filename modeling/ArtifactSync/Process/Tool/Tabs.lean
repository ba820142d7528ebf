import ArtifactSync.Process.Input

/-!
# Tabs and blanks

The tools that write blanks for tabs, and tabs for blanks. A tab leads to the next stop; the stops
are a number of columns apart, or given one by one.
-/

namespace ArtifactSync.Process

/-- Where tabs lead to. -/
inductive TabStops where
  | every (columns : Nat)
  | places (stops : List Nat)
  deriving DecidableEq, Repr

namespace TabStops

/-- The next stop behind a column, if there is one. -/
def next? : TabStops → Nat → Option Nat
  | every n, column => some ((column / n + 1) * n)
  | places stops, column => stops.find? (column < ·)

/-- The stops that a text lists, or what is wrong with them. -/
def read (w : Word) : Except String TabStops :=
  let parts := (Word.pieces (fun c => c = ',' || Word.isBlank c) w).filter fun p => p ≠ []
  let stops := parts.map countOf
  match parts.find? fun p => !isNumber p with
  | some part =>
    let rest := part.dropWhile Char.isDigit
    .error s!"tab size contains invalid character(s): {plainQuoted rest}"
  | none =>
    if stops.contains 0 then .error "tab size cannot be 0"
    else match stops with
      | [] => .ok (.every 8)
      | [n] => .ok (.every n)
      | stops =>
        if (stops.zip (stops.drop 1)).all fun p => p.1 < p.2 then .ok (.places stops)
        else .error "tab sizes must be ascending"

/-- A line with blanks for its tabs, from a column on. Only tabs at the start may be replaced, as
long as nothing but blanks stands in front. -/
def expanded (stops : TabStops) (onlyFirst : Bool) : Nat → List UInt8 → List UInt8
  | _, [] => []
  | column, b :: bs =>
    if b = 9 then
      let next := (stops.next? column).getD (column + 1)
      List.replicate (next - column) 32 ++ expanded stops onlyFirst next bs
    else if onlyFirst && b ≠ 32 then b :: bs
    else b :: expanded stops onlyFirst (column + 1) bs

/-- A line with tabs for its blanks, from a column on. Blanks wait to see whether they reach a stop:
a single one right in front of a stop stays a blank unless another one follows, and `alone` tells
whether one waits there. `behindBlank` tells whether a blank or the start of the line is in front.
-/
def compressed (stops : TabStops) (onlyFirst : Bool) :
    Nat → List UInt8 → Bool → Bool → List UInt8 → List UInt8
  | _, waiting, _, _, [] => waiting
  | column, waiting, alone, behindBlank, b :: bs =>
    let held := if alone && 1 < waiting.length then 9 :: waiting.drop 1 else waiting
    let tab := fun (next : Nat) =>
      (if alone then [9] else []) ++ 9 :: compressed stops onlyFirst next [] false true bs
    if b ≠ 32 && b ≠ 9 then
      held ++ b :: (if onlyFirst then bs
        else compressed stops onlyFirst (column + 1) [] false false bs)
    else match stops.next? column with
      | none => held ++ b :: bs
      | some next =>
        if b = 9 || (behindBlank && column + 1 = next) then tab next
        else
          let alone := alone || column + 1 = next
          compressed stops onlyFirst (column + 1) (waiting ++ [b]) alone true bs

end TabStops

/-- Words in which a number behind a hyphen is the value of an option. -/
def withTabOption (args : List Word) : List Word :=
  args.map fun w =>
    match w with
    | '-' :: d :: rest => if d.isDigit then '-' :: 't' :: d :: rest else w
    | w => w

/-- Changes the lines of files with regard to stops. -/
def tabTool (flags : String) (long : List (String × Char))
    (change : Options → TabStops → List UInt8 → List UInt8) (c : Call) : Ran :=
  { c with args := withTabOption c.args }.withOptions ⟨flags, "t", long, true⟩ 1 fun o =>
    match TabStops.read ((o.value? 't').getD []) with
    | .error message => c.complains message 1
    | .ok stops =>
      printEach c plainComplaint 1 (fun bytes => (byteLines bytes).flatMap (change o stops)) o.words

/-- Writes blanks for tabs. -/
def tabsToBlanks : Call → Ran :=
  tabTool "i" [("initial", 'i'), ("tabs", 't')] fun o stops line =>
    stops.expanded (o.has 'i') 0 line

/-- Writes tabs for blanks. -/
def blanksToTabs : Call → Ran :=
  tabTool "af" [("all", 'a'), ("first-only", 'f'), ("tabs", 't')] fun o stops line =>
    let everywhere := (o.has 'a' || o.has 't') && !o.has 'f'
    stops.compressed (!everywhere) 0 [] false true line

end ArtifactSync.Process
