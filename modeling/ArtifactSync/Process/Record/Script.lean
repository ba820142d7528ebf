import ArtifactSync.Process.Record.Value
import ArtifactSync.Process.Regular

/-!
# Record scripts

A record script tells what is done with the records of its input: it is a row of rules, each with
the records it is for, and of functions. A record is a text that is made of fields.
-/

namespace ArtifactSync.Process.Record

/-- What is done with two numbers. -/
inductive Operator where
  | plus
  | minus
  | times
  | divided
  | modulo
  | power
  deriving DecidableEq, Repr

/-- The functions that every script knows. -/
inductive Known where
  | length
  | substr
  | index
  | split
  | replace (everywhere : Bool)
  | find
  | format
  | lower
  | upper
  | sine
  | cosine
  | arcTangent
  | exponential
  | logarithm
  | root
  | whole
  | random
  | seed
  | system
  | close
  | flush
  deriving DecidableEq, Repr

/-- An expression. Names, items of tables and fields are the ones that can be given a value. -/
inductive Expr where
  | number (n : Float)
  | text (w : Word)
  /-- A pattern that is looked for in the record, or in a text if it stands behind one. -/
  | pattern (r : Regular)
  | name (name : Word)
  | item (table : Word) (keys : List Expr)
  | field (index : Expr)
  | assign (target value : Expr)
  | change (operator : Operator) (target value : Expr)
  /-- Adds a number to a target; the value is that before or after it. -/
  | step (target : Expr) (amount : Float) (before : Bool)
  | negation (e : Expr)
  | minus (e : Expr)
  | plus (e : Expr)
  | arithmetic (operator : Operator) (first second : Expr)
  | compare (comparison : Comparison) (first second : Expr)
  | joined (first second : Expr)
  | both (first second : Expr)
  | either (first second : Expr)
  | choice (condition first second : Expr)
  | holds (negated : Bool) (text pattern : Expr)
  | isIn (keys : List Expr) (table : Word)
  | call (function : Word) (args : List Expr)
  | known (function : Known) (args : List Expr)
  /-- Reads a record of the input. -/
  | readRecord (target : Option Expr)
  /-- Reads a record of a file, or of what a command prints. -/
  | readFrom (isCommand : Bool) (source : Expr) (target : Option Expr)
  /-- Several values that stand between parentheses. -/
  | several (values : List Expr)

/-- Where a script prints to besides its output. -/
inductive Outlet where
  | file (adds : Bool)
  | command
  deriving DecidableEq, Repr

/-- A statement. -/
inductive Statement where
  | evaluate (e : Expr)
  | print (values : List Expr) (outlet : Option (Outlet × Expr))
  | printFormat (values : List Expr) (outlet : Option (Outlet × Expr))
  | block (statements : List Statement)
  | ifThen (condition : Expr) (first : Statement) (second : Option Statement)
  | loop (condition : Expr) (body : Statement)
  | loopOnce (body : Statement) (condition : Expr)
  | count (start : Statement) (condition : Option Expr) (step body : Statement)
  | forEach (name : Word) (table : Word) (body : Statement)
  | erase (table : Word) (keys : List Expr)
  | clear (table : Word)
  | «break»
  | «continue»
  | next
  | nextFile
  | exit (code : Option Expr)
  | «return» (value : Option Expr)

/-- The records that a rule is for. -/
inductive Occasion where
  | start
  | finish
  | always
  | when (condition : Expr)
  | range (first last : Expr)

/-- A rule: what is done, and with which records. -/
structure Rule where
  occasion : Occasion
  action : Statement

/-- A function of a script. -/
structure Function where
  name : Word
  params : List Word
  body : Statement

/-- A script: its rules and its functions. -/
structure Script where
  rules : List Rule
  functions : List Function

/-- Whether something can be given a value. -/
def Expr.isTarget : Expr → Bool
  | name _ => true
  | item _ _ => true
  | field _ => true
  | _ => false

end ArtifactSync.Process.Record
