import ArtifactSync.Process.Octets

/-!
# The words of a shell script

A word is made of pieces: text as it is, values of parameters, what a script prints and sums. Quotes
hold pieces together that would be split and keep wildcards from being used; each piece carries
whether it was quoted, and the shell decides later what to do with it.

What stands between braces or parentheses behind a dollar sign may hold quotes and further
expansions. `closingOf` finds where it ends: it goes over the text with a stack of what is open.
-/

namespace ArtifactSync.Process

/-- What happens if a parameter has no value. -/
inductive Missing where
  /-- A word stands in its place. -/
  | replace
  /-- A word becomes its value. -/
  | assign
  /-- A word is the complaint with which the script ends. -/
  | complain
  /-- Nothing; but if it has a value, a word stands in its place. -/
  | keep
  deriving DecidableEq, Repr

/-- What is done with the value of a parameter. -/
inductive Handling where
  | plain
  /-- Its length is taken. -/
  | length
  /-- What happens if it is missing, and whether an empty value counts as missing. -/
  | missing (how : Missing) (orEmpty : Bool) (word : List Char)
  /-- The part of it that a pattern matches is cut off, at its end or at its start. -/
  | trim (atEnd longest : Bool) (pattern : List Char)
  /-- Something that no shell knows. -/
  | unknown
  deriving DecidableEq, Repr

/-- A piece of a word. -/
inductive Piece where
  /-- Characters that stand for themselves. -/
  | text (text : List Char) (quoted : Bool)
  /-- The value of a parameter. -/
  | value (name : List Char) (handling : Handling) (quoted : Bool)
  /-- What a script prints, which begins on a line. Between backquotes it ends where it cannot go
  on. -/
  | output (script : List Char) (backquoted : Bool) (line : Nat) (quoted : Bool)
  /-- The value of a sum. -/
  | sum (text : List Char) (quoted : Bool)
  deriving DecidableEq, Repr

/-- A piece as it is between quotes. -/
def Piece.inQuotes : Piece → Piece
  | text t _ => .text t true
  | value name handling _ => .value name handling true
  | output script backquoted line _ => .output script backquoted line true
  | sum t _ => .sum t true

/-- What is open where a script ends too early. -/
inductive Unclosed where
  | quote
  | brace
  | parenthesis
  | sum
  | backquote
  deriving DecidableEq, Repr

/-! ## Classes of characters -/

/-- Whether a character may begin the name of a variable. -/
def isNameStart (c : Char) : Bool :=
  c.isAlpha || c == '_'

/-- Whether a character may stand in the name of a variable. -/
def isNameChar (c : Char) : Bool :=
  c.isAlphanum || c == '_'

/-- Whether a text is the name of a variable. -/
def isName (cs : List Char) : Bool :=
  cs.head?.any isNameStart && cs.all isNameChar

/-- Whether a character is a backquote. -/
def isBackquote (c : Char) : Bool :=
  c.toNat == 96

/-- Whether a character alone is the name of a parameter. -/
def isSign (c : Char) : Bool :=
  "@*#?$!-".toList.contains c

/-- Whether a character ends a word that is not quoted. -/
def endsWord (c : Char) : Bool :=
  " \t\n;&|<>()".toList.contains c

/-! ## Where an expansion ends -/

/-- What is open at a place in a text. -/
inductive Opened where
  | single
  | double
  | backquote
  /-- A brace behind a dollar sign, and whether single quotes stand for themselves in it. -/
  | brace (literal : Bool)
  /-- A parenthesis, and how many choices are open in it: their patterns end in parentheses that
  close nothing. -/
  | parenthesis (choices : Nat)
  /-- Two parentheses, and those that are open in them. -/
  | sum (depth : Nat)
  /-- A comment inside parentheses. -/
  | comment
  deriving DecidableEq, Repr

/-- The complaint about a text that ends while something is open. -/
def Opened.unclosed : Opened → Unclosed
  | single => .quote
  | double => .quote
  | backquote => .backquote
  | brace literal => if literal then .quote else .brace
  | parenthesis _ => .parenthesis
  | sum _ => .sum
  | comment => .parenthesis

/-- Whether a word stands at the start of a text. -/
def startsWithWord (word : List Char) (cs : List Char) : Bool :=
  word.isPrefixOf cs && ((cs.drop word.length).head?).all endsWord

/-- Whether what stands between braces is a pattern, in which quotes have their meaning even if the
whole is quoted. -/
def holdsPattern (inside : List Char) : Bool :=
  let behind := match inside with
    | '#' :: rest => rest
    | _ =>
      let name := inside.takeWhile isNameChar
      inside.drop (if name = [] then 1 else name.length)
  behind.head? = some '%' || behind.head? = some '#'

/-- What the signs at the start of a text open, and how many characters they are. -/
def opening? (quoted : Bool) : List Char → Option (Opened × Nat)
  | '$' :: '(' :: '(' :: _ => some (.sum 0, 3)
  | '$' :: '(' :: _ => some (.parenthesis 0, 2)
  | '$' :: '\x7b' :: inside => some (.brace (quoted && !holdsPattern inside), 2)
  | _ => none

/-- What is open behind a character, how many characters behind it are already understood, and
whether a word may begin there. -/
abbrev Move := List Opened × Nat × Bool

/-- What a character does inside what is open, the innermost of which is apart from the others. -/
def moveAt (top : Opened) (below : List Opened) (fresh : Bool) (c : Char) (cs : List Char) :
    Except Unclosed Move :=
  let stack := top :: below
  let stay : Move := (stack, 0, endsWord c)
  let opens := fun (opened : Opened) (length : Nat) => (opened :: stack, length - 1, true)
  -- what backslashes, backquotes and dollar signs do
  let shared? := fun (quoted : Bool) =>
    if c = '\\' then some (stack, 1, false)
    else if isBackquote c then some (.backquote :: stack, 0, false)
    else (opening? quoted (c :: cs)).map fun (opened, length) => opens opened length
  match top with
  | .single => .ok (if c = '\'' then (below, 0, false) else stay)
  | .backquote =>
    .ok (if c = '\\' then (stack, 1, false) else if isBackquote c then (below, 0, false) else stay)
  | .comment => .ok (if c = '\n' then (below, 0, true) else stay)
  | .double =>
    .ok ((shared? true).getD (if c = '"' then (below, 0, false) else stay))
  | .brace literal =>
    .ok ((shared? literal).getD
      (if c = '"' then (.double :: stack, 0, false)
      else if c = '\'' && !literal then (.single :: stack, 0, false)
      else if c = '\x7d' then (below, 0, false)
      else stay))
  | .sum depth =>
    match shared? true with
    | some move => .ok move
    | none =>
      if c = '(' then .ok (.sum (depth + 1) :: below, 0, true)
      else if c ≠ ')' then .ok stay
      else if depth > 0 then .ok (.sum (depth - 1) :: below, 0, true)
      else if cs.head? = some ')' then .ok (below, 1, false)
      else .error .sum
  | .parenthesis choices =>
    .ok ((shared? false).getD
      (if c = '"' then (.double :: stack, 0, false)
      else if c = '\'' then (.single :: stack, 0, false)
      else if c = '#' && fresh then (.comment :: stack, 0, true)
      else if c = '(' && choices = 0 then (.parenthesis 0 :: stack, 0, true)
      else if c = ')' then (if choices = 0 then (below, 0, false) else stay)
      else if fresh && startsWithWord "case".toList (c :: cs) then
        (.parenthesis (choices + 1) :: below, 0, false)
      else if fresh && startsWithWord "esac".toList (c :: cs) then
        (.parenthesis (choices - 1) :: below, 0, false)
      else stay))

/-- How many characters of a text there are up to what closes the outermost of the things that are
open, with that; or what is left open. The first `skip` characters are already understood, and
`fresh` tells whether a word may begin here. -/
def closingOf : List Opened → Nat → Bool → List Char → Except Unclosed Nat
  | stack, skip + 1, fresh, _ :: cs => (closingOf stack skip fresh cs).map (· + 1)
  | [], _, _, _ => .ok 0
  | top :: _, _, _, [] => .error top.unclosed
  | top :: below, 0, fresh, c :: cs =>
    match moveAt top below fresh c cs with
    | .error e => .error e
    | .ok (stack, skip, fresh) => (closingOf stack skip fresh cs).map (· + 1)

/-! ## Expansions -/

/-- What the signs behind the name of a parameter ask for. -/
def handlingOf (cs : List Char) : Handling :=
  let orEmpty := cs.head? = some ':'
  match (if orEmpty then cs.drop 1 else cs) with
  | [] => .plain
  | '-' :: word => .missing .replace orEmpty word
  | '=' :: word => .missing .assign orEmpty word
  | '?' :: word => .missing .complain orEmpty word
  | '+' :: word => .missing .keep orEmpty word
  | sign :: rest =>
    if orEmpty || (sign ≠ '%' && sign ≠ '#') then .unknown
    else if rest.head? = some sign then .trim (sign = '%') true (rest.drop 1)
    else .trim (sign = '%') false rest

/-- The name at the start of a text: that of a variable, a number or a single sign. -/
def leadingName (cs : List Char) : List Char :=
  match cs with
  | [] => []
  | c :: _ =>
    if isNameStart c then cs.takeWhile isNameChar
    else if c.isDigit then cs.takeWhile Char.isDigit
    else if isSign c then [c]
    else []

/-- What stands between braces behind a dollar sign. -/
def braced (inside : List Char) (quoted : Bool) : Piece :=
  let plain := fun (cs : List Char) =>
    let name := leadingName cs
    if name = [] then Piece.value [] .unknown quoted
    else .value name (handlingOf (cs.drop name.length)) quoted
  match inside with
  | '#' :: c :: rest =>
    let name := leadingName (c :: rest)
    if isNameChar c || rest = [] then
      if name = c :: rest then .value name .length quoted else .value [] .unknown quoted
    else plain inside
  | _ => plain inside

/-- The expansion behind a dollar sign, and how many characters it takes. -/
def expansion (quoted : Bool) (line : Nat) (cs : List Char) : Except Unclosed (Piece × Nat) :=
  match cs with
  | [] => .ok (.text ['$'] quoted, 0)
  | '(' :: '(' :: rest =>
    (closingOf [.sum 0] 0 true rest).map fun n => (.sum (rest.take (n - 2)) quoted, n + 2)
  | c :: rest =>
    if c = '(' then
      (closingOf [.parenthesis 0] 0 true rest).map fun n =>
        (.output (rest.take (n - 1)) false line quoted, n + 1)
    else if c = '\x7b' then
      (closingOf [.brace (quoted && !holdsPattern rest)] 0 true rest).map fun n =>
        (braced (rest.take (n - 1)) quoted, n + 1)
    else if isNameStart c then
      let name := cs.takeWhile isNameChar
      .ok (.value name .plain quoted, name.length)
    else if c.isDigit || isSign c then .ok (.value [c] .plain quoted, 1)
    else .ok (.text ['$'] quoted, 0)

/-- A script between backquotes without the backslashes that hold signs in it. -/
def withoutShields (quoted : Bool) : List Char → List Char
  | '\\' :: d :: cs =>
    let shields := d = '\\' || d = '$' || isBackquote d || (quoted && d = '"')
    if shields then d :: withoutShields quoted cs else '\\' :: d :: withoutShields quoted cs
  | c :: cs => c :: withoutShields quoted cs
  | [] => []

/-- A script between backquotes, and how many characters it takes with the second of them. -/
def backquoted (quoted : Bool) (cs : List Char) : Except Unclosed (Piece × Nat) :=
  (closingOf [.backquote] 0 true cs).map fun n =>
    (.output (withoutShields quoted (cs.take (n - 1))) true 1 quoted, n)

/-! ## Reading words -/

/-- Puts a character in front of pieces. -/
def consChar (c : Char) (quoted : Bool) : List Piece → List Piece
  | .text text q :: rest => if q = quoted then .text (c :: text) q :: rest
    else .text [c] quoted :: .text text q :: rest
  | rest => .text [c] quoted :: rest

/-- How a word is quoted where reading stands. -/
inductive Quoting where
  | none
  | single
  | double
  /-- Between braces that are quoted themselves: quotation marks are dropped. -/
  | inner
  /-- In a document, where quotation marks stand for themselves. -/
  | document
  deriving DecidableEq, Repr

/-- Pieces with the number of characters they take, or what is not closed. -/
abbrev ReadPieces := Except Unclosed (List Piece × Nat)

/-- Adds to what is read behind one more character. -/
def ReadPieces.behind (add : List Piece → List Piece) (r : ReadPieces) : ReadPieces :=
  r.map fun (pieces, taken) => (add pieces, taken + 1)

/-- Whether a backslash takes away what a character means where reading stands. -/
def Quoting.shields (quoting : Quoting) (c : Char) : Bool :=
  match quoting with
  | none => true
  | single => false
  | double => "$\"\\".toList.contains c || isBackquote c
  | inner => "$\"\\\x7d".toList.contains c || isBackquote c
  | document => "$\\".toList.contains c || isBackquote c

/-- Reads a word: its pieces and how many characters it takes. A bounded word ends where another
token begins. The first `skip` characters are already understood. -/
def readWord (bounded : Bool) (quoting : Quoting) (line : Nat) : Nat → List Char → ReadPieces
  | skip + 1, c :: cs =>
    (readWord bounded quoting (if c = '\n' then line + 1 else line) skip cs).behind id
  | _, [] => if quoting = .single ∨ quoting = .double then .error .quote else .ok ([], 0)
  | 0, c :: cs =>
    let quoted := quoting ≠ .none
    let next := if c = '\n' then line + 1 else line
    if quoting = .single then
      if c = '\'' then (readWord bounded .none line 0 cs).behind id
      else (readWord bounded .single next 0 cs).behind (consChar c true)
    else if quoting = .none && bounded && endsWord c then .ok ([], 0)
    else if c = '"' && quoting ≠ .document then
      match quoting with
      | .none => (readWord bounded .double line 0 cs).behind (.text [] true :: ·)
      | .double => (readWord bounded .none line 0 cs).behind id
      | quoting => (readWord bounded quoting line 0 cs).behind id
    else if c = '\'' && !quoted then
      (readWord bounded .single line 0 cs).behind (.text [] true :: ·)
    else if c = '\\' then
      match cs.head? with
      | some '\n' => (readWord bounded quoting line 1 cs).behind id
      | some d =>
        if quoting.shields d then (readWord bounded quoting line 1 cs).behind (consChar d true)
        else (readWord bounded quoting line 0 cs).behind (consChar c true)
      | none => (readWord bounded quoting line 0 cs).behind (consChar c true)
    else if c = '$' || isBackquote c then
      match (if c = '$' then expansion quoted line cs else backquoted quoted cs) with
      | .error e => .error e
      | .ok (piece, taken) =>
        let add := fun (pieces : List Piece) =>
          match piece with
          | .text text q => text.foldr (fun c rest => consChar c q rest) pieces
          | piece => piece :: pieces
        (readWord bounded quoting line taken cs).behind add
    else (readWord bounded quoting next 0 cs).behind (consChar c quoted)

/-- The pieces of a text that is a word as a whole. -/
def piecesOfWord (quoted : Bool) (cs : List Char) : List Piece :=
  match readWord false (if quoted then .inner else .none) 1 0 cs with
  | .ok (pieces, _) => pieces
  | .error _ => [.text cs true]

/-- The pieces of the lines of a document in a script. -/
def piecesOfDocument (line : Nat) (cs : List Char) : Except Unclosed (List Piece) :=
  (readWord false .document line 0 cs).map Prod.fst

end ArtifactSync.Process
