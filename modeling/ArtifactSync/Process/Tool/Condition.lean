import ArtifactSync.Process.Input

/-!
# Conditions

A condition asks about files, texts and numbers: `-f x`, `a = b`, `1 -lt 2`, and what signs make of
several such questions. There are two readers of conditions. The tool goes by how many words there
are; a shell reads as far as it can, and then complains about what is left over.
-/

namespace ArtifactSync.Process

/-- What a reader of conditions gives, or its complaint. -/
abbrev Asked (α : Type) := Except String α

/-! ## Questions -/

/-- The letters of questions about one word. -/
def questionLetters : List Char := "rwxefdcbpugkstznhLOGS".toList

/-- The letter of the question that a word asks about the next one. -/
def questionOf? : Word → Option Char
  | ['-', letter] => if questionLetters.contains letter then some letter else none
  | _ => none

/-- The signs of questions about two words. -/
def comparisons : List String :=
  ["=", "!=", "<", ">", "-eq", "-ne", "-ge", "-gt", "-le", "-lt", "-nt", "-ot", "-ef"]

/-- Whether a word asks about the words at its sides. -/
def isComparison (w : Word) : Bool :=
  comparisons.any fun sign => sign.toList = w

/-- Whether a word names a device. -/
def isDevice (w : Word) : Bool :=
  ["/dev/null", "/dev/zero", "/dev/stdin", "/dev/stdout", "/dev/stderr"].any fun d => d.toList = w

/-- Whether the answer to a question about a file is yes. -/
def asksFile (d : Disk) (letter : Char) (w : Word) : Bool :=
  if isDevice w then "rwecOG".toList.contains letter
  else if letter = 'h' || letter = 'L' then
    match d.resolve (Word.path w) false with
    | .ok (.node _ (.link _)) => true
    | _ => false
  else match d.stat (Word.path w) with
    | .error _ => false
    | .ok node =>
      match letter with
      | 'f' => node.isFile
      | 'd' => node.isDir
      | 'r' => node.mayRead
      | 'w' => node.mayWrite
      | 'x' => node.mayEnter
      | 'u' => node.mode &&& 0o4000 ≠ 0
      | 'g' => node.mode &&& 0o2000 ≠ 0
      | 'k' => node.mode &&& 0o1000 ≠ 0
      | 's' => match node with
        | .file bytes _ => !bytes.isEmpty
        | _ => true
      | letter => "eOG".toList.contains letter

/-- The number that a word spells, with blanks around it. -/
def wholeOf? (w : Word) : Option Int :=
  let text := Word.trim w
  let digits := if text.head? = some '-' || text.head? = some '+' then text.drop 1 else text
  if digits = [] || !digits.all Char.isDigit then none
  else
    let n : Int := numberIn 10 digits
    some (if text.head? = some '-' then -n else n)

/-- The answer to a question about two words; how the complaint about a word that is no number looks
is up to the reader. -/
def compareWords (d : Disk) (number : Word → Asked Int) (sign a b : Word) : Asked Bool :=
  let numbers := fun (holds : Int → Int → Bool) =>
    (number a).bind fun x => (number b).map fun y => holds x y
  match String.ofList sign with
  | "=" => .ok (a = b)
  | "==" => .ok (a = b)
  | "!=" => .ok (a ≠ b)
  | "<" => .ok (!Word.comesNoLater b a)
  | ">" => .ok (!Word.comesNoLater a b)
  | "-eq" => numbers fun x y => x = y
  | "-ne" => numbers fun x y => x ≠ y
  | "-ge" => numbers fun x y => y ≤ x
  | "-gt" => numbers fun x y => y < x
  | "-le" => numbers fun x y => x ≤ y
  | "-lt" => numbers fun x y => x < y
  | "-nt" => .ok (d.exists (Word.path a) && !d.exists (Word.path b))
  | "-ot" => .ok (!d.exists (Word.path a) && d.exists (Word.path b))
  | "-ef" => .ok (match d.canonicalize (Word.path a), d.canonicalize (Word.path b) with
    | .ok p, .ok q => p.chars = q.chars
    | _, _ => false)
  | _ => .ok false

/-- The answer to a question about one word. No stream is a terminal. -/
def askWord (d : Disk) (number : Word → Asked Int) (letter : Char) (w : Word) : Asked Bool :=
  match letter with
  | 'z' => .ok w.isEmpty
  | 'n' => .ok (!w.isEmpty)
  | 't' => (number w).map fun _ => false
  | letter => .ok (asksFile d letter w)

/-! ## A shell's reader -/

/-- What a word means in a condition. -/
inductive Mark where
  | question (letter : Char)
  | comparison
  | not
  | and
  | or
  | opening
  | closing
  deriving DecidableEq, Repr

/-- What a word may mean in a condition, wherever it stands. -/
def markOf? (w : Word) : Option Mark :=
  if isComparison w then some .comparison
  else match questionOf? w, String.ofList w with
    | some letter, _ => some (.question letter)
    | none, "!" => some .not
    | none, "-a" => some .and
    | none, "-o" => some .or
    | none, "(" => some .opening
    | none, ")" => some .closing
    | none, _ => none

/-- What the first of some words means to a shell. A question that nothing follows, or a comparison
with something behind it, and an opening that nothing follows are words like any other. -/
def markAt? : List Word → Option Mark
  | [] => none
  | w :: rest =>
    match markOf? w with
    | some (.question letter) =>
      match rest with
      | [] => none
      | [_] => some (.question letter)
      | next :: _ => if isComparison next then none else some (.question letter)
    | some .opening => if rest = [] then none else some .opening
    | mark => mark

/-- The number that a word spells for a shell, within 64 bits. -/
def shellNumber (w : Word) : Asked Int :=
  match wholeOf? w with
  | some n =>
    let bound : Int := Nat.pow 2 63
    if -bound ≤ n && n < bound then .ok n else .error s!"Illegal number: {String.ofList w}"
  | none => .error s!"Illegal number: {String.ofList w}"

/-- An answer with the last word that was looked at and all behind it. -/
abbrev Answered := Asked (Bool × List Word)

mutual

/-- Whether one of some conditions holds. -/
def askAny (d : Disk) : Nat → Option Mark → List Word → Answered
  | 0, _, ws => .ok (false, ws)
  | depth + 1, mark, ws =>
    (askAll d depth mark ws).bind fun (holds, ws) =>
      if markAt? (ws.drop 1) = some .or then
        (askAny d depth (markAt? (ws.drop 2)) (ws.drop 2)).map fun (other, ws) =>
          (holds || other, ws)
      else .ok (holds, ws)

/-- Whether all of some conditions hold. -/
def askAll (d : Disk) : Nat → Option Mark → List Word → Answered
  | 0, _, ws => .ok (false, ws)
  | depth + 1, mark, ws =>
    (askOne d depth mark ws).bind fun (holds, ws) =>
      if markAt? (ws.drop 1) = some .and then
        (askAll d depth (markAt? (ws.drop 2)) (ws.drop 2)).map fun (other, ws) =>
          (holds && other, ws)
      else .ok (holds, ws)

/-- Whether a condition without signs between its parts holds. -/
def askOne (d : Disk) : Nat → Option Mark → List Word → Answered
  | 0, _, ws => .ok (false, ws)
  | depth + 1, mark, ws =>
    match mark, ws with
    | _, [] => .ok (false, [])
    | some .not, [w] => .ok (true, [w])
    | some .not, _ :: ws => (askOne d depth (markAt? ws) ws).map fun (holds, ws) => (!holds, ws)
    | some .opening, _ :: ws =>
      if markAt? ws = some .closing then .ok (false, ws)
      else (askAny d depth (markAt? ws) ws).bind fun (holds, ws) =>
        if markAt? (ws.drop 1) = some .closing then .ok (holds, ws.drop 1)
        else .error "closing paren expected"
    | some (.question letter), _ :: w :: ws =>
      (askWord d shellNumber letter w).map fun holds => (holds, w :: ws)
    | _, a :: ws =>
      if markAt? ws = some .comparison then
        match ws with
        | sign :: b :: ws =>
          (compareWords d shellNumber sign a b).map fun holds => (holds, b :: ws)
        | _ => .error s!"{String.ofList (ws.headD [])}: argument expected"
      else .ok (!a.isEmpty, a :: ws)

end

/-- Whether a condition holds for a shell, which reads words as far as it can. The first word of
what is left over is what it complains about. -/
def askFrom (d : Disk) (mark : Option Mark) (ws : List Word) : Asked Bool :=
  (askAny d (4 * ws.length + 4) mark ws).bind fun (holds, left) =>
    match left with
    | w :: _ :: _ => .error s!"{String.ofList w}: unexpected operator"
    | _ => .ok holds

/-- Whether a condition holds for a shell. -/
def askShell (d : Disk) : List Word → Asked Bool
  | [] => .ok false
  | first :: rest =>
    let few := rest.length = 2 || rest.length = 3
    if rest.length = 2 && isComparison (rest.headD []) then askFrom d none (first :: rest)
    else if few && first = ['('] && rest.getLast? = some [')'] then
      askFrom d (markAt? rest.dropLast) rest.dropLast
    else if few && first = ['!'] then (askShell d rest).map (!·)
    else askFrom d (markAt? (first :: rest)) (first :: rest)

/-- The words of a condition; the one that begins with a bracket ends with one. -/
def insideBrackets? (name : Word) (args : List Word) : Option (List Word) :=
  if name.getLast? ≠ some '[' then some args
  else if args.getLast? = some [']'] then some args.dropLast
  else none

/-! ## The reader that counts words -/

/-- The number that a word spells for a tool. -/
def toolNumber (w : Word) : Asked Int :=
  match wholeOf? w with
  | some n => .ok n
  | none => .error s!"invalid integer {plainQuoted w}"

/-- Whether a word asks a tool about the words at its sides. -/
def comparesTool (w : Word) : Bool :=
  w = ['=', '='] || (isComparison w && w ≠ ['<'] && w ≠ ['>'])

/-- The question that a word looks like, known or not. -/
def looksLikeQuestion (w : Word) : Bool :=
  w.length = 2 && w.head? = some '-'

/-- The complaint about a condition that ends too early, of which this is the last word. -/
def missingBehind (last : Word) : Answered :=
  .error s!"missing argument after {plainQuoted last}"

/-- The answer to the question that a word asks a tool about the next one. -/
def askOfTool (d : Disk) (last : Word) : List Word → Answered
  | w :: rest =>
    if w ≠ ['-', 'N'] && (questionOf? w).isNone then
      .error s!"{plainQuoted w}: unary operator expected"
    else match rest with
      | [] => missingBehind last
      | x :: rest =>
        (askWord d toolNumber ((w[1]?).getD 'e') x).map fun holds => (holds, rest)
  | [] => missingBehind last

/-- The answer for one word. -/
def askSingle : List Word → Answered
  | w :: rest => .ok (!w.isEmpty, rest)
  | [] => .ok (false, [])

/-- The answer for two words. -/
def askPair (d : Disk) (last : Word) (ws : List Word) : Answered :=
  match ws with
  | ['!'] :: rest => (askSingle rest).map fun (holds, ws) => (!holds, ws)
  | w :: _ => if looksLikeQuestion w then askOfTool d last ws else missingBehind last
  | [] => missingBehind last

/-- The answer to a comparison that stands between its words. -/
def askBetween (d : Disk) : List Word → Answered
  | a :: sign :: b :: rest =>
    (compareWords d toolNumber sign a b).map fun holds => (holds, rest)
  | _ => .ok (false, [])

mutual

/-- The answer for so many of some words. -/
def askCounted (d : Disk) (last : Word) : Nat → Nat → List Word → Answered
  | 0, _, ws => .ok (false, ws)
  | depth + 1, count, ws =>
    let inside := fun (inner : Answered) => inner.map fun (holds, ws) => (holds, ws.drop 1)
    let closes := fun (n : Nat) => ws[n]? = some [')']
    match count, ws with
    | 1, ws => askSingle ws
    | 2, ws => askPair d last ws
    | 3, ws => askThree d last depth ws
    | 4, ['!'] :: rest => (askThree d last depth rest).map fun (holds, ws) => (!holds, ws)
    | 4, ['('] :: rest =>
      if closes 3 then inside (askPair d last rest) else askEither d last depth ws
    | _, ws => askEither d last depth ws

/-- The answer for three words. -/
def askThree (d : Disk) (last : Word) : Nat → List Word → Answered
  | 0, ws => .ok (false, ws)
  | depth + 1, ws =>
    let middle := (ws[1]?).getD []
    if comparesTool middle then askBetween d ws
    else if ws.head? = some ['!'] then
      (askPair d last (ws.drop 1)).map fun (holds, ws) => (!holds, ws)
    else if ws.head? = some ['('] && ws[2]? = some [')'] then
      (askSingle (ws.drop 1)).map fun (holds, ws) => (holds, ws.drop 1)
    else if middle = ['-', 'a'] || middle = ['-', 'o'] then askEither d last depth ws
    else .error s!"{plainQuoted middle}: binary operator expected"

/-- Whether one of some conditions holds. -/
def askEither (d : Disk) (last : Word) : Nat → List Word → Answered
  | 0, ws => .ok (false, ws)
  | depth + 1, ws =>
    (askBoth d last depth ws).bind fun (holds, ws) =>
      match ws with
      | ['-', 'o'] :: rest =>
        (askEither d last depth rest).map fun (other, ws) => (holds || other, ws)
      | ws => .ok (holds, ws)

/-- Whether all of some conditions hold. -/
def askBoth (d : Disk) (last : Word) : Nat → List Word → Answered
  | 0, ws => .ok (false, ws)
  | depth + 1, ws =>
    (askTerm d last depth ws).bind fun (holds, ws) =>
      match ws with
      | ['-', 'a'] :: rest =>
        (askBoth d last depth rest).map fun (other, ws) => (holds && other, ws)
      | ws => .ok (holds, ws)

/-- Whether a condition without signs between its parts holds. -/
def askTerm (d : Disk) (last : Word) : Nat → List Word → Answered
  | 0, ws => .ok (false, ws)
  | depth + 1, ws =>
    match ws with
    | [] => missingBehind last
    | ['!'] :: rest => (askTerm d last depth rest).map fun (holds, ws) => (!holds, ws)
    | ['('] :: [] => missingBehind last
    | ['('] :: rest =>
      -- what stands up to the closing word is counted, unless it is far away
      let near := ((rest.drop 1).takeWhile (· ≠ [')'])).length + 1
      let count := if near > 4 then rest.length else near
      (askCounted d last depth count rest).bind fun (holds, ws) =>
        match ws with
        | [')'] :: ws => .ok (holds, ws)
        | w :: _ => .error s!"')' expected, found {plainQuoted w}"
        | [] => .error "')' expected"
    | w :: rest =>
      if rest.length ≥ 2 && comparesTool (rest.headD []) then askBetween d ws
      else if looksLikeQuestion w then askOfTool d last ws
      else .ok (!w.isEmpty, rest)

end

/-- Whether a condition holds for a tool. -/
def askTool (d : Disk) (ws : List Word) : Asked Bool :=
  if ws.isEmpty then .ok false
  else (askCounted d (ws.getLastD []) (8 * ws.length + 8) ws.length ws).bind fun (holds, left) =>
    match left with
    | w :: _ => .error s!"extra argument {plainQuoted w}"
    | [] => .ok holds

/-- Ends well if a condition holds. -/
def test (c : Call) : Ran :=
  match insideBrackets? c.name c.args with
  | none => c.complains "missing ']'" 2
  | some words =>
    match askTool c.disk words with
    | .ok holds => { c.prints [] (if holds then 0 else 1) with rest := c.input }
    | .error message => c.complains message 2

end ArtifactSync.Process
