import ArtifactSync.Process.Piece

/-!
# Shell scripts

A compiler command is often a line for the shell. This module reads such scripts: redirections,
pipelines, lists, conditions, loops and functions.

A shell runs each line before it reads the next, so a script is what its lines say up to the first
that cannot be understood, together with what is wrong with that line.
-/

namespace ArtifactSync.Process

/-- What a redirection does with a stream. -/
inductive Direction where
  | write
  /-- Writes even where files are to be kept. -/
  | overwrite
  | append
  | read
  /-- Goes where another stream goes. -/
  | like
  /-- Reads a text that the script itself holds. -/
  | document
  deriving DecidableEq, Repr

/-- A redirection: the number of the stream, and where it goes. -/
structure Redirect where
  stream : Nat
  direction : Direction
  target : List Piece
  deriving DecidableEq, Repr

/-! ## Problems -/

/-- What is wrong with a script. -/
inductive ScriptProblem where
  | unclosed (what : Unclosed) (line : Nat)
  /-- Something stands where it cannot; perhaps only one thing can. -/
  | unexpected (shown : String) (line : Nat) (wanted : Option String)
  | badLoopVariable (line : Nat)
  | badFunctionName (line : Nat)
  /-- What a stream is to go to is neither a number nor a hyphen. -/
  | badStream (line : Nat)
  deriving DecidableEq, Repr

/-- A text in quotation marks. -/
def inMarks (text : String) : String :=
  s!"\"{text}\""

/-- A problem with what could have stood there. -/
def ScriptProblem.wanting (wanted : String) : ScriptProblem → ScriptProblem
  | unexpected shown line _ => .unexpected shown line (some wanted)
  | other => other

/-- The text of a problem in a script. A label says how the script came to be read. -/
def ScriptProblem.report (label : String) (problem : ScriptProblem) : String :=
  let text := fun (line : Nat) (what : String) => s!"{line}: {label}Syntax error: {what}"
  match problem with
  | unclosed .quote line => text line "Unterminated quoted string"
  | unclosed .brace line => text line "Missing '\x7d'"
  | unclosed .parenthesis line =>
    text line ("end of file unexpected (expecting " ++ inMarks ")" ++ ")")
  | unclosed .sum line => text line "Missing '))'"
  | unclosed .backquote line => text line "EOF in backquote substitution"
  | unexpected shown line none => text line s!"{shown} unexpected"
  | unexpected shown line (some wanted) => text line s!"{shown} unexpected (expecting {wanted})"
  | badLoopVariable line => text line "Bad for loop variable"
  | badFunctionName line => text line "Bad function name"
  | badStream line => text line "Bad fd number"

/-! ## Tokens -/

/-- A piece of a script. -/
inductive Token where
  | word (pieces : List Piece) (line : Nat)
  | operator (text : List Char) (line : Nat)
  | redirect (stream : Nat) (direction : Direction) (line : Nat)
  | document (stream : Nat) (body : List Piece)
  /-- The end of the script. -/
  | ending (line : Nat)
  /-- The end of what can be split into tokens. -/
  | broken (problem : ScriptProblem)
  deriving DecidableEq, Repr

/-- The redirection that comes next, and how many characters it takes. -/
def redirection? (line : Nat) (cs : List Char) : Option (Token × Nat) :=
  let number := (cs.take 1).takeWhile Char.isDigit
  let stream := fun (usual : Nat) => (number.head?.map fun c => c.toNat - 48).getD usual
  let found := fun (usual : Nat) (direction : Direction) (length : Nat) =>
    some (Token.redirect (stream usual) direction line, number.length + length)
  match cs.drop number.length with
  | '>' :: '>' :: _ => found 1 .append 2
  | '>' :: '&' :: _ => found 1 .like 2
  | '>' :: '|' :: _ => found 1 .overwrite 2
  | '>' :: _ => found 1 .write 1
  | '<' :: '<' :: _ => found 0 .document 2
  | '<' :: '&' :: _ => found 0 .like 2
  | '<' :: _ => found 0 .read 1
  | _ => none

/-- The operator that comes next. -/
def operator? (cs : List Char) : Option (List Char) :=
  [['&', '&'], ['|', '|'], [';', ';'], [';'], ['&'], ['|'], ['('], [')'], ['\n']].find? fun op =>
    op.isPrefixOf cs

/-- How many lines end in a text. -/
def lineEnds (cs : List Char) : Nat :=
  cs.countP (· = '\n')

/-- The lines of a document up to the one that ends it, and what comes behind that one. Tabs in
front of a line are dropped if wanted. -/
def documentLines (mark : List Char) (dropTabs : Bool) : Nat → List Char → List Char × List Char
  | 0, cs => (cs, [])
  | limit + 1, cs =>
    if cs = [] then ([], [])
    else
      let line := cs.takeWhile (· ≠ '\n')
      let rest := cs.drop line.length
      let line := if dropTabs then line.dropWhile (· = '\t') else line
      if line = mark then ([], rest.drop 1)
      else
        let (lines, behind) := documentLines mark dropTabs limit (rest.drop 1)
        (line ++ rest.take 1 ++ lines, behind)

/-- The characters of pieces, without their quotes. -/
def plainText (pieces : List Piece) : List Char :=
  pieces.flatMap fun p =>
    match p with
    | .text text _ => text
    | .value name _ _ => '$' :: name
    | _ => []

/-- Whether a part of a word is quoted. -/
def hasQuotes (pieces : List Piece) : Bool :=
  pieces.any fun p =>
    match p with
    | .text _ quoted => quoted
    | _ => false

/-- Takes a document out of the text behind its sign: the document, how many lines it takes, and the
text that is left. The first `owed` lines below are those of other documents. -/
def takeDocument (stream line owed : Nat) (cs : List Char) : Token × Nat × List Char :=
  let dropTabs := cs.head? = some '-'
  let cs := if dropTabs then cs.drop 1 else cs
  let cs := cs.dropWhile fun c => c = ' ' || c = '\t'
  match readWord true .none line 0 cs with
  | .error what => (.broken (.unclosed what line), 0, [])
  | .ok ([], _) => (.redirect stream .read line, 0, cs)
  | .ok (mark, taken) =>
    let behind := cs.drop taken
    let sameLine := behind.takeWhile (· ≠ '\n')
    let below := behind.drop (sameLine.length + 1)
    let (body, rest) := documentLines (plainText mark) dropTabs below.length below
    let first := line + owed + 1
    let read := if hasQuotes mark then .ok [Piece.text body true] else piecesOfDocument first body
    let token := match read with
      | .ok pieces => Token.document stream pieces
      | .error .quote => .broken (.unclosed .brace (first + lineEnds body))
      | .error what => .broken (.unclosed what (first + lineEnds body))
    (token, lineEnds (below.take (below.length - rest.length)), sameLine ++ '\n' :: rest)

/-- Looks for a problem in a script inside another one: its text, whether it stands between
backquotes, and the line it begins on. -/
abbrev Inspection := List Char → Bool → Nat → Option ScriptProblem

/-- The first problem with the scripts inside a word. -/
def problemInside (inspect : Inspection) (pieces : List Piece) : Option ScriptProblem :=
  pieces.findSome? fun piece =>
    match piece with
    | .output script backquoted line _ => inspect script backquoted line
    | _ => none

/-- The tokens of a script, at most `limit` of them. Documents have already taken `owed` of the
lines below. -/
def tokensWithin (inspect : Inspection) : Nat → Nat → Nat → List Char → List Token
  | 0, line, _, _ => [.ending line]
  | limit + 1, line, owed, cs =>
    match cs with
    | [] => [.ending line]
    | c :: rest =>
      if c = ' ' ∨ c = '\t' then tokensWithin inspect limit line owed rest
      else if c = '#' then tokensWithin inspect limit line owed (rest.dropWhile (· ≠ '\n'))
      else if c = '\\' ∧ rest.head? = some '\n' then
        tokensWithin inspect limit (line + 1) owed (rest.drop 1)
      else match redirection? line cs with
        | some (.redirect stream .document _, taken) =>
          let (token, lines, rest) := takeDocument stream line owed (cs.drop taken)
          let problem := match token with
            | .document _ body => problemInside inspect body
            | _ => none
          match problem with
          | some problem => [.broken problem]
          | none => token :: tokensWithin inspect limit line (owed + lines) rest
        | some (token, taken) => token :: tokensWithin inspect limit line owed (cs.drop taken)
        | none =>
          match operator? cs with
          | some op =>
            let rest := cs.drop op.length
            .operator op line :: (if op = ['\n'] then
              tokensWithin inspect limit (line + 1 + owed) 0 rest
              else tokensWithin inspect limit line owed rest)
          | none =>
            match readWord true .none line 0 cs with
            | .error what =>
              [.broken (.unclosed what (if what = .brace then line else line + lineEnds cs))]
            | .ok (pieces, taken) =>
              match problemInside inspect pieces with
              | some problem => [.broken problem]
              | none =>
                let next := line + lineEnds (cs.take taken)
                .word pieces line :: tokensWithin inspect limit next owed (cs.drop taken)

/-- The tokens of a script that begins on a line. -/
def tokens (inspect : Inspection) (line : Nat) (cs : List Char) : List Token :=
  tokensWithin inspect (cs.length + 1) line 0 cs

/-! ## Commands -/

/-- What joins a command to the one in front of it. -/
inductive Joint where
  /-- It runs in any case. -/
  | always
  /-- It runs if the one in front ended well. -/
  | ifWell
  /-- It runs if the one in front did not. -/
  | ifNot
  deriving DecidableEq, Repr

/-- A command of a script. -/
inductive Command where
  | simple (line : Nat) (assignments : List (List Char × List Piece)) (words : List (List Piece))
      (redirects : List Redirect)
  /-- Commands between parentheses or braces. -/
  | group (line : Nat) (apart : Bool) (body : Command) (redirects : List Redirect)
  /-- A command that nothing waits for. -/
  | aside (body : Command)
  | pipe (first second : Command)
  | not (body : Command)
  | sequence (first : Command) (joint : Joint) (second : Command)
  | ifThen (condition body other : Command)
  | loop (untilWell : Bool) (condition body : Command)
  | forEach (line : Nat) (name : List Char) (words : List (List Piece)) (body : Command)
  /-- The first of some commands whose patterns match a word. -/
  | choose (line : Nat) (word : List Piece) (arms : List (List (List Piece) × Command))
  | define (name : List Char) (body : Command)
  /-- Nothing to do. -/
  | nothing

/-- What can be understood of a script, line by line, and what is wrong with the rest. -/
structure Script where
  commands : List Command
  problem : Option ScriptProblem

/-- A word that is exactly an unquoted text. -/
def plainWord? : Token → Option (List Char)
  | .word [.text text false] _ => some text
  | _ => none

/-- Whether a token is a certain plain word. -/
def isPlain (word : String) (t : Token) : Bool :=
  plainWord? t = some word.toList

/-- Whether a token is a certain operator. -/
def isOperator (op : String) : Token → Bool
  | .operator text _ => text = op.toList
  | _ => false

/-- The words that end a list of commands. -/
def closers : List (List Char) :=
  ["then".toList, "else".toList, "elif".toList, "fi".toList, "do".toList, "done".toList,
    "esac".toList, ['\x7d']]

/-- The words that begin a command of their own kind. -/
def openers : List (List Char) :=
  ["if".toList, "while".toList, "until".toList, "for".toList, "case".toList, ['!'], ['\x7b']]

/-- The names that no function can have: those of the commands by which a shell steers itself. -/
def ownNames : List String :=
  [".", ":", "break", "continue", "eval", "exec", "exit", "export", "local", "readonly", "return",
    "set", "shift", "times", "trap", "unset"]

/-- The line of a token; a document does not know its own. -/
def Token.line : Token → Nat
  | .word _ line => line
  | .operator _ line => line
  | .redirect _ _ line => line
  | .document _ _ => 1
  | .ending line => line
  | .broken _ => 1

/-- Drops line ends. -/
def skipEnds (ts : List Token) : List Token :=
  ts.dropWhile (isOperator "\n")

/-- What stands behind joined commands. -/
inductive StepEnd where
  /-- The end of their line. -/
  | line
  /-- A sign that more may come on the same line. -/
  | more
  /-- Something else, which is still to be read. -/
  | other
  deriving DecidableEq, Repr

/-- What a parser gives. -/
abbrev Parsed := Except ScriptProblem (Command × List Token)

/-- The complaint about what comes next. -/
def stuck (ts : List Token) : ScriptProblem :=
  match ts with
  | [] => .unexpected "end of file" 1 none
  | .ending line :: _ => .unexpected "end of file" line none
  | .broken problem :: _ => problem
  | .operator op line :: _ =>
    if op = ['\n'] then .unexpected "newline" (line + 1) none
    else .unexpected (inMarks (String.ofList op)) line none
  | .word pieces line :: _ =>
    match plainWord? (.word pieces line) with
    | some word =>
      let reserved := closers.contains word || openers.contains word
      .unexpected (if reserved then inMarks (String.ofList word) else "word") line none
    | none => .unexpected "word" line none
  | .redirect _ _ line :: _ => .unexpected "redirection" line none
  | .document _ _ :: _ => .unexpected "redirection" 1 none

/-- The complaint about what comes next where only one thing could have stood. What is wrong with a
token itself comes first. -/
def stuckWanting (wanted : String) (ts : List Token) : ScriptProblem :=
  match ts with
  | .broken problem :: _ => problem
  | ts => (stuck ts).wanting wanted

/-- Requires a token of a certain kind. -/
def expect (found : Token → Bool) (shown : String) (ts : List Token) :
    Except ScriptProblem (List Token) :=
  match ts with
  | t :: rest => if found t then .ok rest else .error (stuckWanting (inMarks shown) ts)
  | [] => .error (stuck ts)

/-- Requires a plain word. -/
def expectWord (word : String) (ts : List Token) : Except ScriptProblem (List Token) :=
  expect (isPlain word) word ts

/-- An assignment at the start of a word: the name, and the rest of the word. -/
def assignment? (pieces : List Piece) : Option (List Char × List Piece) :=
  match pieces with
  | .text text false :: rest =>
    let name := text.takeWhile isNameChar
    match text.drop name.length with
    | '=' :: value =>
      if name.head?.any isNameStart then
        some (name, if value = [] then rest else .text value false :: rest)
      else none
    | _ => none
  | _ => none

/-- The redirection that tokens begin with, if they do. -/
def redirect? : List Token → Option (Redirect × List Token)
  | .redirect stream direction _ :: .word target _ :: rest =>
    some (⟨stream, direction, target⟩, rest)
  | .document stream body :: rest => some (⟨stream, .document, body⟩, rest)
  | _ => none

/-- Reads the words and redirections of a simple command, at most `limit` of them. -/
def readSimple (line : Nat) (assignments : List (List Char × List Piece))
    (words : List (List Piece)) (redirects : List Redirect) : Nat → List Token → Parsed
  | 0, ts => .ok (.simple line assignments words redirects, ts)
  | limit + 1, ts =>
    match redirect? ts with
    | some (r, rest) => readSimple line assignments words (redirects ++ [r]) limit rest
    | none =>
      match ts with
      | .word pieces _ :: rest =>
        match (if words = [] then assignment? pieces else none) with
        | some a => readSimple line (assignments ++ [a]) words redirects limit rest
        | none => readSimple line assignments (words ++ [pieces]) redirects limit rest
      | .redirect _ _ _ :: rest => .error (stuck rest)
      | rest => .ok (.simple line assignments words redirects, rest)

/-- Reads the redirections behind a group, at most `limit` of them. -/
def readRedirects (redirects : List Redirect) : Nat → List Token → List Redirect × List Token
  | 0, ts => (redirects, ts)
  | limit + 1, ts =>
    match redirect? ts with
    | some (r, rest) => readRedirects (redirects ++ [r]) limit rest
    | none => (redirects, ts)

/-- The words that tokens begin with. -/
def leadingWords : List Token → List (List Piece) × List Token
  | .word pieces _ :: rest =>
    let (words, rest) := leadingWords rest
    (pieces :: words, rest)
  | rest => ([], rest)

/-- Reads the patterns of an arm, with bars between them, up to their parenthesis. -/
def readPatterns : List Token → Except ScriptProblem (List (List Piece) × List Token)
  | .word pieces _ :: .operator ['|'] _ :: rest =>
    (readPatterns rest).map fun (patterns, ts) => (pieces :: patterns, ts)
  | .word pieces _ :: rest => (expect (isOperator ")") ")" rest).map fun ts => ([pieces], ts)
  | ts => .error (stuckWanting (inMarks ")") ts)

mutual

/-- Reads commands up to what closes the list they are in. -/
def readList : Bool → Nat → List Token → Parsed
  | _, 0, ts => .error (stuck ts)
  | mayBeEmpty, depth + 1, ts =>
    match skipEnds ts with
    | [] => .ok (.nothing, [])
    | t :: rest =>
      let closes := (plainWord? t).any closers.contains || isOperator ")" t || isOperator ";;" t
      let ends := match t with
        | .ending _ => true
        | .broken _ => true
        | _ => false
      if ends || (closes && mayBeEmpty) then .ok (.nothing, t :: rest)
      else if closes then .error (stuck (t :: rest))
      else match readStep depth (t :: rest) with
        | .error e => .error e
        | .ok (first, ended, ts) =>
          if ended ≠ .other then
            (readList true depth ts).map fun (second, ts) =>
              match second with
              | .nothing => (first, ts)
              | second => (.sequence first .always second, ts)
          else .ok (first, ts)

/-- Reads joined commands, and what stands behind them. -/
def readStep : Nat → List Token → Except ScriptProblem (Command × StepEnd × List Token)
  | 0, ts => .error (stuck ts)
  | depth + 1, ts =>
    match readPipeline depth ts with
    | .error e => .error e
    | .ok (first, ts) =>
      (readJoined depth first ts).map fun (first, ts) =>
        match ts with
        | .operator op line :: rest =>
          if op = ['&'] then (.aside first, .more, rest)
          else if op = [';'] then (first, .more, rest)
          else if op = ['\n'] then (first, .line, rest)
          else (first, .other, .operator op line :: rest)
        | ts => (first, .other, ts)

/-- Reads what is joined to a command. -/
def readJoined : Nat → Command → List Token → Parsed
  | 0, _, ts => .error (stuck ts)
  | depth + 1, first, ts =>
    match ts with
    | .operator op line :: rest =>
      if op = ['&', '&'] || op = ['|', '|'] then
        match readPipeline depth (skipEnds rest) with
        | .error e => .error e
        | .ok (second, ts) =>
          let joint := if op = ['&', '&'] then .ifWell else .ifNot
          readJoined depth (.sequence first joint second) ts
      else .ok (first, .operator op line :: rest)
    | ts => .ok (first, ts)

/-- Reads commands with pipes between them. -/
def readPipeline : Nat → List Token → Parsed
  | 0, ts => .error (stuck ts)
  | depth + 1, ts =>
    match ts with
    | [] => .error (stuck ts)
    | t :: rest =>
      if isPlain "!" t then (readPiped depth rest).map fun (body, ts) => (.not body, ts)
      else readPiped depth (t :: rest)

/-- Reads a command and what it is piped into. -/
def readPiped : Nat → List Token → Parsed
  | 0, ts => .error (stuck ts)
  | depth + 1, ts =>
    match readCommand depth ts with
    | .error e => .error e
    | .ok (first, .operator ['|'] _ :: rest) =>
      (readPiped depth (skipEnds rest)).map fun (second, ts) => (.pipe first second, ts)
    | answer => answer

/-- Reads one command. -/
def readCommand : Nat → List Token → Parsed
  | 0, ts => .error (stuck ts)
  | depth + 1, ts =>
    match ts with
    | .word pieces line :: rest =>
      let name := (plainWord? (.word pieces line)).getD []
      let isCall := (assignment? pieces).isNone && rest.head?.any (isOperator "(")
      if closers.contains name || openers.contains name then
        readCompound depth (.word pieces line :: rest)
      else if !isCall then
        readSimple line [] [] [] (rest.length + 1) (.word pieces line :: rest)
      else
        match rest.drop 1 with
        -- words have no meaning of their own between the parentheses
        | .word _ line :: _ => .error (.unexpected "word" line (some (inMarks ")")))
        | ts =>
          match expect (isOperator ")") ")" ts with
          | .error e => .error e
          | .ok ts =>
            if !isName name || ownNames.contains (String.ofList name) then
              .error (.badFunctionName line)
            else (readCommand depth (skipEnds ts)).map fun (body, ts) => (.define name body, ts)
    | .operator ['('] _ :: _ => readCompound depth ts
    | .redirect _ _ line :: _ => readSimple line [] [] [] ts.length ts
    | .document _ _ :: _ => readSimple 1 [] [] [] ts.length ts
    | ts => .error (stuck ts)

/-- Reads a group, a condition or a loop, with the redirections behind it. -/
def readCompound : Nat → List Token → Parsed
  | 0, ts => .error (stuck ts)
  | depth + 1, ts =>
    match ts with
    | [] => .error (stuck ts)
    | t :: rest =>
      let redirected := fun (parsed : Parsed) (apart : Bool) =>
        parsed.map fun (body, ts) =>
          let (redirects, ts) := readRedirects [] ts.length ts
          (Command.group t.line apart body redirects, ts)
      let enclosed := fun (closes : Token → Bool) (shown : String) =>
        match readList false depth rest with
        | .error e => .error e
        | .ok (body, ts) => (expect closes shown ts).map fun ts => (body, ts)
      if isOperator "(" t then redirected (enclosed (isOperator ")") ")") true
      else if isPlain "\x7b" t then redirected (enclosed (isPlain "\x7d") "\x7d") false
      else if isPlain "if" t then redirected (readIf depth rest) false
      else if isPlain "while" t || isPlain "until" t then
        match readList false depth rest with
        | .error e => .error e
        | .ok (condition, ts) =>
          redirected ((readBody depth ts).map fun (body, ts) =>
            (.loop (isPlain "until" t) condition body, ts)) false
      else if isPlain "for" t then redirected (readFor depth t.line rest) false
      else if isPlain "case" t then
        match rest with
        | .word word _ :: ts =>
          match expectWord "in" (skipEnds ts) with
          | .error e => .error e
          | .ok ts =>
            let arms := (readArms depth ts).map fun (arms, ts) => (.choose t.line word arms, ts)
            redirected arms false
        | ts => .error (stuckWanting "word" ts)
      else .error (stuck ts)

/-- Reads a condition, what to do if it holds, and what to do otherwise. -/
def readIf : Nat → List Token → Parsed
  | 0, ts => .error (stuck ts)
  | depth + 1, ts =>
    match readList false depth ts with
    | .error e => .error e
    | .ok (condition, ts) =>
      match expectWord "then" ts with
      | .error e => .error e
      | .ok ts =>
        match readList false depth ts with
        | .error e => .error e
        | .ok (body, ts) =>
          match ts with
          | [] => .error (stuck ts)
          | t :: rest =>
            if isPlain "elif" t then
              (readIf depth rest).map fun (other, ts) => (.ifThen condition body other, ts)
            else if isPlain "else" t then
              match readList false depth rest with
              | .error e => .error e
              | .ok (other, ts) =>
                (expectWord "fi" ts).map fun ts => (.ifThen condition body other, ts)
            else (expectWord "fi" ts).map fun ts => (.ifThen condition body .nothing, ts)

/-- Reads a loop over words, which began on a line. -/
def readFor : Nat → Nat → List Token → Parsed
  | 0, _, ts => .error (stuck ts)
  | depth + 1, start, ts =>
    let overWords := fun (name : List Char) (words : List (List Piece)) (ts : List Token) =>
      (readBody depth (skipEnds ts)).map fun (body, ts) =>
        (Command.forEach start name words body, ts)
    let given := [[Piece.value ['@'] .plain true]]
    match ts with
    | .word [.text name false] line :: rest =>
      if !name.head?.any isNameStart || !name.all isNameChar then .error (.badLoopVariable line)
      else match skipEnds rest with
        | .operator [';'] _ :: ts => overWords name given ts
        | t :: ts =>
          if isPlain "in" t then
            match leadingWords ts with
            | (words, .operator op line :: ts) =>
              if op = [';'] || op = ['\n'] then overWords name words ts
              else .error (stuck (.operator op line :: ts))
            | (_, ts) => .error (stuck ts)
          else overWords name given (t :: ts)
        | [] => .error (stuck [])
    | .word _ line :: _ => .error (.badLoopVariable line)
    | .broken problem :: _ => .error problem
    | .operator _ line :: _ => .error (.badLoopVariable line)
    | .redirect _ _ line :: _ => .error (.badLoopVariable line)
    | .ending line :: _ => .error (.badLoopVariable line)
    | _ => .error (.badLoopVariable 1)

/-- Reads the body of a loop. -/
def readBody : Nat → List Token → Parsed
  | 0, ts => .error (stuck ts)
  | depth + 1, ts =>
    match expectWord "do" ts with
    | .error e => .error e
    | .ok ts =>
      match readList false depth ts with
      | .error e => .error e
      | .ok (body, ts) => (expectWord "done" ts).map fun ts => (body, ts)

/-- Reads the arms of a choice and the word that ends it. -/
def readArms : Nat → List Token →
    Except ScriptProblem (List (List (List Piece) × Command) × List Token)
  | 0, ts => .error (stuck ts)
  | depth + 1, ts =>
    match skipEnds ts with
    | [] => .error (stuck [])
    | t :: rest =>
      if isPlain "esac" t then .ok ([], rest)
      else
        match readPatterns (if isOperator "(" t then rest else t :: rest) with
        | .error e => .error e
        | .ok (patterns, ts) =>
          match readList true depth ts with
          | .error e => .error e
          | .ok (body, t :: ts) =>
            if isPlain "esac" t then .ok ([(patterns, body)], ts)
            else match expect (isOperator ";;") ";;" (t :: ts) with
              | .error e => .error e
              | .ok ts => (readArms depth ts).map fun (arms, ts) => ((patterns, body) :: arms, ts)
          | .ok (_, []) => .error (stuck [])

end

/-- Reads the commands of a line. -/
def readLine : Nat → List Token → Parsed
  | 0, ts => .error (stuck ts)
  | depth + 1, ts =>
    match readStep depth ts with
    | .error e => .error e
    | .ok (first, .line, ts) => .ok (first, ts)
    | .ok (first, .other, ts) =>
      match ts with
      | .ending _ :: _ => .ok (first, ts)
      | ts => .error (stuck ts)
    | .ok (first, .more, ts) =>
      match ts with
      | .ending _ :: _ => .ok (first, ts)
      | t :: rest =>
        if isOperator "\n" t then .ok (first, rest)
        else
          (readLine depth (t :: rest)).map fun (second, ts) => (.sequence first .always second, ts)
      | [] => .ok (first, [])

/-- The lines of a script, at most `limit` of them. -/
def readLines (depth : Nat) : Nat → List Token → Script
  | 0, _ => ⟨[], none⟩
  | limit + 1, ts =>
    match skipEnds ts with
    | [] => ⟨[], none⟩
    | .ending _ :: _ => ⟨[], none⟩
    | ts =>
      match readLine depth ts with
      | .error problem => ⟨[], some problem⟩
      | .ok (command, ts) =>
        let script := readLines depth limit ts
        { script with commands := command :: script.commands }

/-- Reads a script inside another one as a whole: what it does, and what is left where it cannot go
on. -/
def readInside (inspect : Inspection) (line : Nat) (script : List Char) : Parsed :=
  let ts := tokens inspect line script
  readList true (8 * ts.length + 8) ts

/-- What is wrong with a script inside another one, in which scripts are nested at most so deep. -/
def problemIn : Nat → Inspection
  | 0, _, _, _ => none
  | depth + 1, script, backquoted, line =>
    -- the parenthesis that ends the script is one of its tokens
    let text := if backquoted then script else script ++ [')']
    match readInside (problemIn depth) line text with
    | .error problem => some problem
    | .ok (_, ts) =>
      if backquoted then none
      else match expect (isOperator ")") ")" ts with
        | .error problem => some problem
        | .ok _ => none

/-- What a script inside another one does, up to where it cannot go on. -/
def parseInside (script : List Char) (line : Nat) : Command :=
  match readInside (fun _ _ _ => none) line script with
  | .ok (command, _) => command
  | .error _ => .nothing

/-- Reads a script. -/
def parseScript (cs : List Char) : Script :=
  let ts := tokens (problemIn cs.length) 1 cs
  readLines (8 * ts.length + 8) (ts.length + 1) ts

end ArtifactSync.Process
