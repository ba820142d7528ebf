import ArtifactSync.Process.Shell.State
import ArtifactSync.Process.Tool.Condition

/-!
# Options

The options of a shell by their letters and names, and how the words behind `set` or behind the name
of a shell turn them on and off. The commands of a shell take options too, but only letters.
-/

namespace ArtifactSync.Process

/-- The options by their names. Those without a letter do nothing. -/
def shellOptions : List (String × Char) :=
  [("errexit", 'e'), ("noglob", 'f'), ("ignoreeof", 'I'), ("interactive", 'i'), ("monitor", 'm'),
    ("noexec", 'n'), ("stdin", 's'), ("xtrace", 'x'), ("verbose", 'v'), ("vi", 'V'), ("emacs", 'E'),
    ("noclobber", 'C'), ("allexport", 'a'), ("notify", 'b'), ("nounset", 'u'), ("privileged", 'p'),
    ("nolog", '0'), ("debug", '1')]

/-- Turns an option on or off. -/
def setOption (on : Bool) (letter : Char) : Act Unit :=
  Act.change fun s =>
    let others := s.options.filter (· ≠ letter)
    { s with options := if on then letter :: others else others }

/-- Shows the options, as a table or as commands that would set them. -/
def showOptions (asTable : Bool) : Act Unit := do
  let s ← get
  let row := fun (o : String × Char) =>
    if asTable then
      let blanks := String.ofList (List.replicate (16 - o.1.length) ' ')
      o.1 ++ blanks ++ (if s.has o.2 then "on" else "off") ++ "\n"
    else (if s.has o.2 then "set -o " else "set +o ") ++ o.1 ++ "\n"
  Act.tells ((if asTable then "Current option settings\n" else "") ++
    String.join (shellOptions.map row))

/-- What setting options leaves: whether the script is the next word, whether there were two
hyphens, and the words that are no options. -/
structure OptionsSet where
  isScript : Bool
  endMarked : Bool
  words : List Word
  deriving DecidableEq, Repr

/-- Sets the options of one word by their letters. Names are taken from the words behind it, which
are given back without them. -/
def setLetters (starting on : Bool) : Word → OptionsSet → Act OptionsSet
  | [], set => return set
  | 'o' :: letters, set => do
    match set.words with
    | [] => showOptions on
    | name :: _ =>
      match shellOptions.find? fun o => o.1.toList = name with
      | some (_, letter) => setOption on letter
      | none => Act.fails s!"Illegal option -o {String.ofList name}"
    setLetters starting on letters { set with words := set.words.drop 1 }
  | letter :: letters, set => do
    if letter = 'c' && starting then setLetters starting on letters { set with isScript := true }
    else
      if (shellOptions.take 16).any fun o => o.2 = letter then setOption on letter
      else Act.fails s!"Illegal option -{letter}"
      setLetters starting on letters set

/-- Sets the options at the start of some words, at most so many words of them. -/
def setOptions (starting : Bool) : Nat → OptionsSet → Act OptionsSet
  | 0, set => return set
  | limit + 1, set =>
    match set.words with
    | ['-'] :: words => do
      if !starting then
        setOption false 'x'
        setOption false 'v'
      return { set with words := words }
    | ['-', '-'] :: words => return { set with endMarked := true, words := words }
    | ('-' :: letters) :: words => do
      setOptions starting limit (← setLetters starting true letters { set with words := words })
    | ('+' :: letters) :: words => do
      setOptions starting limit (← setLetters starting false letters { set with words := words })
    | _ => return set

/-! ## Options of commands -/

/-- The options of a command of the shell, with and without values, and its other words. -/
def optionsOf (flags valued : String) : List Word → Act Options
  | [] => return ⟨[], []⟩
  | ['-', '-'] :: words => return ⟨[], words⟩
  | ('-' :: letter :: letters) :: words => do
    match OptionRules.letters ⟨flags, valued, [], false⟩ (letter :: letters) with
    | .error (.unknownLetter letter) => Act.fails s!"Illegal option -{letter}"
    | .error _ => Act.fails "Illegal option"
    | .ok (given, none) => do
      let o ← optionsOf flags valued words
      return { o with given := given ++ o.given }
    | .ok (given, some letter) =>
      match words with
      | [] => Act.fails s!"No arg for -{letter} option"
      | value :: words => do
        let o ← optionsOf flags valued words
        return { o with given := given ++ (letter, value) :: o.given }
  | words => return ⟨[], words⟩

/-- The whole number that a word spells, which is not negative. -/
def numberAsked (w : Word) : Act Nat :=
  match wholeOf? w with
  | some n =>
    if 0 ≤ n && n < Nat.pow 2 31 then return n.toNat
    else Act.fails s!"Illegal number: {String.ofList w}"
  | none => Act.fails s!"Illegal number: {String.ofList w}"

end ArtifactSync.Process
