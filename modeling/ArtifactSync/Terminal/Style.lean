/-!
# Styled text

Everything shown to a reader is plain text, icons, and text in one of five colours that say what it
means. Colours are switched by terminal escape codes, and icons have a form in ASCII for terminals
that show nothing else.
-/

namespace ArtifactSync.Terminal

/-- Whether text is coloured. -/
inductive Coloring where
  /-- No codes are written. -/
  | off
  /-- Codes are written. -/
  | on
  /-- Codes are written without a colour in them, which leaves the terminal's own. -/
  | emptied
  deriving DecidableEq, Repr

/-- How the output may look. -/
structure Style where
  coloring : Coloring
  unicode : Bool
  deriving DecidableEq, Repr

/-- What a colour says about a text. -/
inductive Meaning where
  | success
  | error
  | warning
  | info
  | dim
  deriving DecidableEq, Repr

/-- The number of a colour in the terminal's palette. -/
def Meaning.code : Meaning → Nat
  | success => 10
  | error => 9
  | warning => 11
  | info => 14
  | dim => 8

/-- A terminal escape code that sets attributes. -/
def escapeCode (attributes : String) : String :=
  String.ofList [Char.ofNat 27, '['] ++ attributes ++ "m"

/-- A text in the colour of its meaning, perhaps bold. -/
def paint (coloring : Coloring) (meaning : Meaning) (text : String) (bold : Bool) : String :=
  let on := match coloring with
    | .emptied => ""
    | _ => s!"38;5;{meaning.code}"
  let off := match coloring with
    | .emptied => ""
    | _ => "39"
  if coloring = .off then text
  else if bold then escapeCode on ++ escapeCode "1" ++ text ++ escapeCode "0"
  else escapeCode on ++ text ++ escapeCode off

/-- A text in a colour. -/
def Style.text (s : Style) (meaning : Meaning) (text : String) : String :=
  paint s.coloring meaning text false

/-- A text in a colour and bold. -/
def Style.bold (s : Style) (meaning : Meaning) (text : String) : String :=
  paint s.coloring meaning text true

/-- The icons. -/
inductive Icon where
  | success
  | error
  | warning
  | arrow
  | sync
  | watch
  | build
  | trash
  deriving DecidableEq, Repr

namespace Icon

/-- An icon as one character. -/
def symbol : Icon → String
  | success => "✓"
  | error => "✗"
  | warning => "⚠"
  | arrow => "↳"
  | sync => "≡"
  | watch => "⟳"
  | build => "⚙"
  | trash => "🗑"

/-- An icon in ASCII. -/
def ascii : Icon → String
  | success => "[OK]"
  | error => "[FAIL]"
  | warning => "[WARN]"
  | arrow => "[>]"
  | sync => "[=]"
  | watch => "[~]"
  | build => "[BUILD]"
  | trash => "[DEL]"

/-- What the colour of an icon says. -/
def meaning : Icon → Meaning
  | success => .success
  | error => .error
  | warning => .warning
  | trash => .warning
  | arrow => .dim
  | sync => .dim
  | watch => .info
  | build => .info

end Icon

/-- An icon in its colour. -/
def Style.icon (s : Style) (icon : Icon) : String :=
  s.text icon.meaning (if s.unicode then icon.symbol else icon.ascii)

end ArtifactSync.Terminal
