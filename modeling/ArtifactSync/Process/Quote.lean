import ArtifactSync.Process.Octets

/-!
# Words in messages

Tools show the words they complain about so that a shell would read them back: bare if nothing in
them has a meaning for a shell, between quotes otherwise, and bytes that cannot be printed as octal
numbers.
-/

namespace ArtifactSync.Process

/-- Three octal digits of a byte. -/
def octalDigits (c : Char) : List Char :=
  let n := c.toNat
  [n / 64, n / 8 % 8, n % 8].map fun d => Char.ofNat (48 + d)

/-- Whether a byte can be printed as it is. -/
def isPrintable (c : Char) : Bool :=
  32 ≤ c.toNat && c.toNat < 127

/-- The escape of a byte that cannot be printed. -/
def byteEscape (c : Char) : List Char :=
  let letters := [(7, 'a'), (8, 'b'), (9, 't'), (10, 'n'), (11, 'v'), (12, 'f'), (13, 'r')]
  match letters.find? fun l => l.1 = c.toNat with
  | some (_, letter) => ['\\', letter]
  | none => '\\' :: octalDigits c

/-- Whether a word means nothing to a shell but itself. -/
def isBare (w : Word) : Bool :=
  let special := fun (c : Char) =>
    " !\"$&()*;<=>[^|'\\?".toList.contains c || c.toNat = 96 || !isPrintable c
  w ≠ [] && !w.any special && w.head? ≠ some '#' && w.head? ≠ some '~' && w ≠ ['\x7b'] &&
    w ≠ ['\x7d']

/-- A word between single quotes, behind a part of it that is already between them. Quotes and bytes
that cannot be printed stand outside the quotes. -/
def singleQuoted (inside : Bool) : Word → List Char
  | [] => if inside then ['\''] else []
  | c :: cs =>
    let close := if inside then ['\''] else []
    if c = '\'' then close ++ '\\' :: '\'' :: singleQuoted false cs
    else if isPrintable c then (if inside then [] else ['\'']) ++ c :: singleQuoted true cs
    else
      let hidden := (c :: cs).takeWhile fun c => !isPrintable c
      close ++ "$'".toList ++ hidden.flatMap byteEscape ++ '\'' :: behind (hidden.length - 1) cs
where
  /-- The same behind so many bytes that are shown already. -/
  behind : Nat → Word → List Char
  | 0, cs => singleQuoted false cs
  | skip + 1, cs =>
    match cs with
    | [] => []
    | _ :: cs => behind skip cs

/-- A word between quotes that a shell understands. -/
def shellQuoted (w : Word) : String :=
  let held := w.contains '\'' && w.all fun c =>
    isPrintable c && !"!\"$\\".toList.contains c && c.toNat ≠ 96
  if held then "\"" ++ String.ofList w ++ "\""
  else
    match w with
    | [] => "''"
    | c :: cs =>
      -- quotes are opened even in front of what has to stand outside them
      if c = '\'' || !isPrintable c then "''" ++ String.ofList (singleQuoted false (c :: cs))
      else String.ofList ('\'' :: singleQuoted true (c :: cs))

/-- A word as it is if a shell would take it so, and between quotes otherwise. -/
def shellShown (w : Word) : String :=
  if isBare w then String.ofList w else shellQuoted w

/-- A word between plain quotes, in which quotes and backslashes follow a backslash. -/
def plainQuoted (w : Word) : String :=
  let shown := w.flatMap fun c =>
    if c = '\'' || c = '\\' then ['\\', c] else if isPrintable c then [c] else byteEscape c
  "'" ++ String.ofList shown ++ "'"

end ArtifactSync.Process
