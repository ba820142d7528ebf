import ArtifactSync.Process.Tool.Condition
import ArtifactSync.Process.Tool.Dump
import ArtifactSync.Process.Tool.Editor
import ArtifactSync.Process.Tool.Exchange
import ArtifactSync.Process.Tool.Files
import ArtifactSync.Process.Tool.Order
import ArtifactSync.Process.Tool.Parts
import ArtifactSync.Process.Tool.Reckon
import ArtifactSync.Process.Tool.Search
import ArtifactSync.Process.Tool.Tabs

/-!
# Tools

The programs that a compiler command can use besides the shell, by their names.
-/

namespace ArtifactSync.Process

/-- Ends with a code at once. -/
def endsWith (code : Nat) (c : Call) : Ran :=
  { c.prints [] code with rest := c.input }

/-- Whether a word is a time to wait: a number with a unit behind it. -/
def isDuration (w : Word) : Bool :=
  let (n, rest) := leadingFraction 64 w
  let positive := match n with
    | .finite negative num _ => !negative || num = 0
    | .infinite negative => !negative
    | .nan => false
  positive && rest ≠ w && (rest = [] || (rest.length = 1 && rest.all "smhd".toList.contains))

/-- Waits, which takes no time here. -/
def sleep (c : Call) : Ran :=
  let wrong := c.args.filter fun w => !isDuration w
  if c.args.isEmpty then c.refuses "missing operand" 1
  else match wrong with
    | [] => endsWith 0 c
    | wrong =>
      let complaints := wrong.map fun w => c.complaint s!"invalid time interval {plainQuoted w}"
      let hint := s!"Try '{String.ofList c.name} --help' for more information.\n"
      { c.ends (complaints ++ [(.err, Word.bytesOf hint)]) 1 with rest := c.input }

/-- Prints a line again and again. Whoever reads it stops earlier. -/
def yes (c : Call) : Ran :=
  let line := Word.bytes (joinWords (if c.args.isEmpty then [['y']] else c.args) ++ ['\n'])
  let count := endlessBytes / 16 / line.length + 1
  { c.ends [(.out, (List.replicate count line).flatten)] 0 with rest := c.input }

/-- Prints the values of variables, or all variables. -/
def printenv (c : Call) : Ran :=
  let values := c.args.map fun w => c.env.get? (String.ofList w)
  let lines := if c.args.isEmpty then c.env.bindings.map fun v => v.1 ++ "=" ++ v.2
    else values.filterMap id
  let out := lines.flatMap fun l => Word.bytesOf (l ++ "\n")
  { c.prints out (if values.all Option.isSome then 0 else 1) with rest := c.input }

/-- Searches for patterns of a certain kind. -/
def grepWith (option : String) (c : Call) : Ran :=
  grep { c with args := option.toList :: c.args }

/-- The tools by their names. -/
def tools : List (String × (Call → Ran)) := [
  ("[", test), ("base64", base64), ("basename", basename), ("cat", cat), ("chmod", changeMode),
  ("cksum", cksum), ("cmp", cmp), ("comm", comm), ("cp", copy), ("cut", cut), ("dirname", dirname),
  ("echo", echo), ("egrep", grepWith "-E"), ("expand", tabsToBlanks), ("expr", expr),
  ("false", endsWith 1), ("fgrep", grepWith "-F"), ("fold", foldLines), ("grep", grep),
  ("head", head), ("ln", link), ("ls", ls), ("md5sum", digestWith "MD5" Digest.md5),
  ("mkdir", mkdir), ("mv", move), ("nl", numberLines), ("od", od), ("paste", paste),
  ("printenv", printenv), ("printf", printf), ("pwd", pwd), ("readlink", readlink),
  ("realpath", realpath), ("rev", rev), ("rm", rm), ("rmdir", rmdir), ("sed", sed), ("seq", seq),
  ("sha1sum", digestWith "SHA1" Digest.sha1), ("sha256sum", digestWith "SHA256" Digest.sha256),
  ("sleep", sleep), ("sort", sort), ("sync", endsWith 0), ("tac", tac), ("tail", tail),
  ("tee", tee), ("test", test), ("touch", touch), ("tr", tr), ("true", endsWith 0),
  ("unexpand", blanksToTabs), ("uniq", uniq), ("wc", wc), ("yes", yes)]

/-- The tool of a name. -/
def tool? (name : Word) : Option (Call → Ran) :=
  (tools.find? fun t => t.1.toList = name).map Prod.snd

end ArtifactSync.Process
