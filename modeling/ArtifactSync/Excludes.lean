import ArtifactSync.Error
import ArtifactSync.Glob.Expression
import ArtifactSync.Glob.Reader
import ArtifactSync.Text.Blank

/-!
# Excludes

Patterns, as an ignore list has them, for the directories and files that are never sources. Source
discovery and the watcher ask the same rules. At one path the last rule that matches decides; a path
that no rule matches is decided by its nearest ancestor that some rule matches.
-/

namespace ArtifactSync

/-- One pattern. -/
structure Rule where
  glob : List Glob.Token
  /-- Whether the rule takes paths back in. -/
  keeps : Bool
  onlyDirs : Bool
  deriving Repr

/-- The patterns in force, and the root whose text is cut off the paths asked about. -/
structure Excludes where
  root : List Char
  rules : List Rule
  deriving Repr

namespace Rule

/-- Drops a text in front, if it is there. -/
def dropStart? (start cs : List Char) : Option (List Char) :=
  if start.isPrefixOf cs then some (cs.drop start.length) else none

/-- Drops a separator at the end, with a backslash in front of it. -/
def dropLastSlash (cs : List Char) : List Char × Bool :=
  if cs.getLast? = some '/' then
    let front := cs.dropLast
    (if front.getLast? = some '\\' then front.dropLast else front, true)
  else (cs, false)

/-- Puts any directories in front of a glob that is a bare name. -/
def floating (anchored : Bool) (glob : List Char) : List Char :=
  let free := ['*', '*', '/']
  if anchored || glob.contains '/' || free.isPrefixOf glob || glob = ['*', '*'] then glob
  else free ++ glob

/-- A glob for everything below a directory leaves the directory itself out. -/
def belowOnly (glob : List Char) : List Char :=
  if ['/', '*', '*'].isSuffixOf glob then glob ++ ['/', '*'] else glob

/-- The rule of a pattern that has no blanks at its ends. -/
def ofPattern (pattern : List Char) : Except Glob.Problem Rule :=
  let escaped := ['\\', '!'].isPrefixOf pattern || ['\\', '#'].isPrefixOf pattern
  let keeps := !escaped && pattern.head? = some '!'
  let body := if escaped || keeps then pattern.drop 1 else pattern
  let anchored := body.head? = some '/'
  let unanchored := if anchored && !escaped then body.drop 1 else body
  let (name, onlyDirs) := dropLastSlash unanchored
  (Glob.parse (belowOnly (floating anchored name))).map fun glob => ⟨glob, keeps, onlyDirs⟩

/-- Whether a rule matches a path. -/
def isMatch (rule : Rule) (bs : List UInt8) (isDir : Bool) : Bool :=
  (isDir || !rule.onlyDirs) && Glob.isMatch rule.glob bs

end Rule

/-- A path that begins with a separator where one seen from the root was called for. -/
structure RootedPath where
  path : Path
  deriving DecidableEq, Repr

namespace Excludes

/-- No patterns. -/
def empty : Excludes := ⟨[], []⟩

/-- The patterns in force unless others are given: dependencies, version control, and output. -/
def defaultPatterns : List String := ["node_modules/", ".git/", "dist/"]

/-- The number of patterns a list may have. -/
def limit : Nat := 1000

/-- A text without `./` in front. -/
def dropHere (cs : List Char) : List Char :=
  (Rule.dropStart? ['.', '/'] cs).getD cs

/-- Adds the rule of a pattern to those already read. Nothing is added for a blank pattern or a
comment. -/
def addPattern (rules : List Rule) (pattern : List Char) : Except ExcludeError (List Rule) :=
  if pattern = [] ∨ pattern.head? = some '#' then .ok rules
  else if rules.length ≥ limit then .error (.tooManyPatterns (rules.length + 1) limit)
  else match Rule.ofPattern pattern with
    | .error e =>
      let text := String.ofList pattern
      .error (.invalidPattern text s!"error parsing glob '{text}': {e}")
    | .ok rule => .ok (rules ++ [rule])

/-- Adds the rules of patterns to those already read. -/
def addPatterns (rules : List Rule) : List String → Except ExcludeError (List Rule)
  | [] => .ok rules
  | p :: ps =>
    match addPattern rules (Text.trim p.toList) with
    | .error e => .error e
    | .ok rules => addPatterns rules ps

/-- What is wrong with the expression of a glob that is nested too deep. Globs that end in an
extension have expressions of their own and are built first; the others share one. -/
def depthMessage? (rules : List Rule) : Option String :=
  let deep := (rules.map Rule.glob).filter Glob.isTooDeep
  let refusal := "error parsing pattern 0"
  match deep.find? Glob.endsInExtension with
  | some glob =>
    let text := String.ofList (Glob.expression glob)
    some s!"error parsing glob '{text}': {refusal}"
  | none => if deep.isEmpty then none else some refusal

/-- The excludes of a project, from a list of patterns. -/
def ofPatterns (root : Path) (patterns : List String) : Except ExcludeError Excludes :=
  match addPatterns [] patterns with
  | .error e => .error e
  | .ok rules =>
    match depthMessage? rules with
    | some message => .error (.buildFailed message)
    | none => .ok ⟨dropHere root.chars, rules⟩

/-- The excludes of a project that names none. -/
def defaults (root : Path) : Excludes :=
  match ofPatterns root defaultPatterns with
  | .ok x => x
  | .error _ => empty

/-- The number of patterns. -/
def count (x : Excludes) : Nat := x.rules.length

/-- The text of a path with `./` and the root in front of it cut off. A bare file name keeps its
text, whatever the root is. -/
def strip (x : Excludes) (path : List Char) : List Char :=
  let path := dropHere path
  if (Path.mk x.root).components = [.here] ∨ !path.contains '/' then path
  else match Rule.dropStart? x.root path with
    | none => path
    | some rest => (Rule.dropStart? ['/'] rest).getD rest

/-- What the last rule that matches one path says: whether it is excluded. -/
def decide? (x : Excludes) (path : Path) (isDir : Bool) : Option Bool :=
  let bs := Text.bytes path.chars
  (x.rules.reverse.find? fun rule => rule.isMatch bs isDir).map fun rule => !rule.keeps

/-- Decides a path or, if no rule matches it, its nearest ancestor that one matches, at most `depth`
steps up. -/
def decideUp (x : Excludes) : Nat → Path → Bool → Bool
  | 0, _, _ => false
  | depth + 1, path, isDir =>
    match x.decide? path isDir with
    | some excluded => excluded
    | none =>
      match path.parent? with
      | none => false
      | some parent => decideUp x depth parent true

/-- Whether a path seen from the root is excluded. The matcher takes only paths that are not rooted
once the root's text has been cut off. -/
def isExcluded (x : Excludes) (path : Path) (isDir : Bool) : Except RootedPath Bool :=
  if x.rules = [] ∨ path.isRooted then .ok false
  else
    let stripped := Path.mk (x.strip path.chars)
    if stripped.isRooted then .error ⟨stripped⟩
    else .ok (x.decideUp (stripped.chars.length + 2) stripped isDir)

end Excludes

end ArtifactSync
