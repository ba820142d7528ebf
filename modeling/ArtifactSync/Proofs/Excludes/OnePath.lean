import ArtifactSync.Proofs.Excludes
import ArtifactSync.Proofs.Glob.Literal

/-!
# The excludes of one path

For a path that ends like a source there is a pattern whose rule matches the text of the path and no
other (`ofPatterns_one`, `decide_one`). Excludes that consist of it leave out the path
(`isExcluded_itself`) and let in every row of names that does not begin with it
(`isExcluded_other`).
-/

namespace ArtifactSync.Excludes

open Path

/-- The pattern for one path below the root. -/
def patternOf (p : Path) : String :=
  String.ofList ('/' :: Glob.escape p.chars)

/-- The rule of that pattern. -/
def ruleOf (p : Path) : Rule :=
  ⟨Glob.fixed p.chars, false, false⟩

section Pattern

variable {p : Path} {front : List Char} (hlast : p.chars = front ++ ['t'])
include hlast

/-- The pattern ends in the last character of the path. -/
theorem exists_escape : ∃ cs, Glob.escape p.chars = cs ++ ['t'] :=
  ⟨Glob.escape front ++ ['\\'], by simp [hlast, Glob.escape]⟩

/-- The pattern is read as the rule. -/
theorem ofPattern_escape : Rule.ofPattern ('/' :: Glob.escape p.chars) = .ok (ruleOf p) := by
  obtain ⟨cs, hcs⟩ := exists_escape hlast
  -- no part of the pattern that means more than itself is at either end
  have hslash : Rule.dropLastSlash (Glob.escape p.chars) = (Glob.escape p.chars, false) := by
    rw [Rule.dropLastSlash, hcs]
    simp
  have hbelow : Rule.belowOnly (Glob.escape p.chars) = Glob.escape p.chars := by
    have hsuffix : (['/', '*', '*'].isSuffixOf (Glob.escape p.chars)) = false := by
      by_contra h
      rw [Bool.not_eq_false, List.isSuffixOf_iff_suffix, hcs] at h
      obtain ⟨l, hl⟩ := h
      have hend := congrArg List.getLast? hl
      simp at hend
    rw [Rule.belowOnly, hsuffix, if_neg Bool.false_ne_true]
  have hhead : (['\\', '!'].isPrefixOf ('/' :: Glob.escape p.chars) ||
      ['\\', '#'].isPrefixOf ('/' :: Glob.escape p.chars)) = false := by
    simp [List.isPrefixOf]
  unfold Rule.ofPattern
  rw [hhead]
  simp [hslash, Rule.floating, hbelow, Glob.parse_escape, Except.map, ruleOf]

/-- Nothing is trimmed off the pattern. -/
theorem trim_pattern : Text.trim ('/' :: Glob.escape p.chars) = '/' :: Glob.escape p.chars := by
  obtain ⟨cs, hcs⟩ := exists_escape hlast
  rw [Text.trim, hcs, List.dropWhile_cons_of_neg (by decide), Text.dropEndWhile]
  simp [List.dropWhile_cons_of_neg, show Text.isBlank 't' = false by decide]

/-- The pattern makes excludes of the one rule. -/
theorem ofPatterns_one (root : Path) :
    ofPatterns root [patternOf p] = .ok ⟨dropHere root.chars, [ruleOf p]⟩ := by
  have hadd : addPatterns [] [patternOf p] = .ok [ruleOf p] := by
    have hkept : ¬('/' :: Glob.escape p.chars = [] ∨
        ('/' :: Glob.escape p.chars).head? = some '#') := by
      rintro (h | h)
      · cases h
      · simp at h
    have hone : addPattern [] ('/' :: Glob.escape p.chars) = .ok [ruleOf p] := by
      rw [addPattern, if_neg hkept, if_neg (by decide), ofPattern_escape hlast]
      rfl
    rw [addPatterns, patternOf, String.toList_ofList, trim_pattern hlast, hone]
    rfl
  have hdepth : depthMessage? [ruleOf p] = none := by
    simp [depthMessage?, ruleOf, Glob.isTooDeep_fixed]
  rw [ofPatterns, hadd]
  simp [hdepth]

end Pattern

section One

variable {p : Path} {x : Excludes} (hrules : x.rules = [ruleOf p])
include hrules

/-- The rule says that the path is excluded, and nothing about any other. -/
theorem decide_one (q : Path) (isDir : Bool) :
    x.decide? q isDir = if q = p then some true else none := by
  have hmatch : (ruleOf p).isMatch (Text.bytes q.chars) isDir = decide (q = p) := by
    rw [Bool.eq_iff_iff, decide_eq_true_iff, Rule.isMatch, ruleOf, Bool.not_false, Bool.or_true,
      Bool.true_and, Glob.isMatch_fixed]
    exact ⟨fun h => congrArg Path.mk (Text.bytes_injective h), fun h => by rw [h]⟩
  simp only [decide?, hrules, List.reverse_singleton, List.find?_singleton, hmatch,
    decide_eq_true_eq]
  split <;> rfl

variable (hroot : x.root.head? = some '/')
include hroot

/-- So the path is excluded. -/
theorem isExcluded_itself (hp : p.Tidy) (isDir : Bool) : x.isExcluded p isDir = .ok true := by
  rw [isExcluded_tidy hroot hp, verdict, decideUp, decide_one hrules, if_pos rfl]

/-- A row of names that does not begin with the path is not. -/
theorem isExcluded_other {names : List (List Char)} (hnames : ∀ n ∈ names, IsName n)
    (hne : names ≠ []) (hother : ∀ front, front <+: names → ofNames front ≠ p) (isDir : Bool) :
    x.isExcluded (ofNames names) isDir = .ok false := by
  rw [isExcluded_tidy hroot (tidy_ofNames hnames hne), Except.ok.injEq]
  -- some rule would have to speak of a directory on the way
  by_contra hin
  rw [Bool.not_eq_false, verdict] at hin
  obtain ⟨front, isDir', hprefix, hdecide⟩ := exists_decide_of_decideUp hnames hin
  rw [decide_one hrules, if_neg (hother front hprefix)] at hdecide
  cases hdecide

end One

end ArtifactSync.Excludes
