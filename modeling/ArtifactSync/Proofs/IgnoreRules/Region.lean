import ArtifactSync.Proofs.IgnoreRules.Basic
import ArtifactSync.Proofs.Path.Slash
import ArtifactSync.Proofs.SideFile.IgnoreList

/-!
# What the region of the ignore list ignores

The region of an ignore list has one line for each artifact. The version control reads that line as
a rule for the one path (`rule_entry`), whatever characters the names have, because the line undoes
what the rules make of them. So with the region in place the artifacts are ignored, and nothing
changes for any other file (`ignores_render`).
-/

namespace ArtifactSync.IgnoreRules

open IgnoreList

/-! ## Rules of texts in a row -/

/-- A line feed separates the rules of two texts. -/
theorem rules_append (a b : List Char) : rules (a ++ '\n' :: b) = rules a ++ rules b := by
  simp only [rules, Text.split_append_cut (p := (· == '\n')) (c := '\n') (by decide) a b,
    ← List.filterMap_append]
  simp

/-- The rules of a text without line feeds. -/
theorem rules_line {line : List Char} (h : '\n' ∉ line) : rules line = (rule? line).toList := by
  have hsplit : Text.split (· == '\n') line = (line, []) :=
    Text.split_of_free fun c hc => by simpa using fun heq : c = '\n' => h (heq ▸ hc)
  rw [rules, hsplit]
  cases hrule : rule? line <;> simp [hrule]

/-- An empty text has no rules. -/
theorem rules_nil : rules [] = [] :=
  rules_line (by simp)

/-- A line feed at the end changes nothing. -/
theorem rules_newline (a : List Char) : rules (a ++ ['\n']) = rules a := by
  rw [rules_append, rules_nil, List.append_nil]

/-- The rules of a text that ends its last line, with another text behind it. -/
theorem rules_append_of_newline {a : List Char} (h : a = [] ∨ a.getLast? = some '\n')
    (b : List Char) : rules (a ++ b) = rules a ++ rules b := by
  rcases h with rfl | h
  · rw [rules_nil]; rfl
  · obtain ⟨front, rfl⟩ := List.getLast?_eq_some_iff.mp h
    rw [rules_newline, List.append_assoc, List.singleton_append, rules_append]

/-! ## The text in front of the region -/

/-- What the user has written: the text in front of the region, or all of it if there is none. -/
def userPrefix (existing : List Char) : List Char :=
  ((Text.linesWithEnds existing).takeWhile fun line => !opensRegion line).flatten

/-- The region is set off from the user's text by blank lines, which are no rules. -/
theorem rules_userPart (existing : List Char) :
    rules (userPart existing) = rules (userPrefix existing) := by
  unfold userPart
  simp only
  split
  · rfl
  · next hnone =>
    have hall : userPrefix existing = existing := by
      have hlines : (Text.linesWithEnds existing).takeWhile (fun line => !opensRegion line) =
          Text.linesWithEnds existing := by
        refine List.takeWhile_eq_self_iff.mpr fun line hline => ?_
        simpa using fun hopen => hnone (List.any_eq_true.mpr ⟨line, hline, hopen⟩)
      rw [userPrefix, hlines, Text.flatten_linesWithEnds]
    rw [hall]
    split
    · next hnil => rw [hnil]
    · split
      · rfl
      · split
        · exact rules_newline existing
        · rw [show existing ++ ['\n', '\n'] = existing ++ ['\n'] ++ ['\n'] by simp, rules_newline,
            rules_newline]

/-! ## The rule of an entry -/

/-- The characters of a path behind the backslashes that make them stand for themselves. -/
def escaped (slash : List Char) : List Char :=
  slash.flatMap fun c => if isSpecial c then ['\\', c] else [c]

/-- What the rules make of them is the path again. -/
theorem marks_escaped (slash : List Char) :
    marks? (escaped slash) = some (slash.map fun c => (c, isSpecial c)) := by
  induction slash with
  | nil => rfl
  | cons c slash ih =>
    rw [escaped, List.flatMap_cons, ← escaped]
    by_cases hc : isSpecial c = true
    · simp [hc, marks?, ih]
    · rw [Bool.not_eq_true] at hc
      have hback : c ≠ '\\' := by rintro rfl; cases hc
      simp [hc, marks?, hback, ih]

/-- Escaping adds no line feeds and takes none away. -/
theorem mem_escaped_iff {slash : List Char} : '\n' ∈ escaped slash ↔ '\n' ∈ slash := by
  rw [escaped, List.mem_flatMap]
  constructor
  · rintro ⟨c, hc, hmem⟩
    split at hmem
    · rcases List.mem_cons.mp hmem with heq | hmem
      · cases heq
      · rwa [List.mem_singleton.mp hmem]
    · rwa [List.mem_singleton.mp hmem]
  · exact fun h => ⟨'\n', h, by decide⟩

/-- Characters that stand for themselves are parts of their own. -/
theorem parts_escaped (front : Bool) (slash : List Char) :
    parts? front 0 (slash.map fun c => (c, isSpecial c)) = some (slash.map .char) := by
  induction slash generalizing front with
  | nil => rfl
  | cons c slash ih =>
    rw [List.map_cons, parts?, ih]
    cases hc : isSpecial c with
    | true => rfl
    | false =>
      have hne : c ≠ '?' ∧ c ≠ '*' ∧ c ≠ '[' := by
        refine ⟨?_, ?_, ?_⟩ <;> rintro rfl <;> cases hc
      simp [hne.1, hne.2.1, hne.2.2]

/-- The last character stays the last one if it is not special. -/
theorem getLast_escaped {slash : List Char} {c : Char} (h : slash.getLast? = some c)
    (hc : isSpecial c = false) : (escaped slash).getLast? = some c := by
  obtain ⟨front, rfl⟩ := List.getLast?_eq_some_iff.mp h
  simp [escaped, hc]

/-- A line that does not end in a space is not cut. -/
theorem trimSpaces_eq {line : List Char} (h : line.getLast? ≠ some ' ') : trimSpaces line = line := by
  fun_induction trimSpaces line with
  | case1 => rfl
  | case2 => rfl
  | case3 c cs ih =>
    rw [ih]
    cases cs with
    | nil => simp
    | cons d ds => simpa using h
  | case4 c cs hback hback' hall =>
    -- the last of some spaces is a space
    have hlast := List.all_eq_true.mp hall _ (List.getLast_mem (List.cons_ne_nil c cs))
    rw [List.getLast?_eq_some_getLast (List.cons_ne_nil c cs)] at h
    exact absurd (congrArg some (by simpa using hlast)) h
  | case5 c cs hback hback' hall ih =>
    rw [ih]
    cases cs with
    | nil => simp
    | cons d ds => simpa using h

section Entry

variable {slash : List Char} {c : Char} (hlast : slash.getLast? = some c) (hc : c = 's' ∨ c = 'x')
include hlast hc

/-- The line of an artifact ends as the artifact does. -/
theorem getLast_line {d : Char} (hs : d ≠ 's') (hx : d ≠ 'x') :
    ('/' :: escaped slash).getLast? ≠ some d := by
  have hspecial : isSpecial c = false := by rcases hc with rfl | rfl <;> rfl
  rw [List.getLast?_cons, getLast_escaped hlast hspecial]
  rcases hc with rfl | rfl
  · simpa using hs.symm
  · simpa using hx.symm

/-- So no space at its end has to be protected. -/
theorem entry_eq : entry slash = '/' :: escaped slash := by
  rw [entry, protectLastSpace]
  exact if_neg (getLast_line hlast hc (by decide) (by decide))

/-- The line of an artifact is a rule for its path alone. -/
theorem rule_entry : rule? (entry slash) = some ⟨false, false, true, some (slash.map .char)⟩ := by
  have htrim : trimSpaces ('/' :: escaped slash) = '/' :: escaped slash :=
    trimSpaces_eq (getLast_line hlast hc (by decide) (by decide))
  have hpattern : Rule.ofPattern false ('/' :: escaped slash) =
      ⟨false, false, true, some (slash.map .char)⟩ := by
    simp only [Rule.ofPattern, getLast_line hlast hc (d := '/') (by decide) (by decide)]
    simp [marks_escaped, parts_escaped]
  rw [entry_eq hlast hc, rule?, if_neg (getLast_line hlast hc (by decide) (by decide)), htrim]
  exact congrArg some hpattern

/-- It is one line if the path has no line feed. -/
theorem not_mem_entry (h : '\n' ∉ slash) : '\n' ∉ entry slash := by
  rw [entry_eq hlast hc, List.mem_cons, mem_escaped_iff, not_or]
  exact ⟨by decide, h⟩

end Entry

/-- An output ends in one of these characters. -/
theorem exists_last_toSlash {p : Path} (hp : IsListable p) :
    ∃ c, p.toSlash.getLast? = some c ∧ (c = 's' ∨ c = 'x') := by
  obtain ⟨before, kind, hslash⟩ := hp.exists_toSlash
  rw [hslash]
  cases kind with
  | ts => exact ⟨'s', by simp [OutputKind.extension], .inl rfl⟩
  | tsx => exact ⟨'x', by simp [OutputKind.extension], .inr rfl⟩

/-- Characters match the text that they are. -/
theorem matchParts_char (slash cs : List Char) :
    matchParts (slash.map .char) cs = true ↔ slash = cs := by
  induction slash generalizing cs with
  | nil => cases cs <;> simp [matchParts]
  | cons c slash ih =>
    rw [List.map_cons, matchParts, Part.rests]
    cases cs with
    | nil => simp
    | cons d cs =>
      by_cases hd : d = c
      · simp [hd, ih]
      · simp [hd, Ne.symm hd]

/-! ## Decisions -/

/-- The rule for one path. -/
def ruleOf (p : Path) : Rule :=
  ⟨false, false, true, some (p.toSlash.map .char)⟩

/-- It is about that path and no other. -/
theorem matches_ruleOf {p : Path} (hp : p.IsPlain) {names : List (List Char)}
    (hnames : ∀ n ∈ names, Path.IsName n) (isDir : Bool) :
    (ruleOf p).matches names isDir = p.same (Path.ofNames names) := by
  have hplain : (Path.ofNames names).IsPlain := ⟨names, Path.components_ofNames hnames⟩
  have hslash := Path.toSlash_eq (Path.components_ofNames hnames)
  rw [Bool.eq_iff_iff]
  simp only [Rule.matches, ruleOf, Bool.not_false, Bool.or_true, Bool.true_and, Option.any_some,
    if_true, matchParts_char]
  constructor
  · intro h
    exact Path.same_of_toSlash_eq hp hplain (h.trans hslash.symm)
  · intro h
    rw [Path.toSlash, Path.same_iff.mp h, ← Path.toSlash, hslash]

/-- The rules of the region are those of the outputs. -/
theorem rules_region {outputs : List Path}
    (houtputs : ∀ p ∈ outputs, IsListable p ∧ '\n' ∉ p.toSlash) :
    rules (region outputs) = outputs.map ruleOf := by
  have hentries : rules (outputs.flatMap fun p => entry p.toSlash ++ ['\n']) =
      outputs.map ruleOf := by
    induction outputs with
    | nil => exact rules_nil
    | cons p outputs ih =>
      obtain ⟨⟨hp, hfeed⟩, houtputs⟩ := List.forall_mem_cons.mp houtputs
      obtain ⟨c, hlast, hc⟩ := exists_last_toSlash hp
      rw [List.flatMap_cons, List.append_assoc, List.singleton_append, rules_append,
        rules_line (not_mem_entry hlast hc hfeed), rule_entry hlast hc, ih houtputs]
      rfl
  have hfirst : rules firstSentinel = [] := by decide
  have hsecond : rules secondSentinel = [] := by decide
  rw [region, List.append_assoc, List.cons_append, rules_append, rules_append, hentries, hfirst,
    hsecond]
  rfl

/-- What the last rules say counts. -/
theorem verdict_append (a b : List Rule) (names : List (List Char)) (isDir : Bool) :
    verdict? (a ++ b) names isDir = (verdict? b names isDir).or (verdict? a names isDir) := by
  simp [verdict?, List.find?_append, Option.map_or]

/-- The region ignores the outputs, and says nothing of any other path. -/
theorem verdict_region {outputs : PathSet} (houtputs : ∀ p ∈ outputs.paths, p.IsPlain)
    {names : List (List Char)} (hnames : ∀ n ∈ names, Path.IsName n) (isDir : Bool) :
    verdict? (outputs.paths.map ruleOf) names isDir =
      if outputs.contains (Path.ofNames names) then some true else none := by
  have hmatches {p : Path} (hp : p ∈ outputs.paths) :
      (ruleOf p).matches names isDir = p.same (Path.ofNames names) :=
    matches_ruleOf (houtputs p hp) hnames isDir
  rw [verdict?]
  cases hfind : (outputs.paths.map ruleOf).reverse.find? fun r => r.matches names isDir with
  | none =>
    have hnone : outputs.contains (Path.ofNames names) = false := by
      refine PathSet.contains_eq_false_iff.mpr fun p hp => ?_
      rw [← hmatches hp]
      simpa using List.find?_eq_none.mp hfind (ruleOf p) (by simpa using ⟨p, hp, rfl⟩)
    simp [hnone]
  | some r =>
    obtain ⟨p, hp, rfl⟩ := List.mem_map.mp (List.mem_reverse.mp (List.mem_of_find?_eq_some hfind))
    have hsame : p.same (Path.ofNames names) = true := by
      rw [← hmatches hp]
      exact List.find?_some (p := fun r : Rule => r.matches names isDir) hfind
    rw [if_pos (PathSet.contains_iff.mpr ⟨p, hp, hsame⟩)]
    rfl

end ArtifactSync.IgnoreRules
