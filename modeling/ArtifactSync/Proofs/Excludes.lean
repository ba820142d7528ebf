import ArtifactSync.Excludes
import ArtifactSync.Proofs.Path.Strip

/-!
# What the excludes say of a tidy path

The excludes of a rooted project answer every question about a tidy path (`isExcluded_tidy`): such a
path has nothing in front that would be cut off, so the rules are asked about the path itself. About
a row of names any excludes answer every question, whatever text they cut off
(`isExcluded_ofNames`).
-/

namespace ArtifactSync.Excludes

open Path

/-- What the rules say about a path: whether it is excluded. -/
def verdict (x : Excludes) (p : Path) (isDir : Bool) : Bool :=
  x.decideUp (p.chars.length + 2) p isDir

/-- Without rules nothing is excluded. -/
theorem decideUp_nil {x : Excludes} (h : x.rules = []) (depth : Nat) (p : Path) (isDir : Bool) :
    x.decideUp depth p isDir = false := by
  have hnone (p : Path) (isDir : Bool) : x.decide? p isDir = none := by simp [decide?, h]
  induction depth generalizing p isDir with
  | zero => rfl
  | succ depth ih =>
    rw [decideUp, hnone]
    cases p.parent? with
    | none => rfl
    | some parent => exact ih parent true

/-- The text that is cut off is that of the root. -/
theorem root_ofPatterns {root : Path} {patterns : List String} {x : Excludes}
    (h : ofPatterns root patterns = .ok x) (hroot : root.isRooted = true) : x.root = root.chars := by
  unfold ofPatterns at h
  split at h
  · cases h
  · split at h
    · cases h
    · cases h
      obtain ⟨cs⟩ := root
      cases cs with
      | nil => cases hroot
      | cons c cs =>
        have hc : c = '/' := by simpa [isRooted] using hroot
        subst hc
        rfl

/-- The excludes of a rooted project cut off a rooted text. -/
theorem head_ofPatterns {root : Path} {patterns : List String} {x : Excludes}
    (h : ofPatterns root patterns = .ok x) (hroot : root.isRooted = true) :
    x.root.head? = some '/' := by
  rw [root_ofPatterns h hroot]
  simpa [isRooted] using hroot

/-- A tidy path does not begin with `./`. -/
theorem dropHere_tidy {p : Path} (h : p.Tidy) : dropHere p.chars = p.chars := by
  have hfirst := h.first
  rw [dropHere, Rule.dropStart?, if_neg]
  · rfl
  · intro hprefix
    obtain ⟨rest, hrest⟩ := List.isPrefixOf_iff_prefix.mp hprefix
    rw [pieces, ← hrest] at hfirst
    simp [Text.split, isEmptyPiece] at hfirst

/-- Nothing is cut off a tidy path. -/
theorem strip_tidy {x : Excludes} {p : Path} (hroot : x.root.head? = some '/') (h : p.Tidy) :
    x.strip p.chars = p.chars := by
  unfold strip
  rw [dropHere_tidy h]
  simp only
  split
  · rfl
  · have hne : x.root.isPrefixOf p.chars = false := by
      by_contra hprefix
      rw [Bool.not_eq_false, List.isPrefixOf_iff_prefix] at hprefix
      obtain ⟨rest, hrest⟩ := hprefix
      have hrooted := h.isRooted
      obtain ⟨cs, hcs⟩ := List.head?_eq_some_iff.mp hroot
      rw [isRooted, ← hrest, hcs] at hrooted
      simp at hrooted
    rw [Rule.dropStart?, if_neg (by simp [hne])]

/-- The excludes of a rooted project answer every question about a tidy path. -/
theorem isExcluded_tidy {x : Excludes} {p : Path} (hroot : x.root.head? = some '/') (h : p.Tidy)
    (isDir : Bool) : x.isExcluded p isDir = .ok (x.verdict p isDir) := by
  unfold isExcluded
  rw [strip_tidy hroot h]
  by_cases hrules : x.rules = []
  · rw [if_pos (.inl hrules), verdict, decideUp_nil hrules]
  · rw [if_neg (by simp [hrules, h.isRooted]), if_neg (by simp [h.isRooted])]
    rfl

/-! ## Rows of names -/

/-- No separator stands beside another one in a row of names. -/
theorem ofNames_ne_slashes {names : List (List Char)} (h : ∀ n ∈ names, IsName n)
    (a b : List Char) : (ofNames names).chars ≠ a ++ '/' :: '/' :: b := by
  intro heq
  have hne : names ≠ [] := by
    rintro rfl
    simp [ofNames] at heq
  -- there would be an empty piece between them, which is no name
  have hpieces := allPieces_ofNames (fun n hn => (h n hn).free) hne
  rw [show ofNames names = ⟨a ++ '/' :: '/' :: b⟩ from congrArg Path.mk heq,
    allPieces_append a ('/' :: b), show '/' :: b = [] ++ '/' :: b from rfl,
    allPieces_append [] b] at hpieces
  exact (h [] (by simp [← hpieces, allPieces, pieces, Text.split])).ne_nil rfl

/-- What is left when a text in front is dropped. -/
theorem dropStart_eq_some_iff {start cs rest : List Char} :
    Rule.dropStart? start cs = some rest ↔ cs = start ++ rest := by
  unfold Rule.dropStart?
  constructor
  · intro h
    split at h
    · next hprefix =>
      obtain ⟨behind, rfl⟩ := List.isPrefixOf_iff_prefix.mp hprefix
      simpa using h
    · cases h
  · rintro rfl
    rw [if_pos (List.isPrefixOf_iff_prefix.mpr (List.prefix_append ..)), List.drop_left]

/-- Whatever is cut off a row of names, what is left is not rooted. -/
theorem isRooted_strip {names : List (List Char)} (h : ∀ n ∈ names, IsName n) (x : Excludes) :
    (Path.mk (x.strip (ofNames names).chars)).isRooted = false := by
  have hnames : (ofNames names).isRooted = false := isRooted_ofNames h
  have hhere : dropHere (ofNames names).chars = (ofNames names).chars := by
    by_cases hne : names = []
    · subst hne
      rfl
    · exact dropHere_tidy (tidy_ofNames h hne)
  unfold strip
  rw [hhere]
  simp only
  split
  · exact hnames
  · split
    · exact hnames
    · next rest hrest =>
      have htext := dropStart_eq_some_iff.mp hrest
      cases hslash : Rule.dropStart? ['/'] rest with
      | none =>
        by_contra hrooted
        rw [Bool.not_eq_false, isRooted, beq_iff_eq, List.head?_eq_some_iff] at hrooted
        obtain ⟨cs, hcs⟩ := hrooted
        rw [dropStart_eq_some_iff.mpr hcs] at hslash
        cases hslash
      | some behind =>
        by_contra hrooted
        rw [Bool.not_eq_false, isRooted, beq_iff_eq, List.head?_eq_some_iff] at hrooted
        obtain ⟨cs, hcs⟩ := hrooted
        -- there would be two separators beside each other behind the text of the root
        refine ofNames_ne_slashes h x.root cs ?_
        rw [htext, dropStart_eq_some_iff.mp hslash, show behind = '/' :: cs from hcs]
        rfl

/-- The excludes answer every question about a row of names, whatever text they cut off. -/
theorem isExcluded_ofNames {names : List (List Char)} (h : ∀ n ∈ names, IsName n) (x : Excludes)
    (isDir : Bool) : ∃ v, x.isExcluded (ofNames names) isDir = .ok v := by
  unfold isExcluded
  split
  · exact ⟨false, rfl⟩
  · rw [if_neg (by rw [isRooted_strip h]; exact Bool.false_ne_true)]
    exact ⟨_, rfl⟩

/-- Where a row of names is excluded, a rule excludes the path along names that it begins with. -/
theorem exists_decide_of_decideUp {x : Excludes} {names : List (List Char)}
    (h : ∀ n ∈ names, IsName n) {depth : Nat} {isDir : Bool}
    (hup : x.decideUp depth (ofNames names) isDir = true) :
    ∃ front isDir, front <+: names ∧ x.decide? (ofNames front) isDir = some true := by
  induction depth generalizing names isDir with
  | zero => cases hup
  | succ depth ih =>
    rw [decideUp] at hup
    split at hup
    · next excluded hdecide => exact ⟨names, isDir, List.prefix_refl _, by rw [hdecide, hup]⟩
    · rcases List.eq_nil_or_concat names with rfl | ⟨front, name, rfl⟩
      · cases hup
      · rw [List.concat_eq_append] at hup h ⊢
        rw [parent_ofNames h] at hup
        obtain ⟨first, isDir', hprefix, hdecide⟩ :=
          ih (fun n hn => h n (List.mem_append_left _ hn)) hup
        exact ⟨first, isDir', hprefix.trans (List.prefix_append ..), hdecide⟩

end ArtifactSync.Excludes
