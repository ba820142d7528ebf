import ArtifactSync.Proofs.Path.Inner

/-!
# The laws of outputs

The output of a path with a file name lies where the path does and carries the extension of outputs,
a second replacement changes nothing, and spellings of one path have the same output. All of this is
so unless the name is two dots and an extension (`IsDotted`). Such a name has the stem `.`, and where
a text ends in the name, the cut in front of the replacement leaves `..`, which is no name any more.
`output_laws` says which law fails for which spelling. Two laws know no exception: no output is a
source, and different sources have different outputs.
-/

namespace ArtifactSync.Artifact

open Path

/-- A name whose stem is a dot: two dots and an extension. -/
def IsDotted (name : List Char) : Prop :=
  ∃ extension, name = '.' :: '.' :: extension ∧ extension ≠ [] ∧ '.' ∉ extension

/-- The file name is dotted, and the text ends in it. -/
def EndsDotted (p : Path) : Prop :=
  ∃ name, p.fileName? = some name ∧ IsDotted name ∧ name <:+ p.chars

/-- The file name is dotted, and separators or `.` stand behind it. -/
def TrailsDotted (p : Path) : Prop :=
  ∃ name, p.fileName? = some name ∧ IsDotted name ∧ ¬name <:+ p.chars

/-! ## Stems -/

section Name

variable {name : List Char} (hmakes : isEmptyPiece name = false)
include hmakes

/-- The stem of a name is a part of it that is not empty. -/
theorem stem_spec : (splitName name).1 ≠ [] ∧ (splitName name).1 <+: name := by
  rcases hsplit : splitName name with ⟨stem, _ | old⟩
  · obtain rfl := stem_of_no_extension hsplit
    refine ⟨?_, List.prefix_refl _⟩
    rintro rfl
    cases hmakes
  · obtain ⟨rfl, hstem, -, -⟩ := eq_of_splitName hsplit
    exact ⟨hstem, List.prefix_append ..⟩

/-- The stem of a name is a dot exactly if the name is dotted. -/
theorem stem_eq_dot_iff : (splitName name).1 = ['.'] ↔ IsDotted name := by
  constructor
  · intro h
    rcases hsplit : splitName name with ⟨stem, _ | old⟩
    · rw [hsplit] at h
      rw [← stem_of_no_extension hsplit, show stem = ['.'] from h] at hmakes
      cases hmakes
    · rw [hsplit] at h
      obtain rfl : stem = ['.'] := h
      obtain ⟨rfl, -, hdot, hup⟩ := eq_of_splitName hsplit
      refine ⟨old, rfl, ?_, hdot⟩
      rintro rfl
      exact hup rfl
  · rintro ⟨extension, rfl, hne, hdot⟩
    have hup : ['.'] ++ '.' :: extension ≠ ['.', '.'] := by simpa using hne
    rw [show '.' :: '.' :: extension = ['.'] ++ '.' :: extension from rfl,
      splitName_append (by simp) hdot hup]

omit hmakes in
/-- A dotted name does not end in a dot. -/
theorem IsDotted.getLast_ne (h : IsDotted name) : name.getLast? ≠ some '.' := by
  obtain ⟨extension, rfl, hne, hdot⟩ := h
  intro hlast
  rw [show '.' :: '.' :: extension = ['.', '.'] ++ extension from rfl,
    List.getLast?_append_of_ne_nil _ hne] at hlast
  exact hdot (List.mem_of_getLast? hlast)

end Name

/-- The stem with the extension of outputs splits into the two. -/
theorem splitName_output {stem : List Char} (hstem : stem ≠ []) (kind : OutputKind) :
    stem ++ '.' :: kind.extension ≠ ['.', '.'] ∧
      splitName (stem ++ '.' :: kind.extension) = (stem, some kind.extension) := by
  have hup : stem ++ '.' :: kind.extension ≠ ['.', '.'] := by
    rw [Ne, append_dot_eq_up hstem]
    rintro ⟨-, hnil⟩
    cases kind <;> cases hnil
  exact ⟨hup, splitName_append hstem (by cases kind <;> decide) hup⟩

/-! ## The output of a named path -/

section Cut

variable {front behind : List (List Char)} {name : List Char} (h : IsCut front name behind)
  (hup : name ≠ ['.', '.']) (kind : OutputKind)
include h hup

omit hup in
/-- The last piece of an output makes a component. -/
theorem isCut_outputPiece : IsCut front (outputPiece (splitName name).1 behind kind) [] := by
  obtain ⟨hstem, hpart⟩ := stem_spec h.last_makes
  have hslash : '/' ∉ (splitName name).1 := fun hs => h.last_free (hpart.subset hs)
  unfold outputPiece
  split
  · exact h.replace (by decide) (by decide)
  · refine h.replace ?_ (isEmptyPiece_append_dot hstem)
    cases kind <;> simp [OutputKind.extension, hslash]

/-- The output of a named path has another last piece, and nothing behind it. -/
theorem output_ofName : output (ofCut front name behind) kind =
    ofCut front (outputPiece (splitName name).1 behind kind) [] := by
  rcases hsplit : splitName name with ⟨stem, _ | old⟩
  · have hstem := stem_of_no_extension hsplit
    have hne : ¬(behind = [] ∧ stem = ['.']) := by
      rintro ⟨-, hdot⟩
      have hmakes := h.last_makes
      rw [← hstem, hdot] at hmakes
      cases hmakes
    rw [output, withExtension_ofCut_none h hup hsplit, outputPiece, if_neg hne, hstem]
  · obtain ⟨rfl, hstem, hdot, -⟩ := eq_of_splitName hsplit
    exact withExtension_ofCut h hstem hdot hup kind.extension

/-- The components of that output. -/
theorem components_output_ofName : (output (ofCut front name behind) kind).components =
    frontComponents front ++ [if behind = [] ∧ (splitName name).1 = ['.'] then .up
      else .name ((splitName name).1 ++ '.' :: kind.extension)] := by
  have hstem := (stem_spec h.last_makes).1
  rw [output_ofName h hup, components_ofCut (isCut_outputPiece h kind), outputPiece]
  split
  · rfl
  · rw [ofPiece_of_ne (isEmptyPiece_append_dot hstem) (splitName_output hstem kind).1]
    rfl

/-- The extension of that output. -/
theorem extension_output_ofName : (output (ofCut front name behind) kind).extension? =
    if behind = [] ∧ (splitName name).1 = ['.'] then none else some kind.extension := by
  rw [extension?, fileName?, components_output_ofName h hup, List.getLast?_concat]
  split
  · rfl
  · exact congrArg Prod.snd (splitName_output (stem_spec h.last_makes).1 kind).2

/-- The output of that output has the last piece that a text with nothing behind the name gets. -/
theorem output_output_ofName : output (output (ofCut front name behind) kind) kind =
    ofCut front (outputPiece (splitName name).1 [] kind) [] := by
  have hcut := isCut_outputPiece h kind
  have hstem := (stem_spec h.last_makes).1
  rw [output_ofName h hup]
  by_cases hdot : behind = [] ∧ (splitName name).1 = ['.']
  · -- what ends in `..` takes no extension
    rw [outputPiece, if_pos hdot] at hcut ⊢
    have hnone : (ofCut front ['.', '.'] []).extension? = none := by
      rw [extension?, fileName_ofCut hcut, if_pos rfl]
      rfl
    rw [output, withExtension, hnone, outputPiece, if_pos ⟨rfl, hdot.2⟩]
    exact setExtension_ofCut_up hcut kind.extension
  · obtain ⟨hnotUp, hsplit⟩ := splitName_output hstem kind
    rw [outputPiece, if_neg hdot] at hcut ⊢
    rw [output_ofName hcut hnotUp, hsplit]

/-- The path ends in a dotted name when nothing stands behind a name with the stem `.`. -/
theorem endsDotted_iff :
    EndsDotted (ofCut front name behind) ↔ behind = [] ∧ (splitName name).1 = ['.'] := by
  rw [EndsDotted, fileName_ofCut h, if_neg hup, stem_eq_dot_iff h.last_makes]
  constructor
  · rintro ⟨_, hname, hdotted, hsuffix⟩
    obtain rfl := Option.some.inj hname
    exact ⟨(suffix_ofCut_iff h hdotted.getLast_ne).mp hsuffix, hdotted⟩
  · rintro ⟨hbehind, hdotted⟩
    exact ⟨name, rfl, hdotted, (suffix_ofCut_iff h hdotted.getLast_ne).mpr hbehind⟩

/-- It has a dotted name with more behind it when something stands behind a name with that stem. -/
theorem trailsDotted_iff :
    TrailsDotted (ofCut front name behind) ↔ behind ≠ [] ∧ (splitName name).1 = ['.'] := by
  rw [TrailsDotted, fileName_ofCut h, if_neg hup, stem_eq_dot_iff h.last_makes]
  constructor
  · rintro ⟨_, hname, hdotted, hsuffix⟩
    obtain rfl := Option.some.inj hname
    exact ⟨fun hbehind => hsuffix ((suffix_ofCut_iff h hdotted.getLast_ne).mpr hbehind), hdotted⟩
  · rintro ⟨hbehind, hdotted⟩
    exact ⟨name, rfl, hdotted, fun hsuffix =>
      hbehind ((suffix_ofCut_iff h hdotted.getLast_ne).mp hsuffix)⟩

end Cut

/-- A path without a file name is its own output. -/
theorem output_of_no_name {p : Path} (h : p.fileName? = none) (kind : OutputKind) :
    output p kind = p := by
  rw [output, withExtension, extension?, h, Option.bind_none]
  simp only [setExtension, h, Option.isNone_none, if_true]
  cases p.cutLast? <;> rfl

/-! ## The laws -/

section Laws

variable {p q : Path} (kind : OutputKind)

/-- Spellings of one path have the same output unless just one of them ends in a dotted name. -/
theorem output_congr_iff (h : p.same q = true) :
    (output p kind).same (output q kind) = true ↔ (EndsDotted p ↔ EndsDotted q) := by
  have hnames := fileName_eq_of_same h
  cases hp : p.fileName? with
  | none =>
    have hq : q.fileName? = none := by rw [← hnames, hp]
    rw [output_of_no_name hp, output_of_no_name hq]
    simp [h, EndsDotted, hp, hq]
  | some name =>
    have hq : q.fileName? = some name := by rw [← hnames, hp]
    obtain ⟨front, behind, hcut, rfl, hup⟩ := exists_cut_of_fileName hp
    obtain ⟨front', behind', hcut', rfl, -⟩ := exists_cut_of_fileName hq
    rw [same_iff, components_ofCut hcut, components_ofCut hcut', List.append_left_inj] at h
    rw [endsDotted_iff hcut hup, endsDotted_iff hcut' hup, same_iff,
      components_output_ofName hcut hup, components_output_ofName hcut' hup, h,
      List.append_right_inj, List.singleton_inj]
    by_cases hends : behind = [] ∧ (splitName name).1 = ['.']
    · by_cases hends' : behind' = [] ∧ (splitName name).1 = ['.']
      · simp [hends, hends']
      · rw [if_pos hends, if_neg hends']
        exact ⟨(nomatch ·), fun hiff => absurd (hiff.mp hends) hends'⟩
    · by_cases hends' : behind' = [] ∧ (splitName name).1 = ['.']
      · rw [if_neg hends, if_pos hends']
        exact ⟨(nomatch ·), fun hiff => absurd (hiff.mpr hends') hends⟩
      · simp [hends, hends']

/-- The output of a named path has the extension of outputs unless the path ends in a dotted name. -/
theorem extension_output_iff (h : p.fileName? ≠ none) :
    (output p kind).extension? = some kind.extension ↔ ¬EndsDotted p := by
  obtain ⟨name, hname⟩ := Option.ne_none_iff_exists'.mp h
  obtain ⟨front, behind, hcut, rfl, hup⟩ := exists_cut_of_fileName hname
  rw [endsDotted_iff hcut hup, extension_output_ofName hcut hup]
  split
  · next hends => simp [hends]
  · next hends => simp [hends]

/-- It lies where the path does. -/
theorem dropLast_output (h : p.fileName? ≠ none) :
    (output p kind).components.dropLast = p.components.dropLast := by
  obtain ⟨name, hname⟩ := Option.ne_none_iff_exists'.mp h
  obtain ⟨c, hc, -⟩ := components_output_of_name hname kind
  rw [hc, List.dropLast_concat]

/-- It is no source. -/
theorem isSource_output_of_name (h : p.fileName? ≠ none) : isSource (output p kind) = false := by
  obtain ⟨name, hname⟩ := Option.ne_none_iff_exists'.mp h
  obtain ⟨front, behind, hcut, rfl, hup⟩ := exists_cut_of_fileName hname
  rw [isSource, extension_output_ofName hcut hup]
  split
  · rfl
  · cases kind <;> rfl

/-- A second replacement changes nothing unless something stands behind a dotted name. -/
theorem output_output_iff :
    (output (output p kind) kind).same (output p kind) = true ↔ ¬TrailsDotted p := by
  cases hp : p.fileName? with
  | none =>
    rw [output_of_no_name hp, output_of_no_name hp]
    simp [TrailsDotted, hp]
  | some name =>
    obtain ⟨front, behind, hcut, rfl, hup⟩ := exists_cut_of_fileName hp
    rw [trailsDotted_iff hcut hup, output_output_ofName hcut hup, output_ofName hcut hup]
    by_cases htrails : behind ≠ [] ∧ (splitName name).1 = ['.']
    · -- the second output ends in `..`, and the first one in a name
      have hfirst := isCut_outputPiece hcut kind
      have hsecond : IsCut front ['.', '.'] [] := hcut.replace (by decide) (by decide)
      have hpiece : outputPiece (splitName name).1 [] kind = ['.', '.'] := by
        rw [outputPiece, if_pos ⟨rfl, htrails.2⟩]
      have hdot : ¬(behind = [] ∧ (splitName name).1 = ['.']) := fun hends => htrails.1 hends.1
      have hname : Component.ofPiece? (outputPiece (splitName name).1 behind kind) =
          some (.name ((splitName name).1 ++ '.' :: kind.extension)) := by
        have hstem := (stem_spec hcut.last_makes).1
        rw [outputPiece, if_neg hdot]
        exact ofPiece_of_ne (isEmptyPiece_append_dot hstem) (splitName_output hstem kind).1
      rw [hpiece, same_iff, components_ofCut hsecond, components_ofCut hfirst, hname]
      simp [htrails, Component.ofPiece?]
    · have hpiece : outputPiece (splitName name).1 [] kind =
          outputPiece (splitName name).1 behind kind := by
        unfold outputPiece
        by_cases hbehind : behind = []
        · simp [hbehind]
        · have hstem : (splitName name).1 ≠ ['.'] := fun hdot => htrails ⟨hbehind, hdot⟩
          simp [hstem]
      rw [hpiece]
      simp [same_refl, htrails]

end Laws

/-- The laws of outputs, for all spellings of all paths: spellings of one path have the same output,
the output of a named path has the extension of its kind, lies where the path does and is no source,
a second replacement changes nothing, and different sources have different outputs. The first two
fail exactly where a text ends in a dotted name, for the first if the other spelling does not, and
the one on a second replacement exactly where something stands behind such a name. -/
theorem output_laws (p q : Path) (kind : OutputKind) :
    (p.same q = true →
      ((output p kind).same (output q kind) = true ↔ (EndsDotted p ↔ EndsDotted q))) ∧
    (p.fileName? ≠ none →
      ((output p kind).extension? = some kind.extension ↔ ¬EndsDotted p) ∧
        (output p kind).components.dropLast = p.components.dropLast ∧
        isSource (output p kind) = false) ∧
    ((output (output p kind) kind).same (output p kind) = true ↔ ¬TrailsDotted p) ∧
    (isSource p = true → isSource q = true → (output p kind).same (output q kind) = true →
      p.same q = true) :=
  ⟨output_congr_iff kind, fun h => ⟨extension_output_iff kind h, dropLast_output kind h,
    isSource_output_of_name kind h⟩, output_output_iff kind, same_of_output_same⟩

/-- The source `..civet` has the output `..`, which has no extension, while another spelling of it
has the output `..ts`. The output of that one is `..` again. -/
theorem not_lawful_dotted :
    (Path.ofString "..civet").fileName? ≠ none ∧
      (output (.ofString "..civet") .ts).extension? ≠ some OutputKind.ts.extension ∧
      (Path.ofString "..civet").same (.ofString "..civet/") = true ∧
      (output (.ofString "..civet") .ts).same (output (.ofString "..civet/") .ts) = false ∧
      (output (output (.ofString "..civet/") .ts) .ts).same
        (output (.ofString "..civet/") .ts) = false := by
  decide

end ArtifactSync.Artifact
