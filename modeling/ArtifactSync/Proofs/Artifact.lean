import ArtifactSync.Artifact
import ArtifactSync.Proofs.Path.Extension
import Mathlib.Data.List.Basic

/-!
# Sources and their outputs

A source is a path whose name has the extension of sources (`exists_cut_of_isSource`). Its output
lies in the same directory and has the same stem, with the extension of outputs, except for a path
that ends in the name `..civet`: its output ends in `..` (`output_ofCut`). Different sources have
different outputs (`same_of_output_same`). Two spellings of one source have the same output unless
the name is `..civet` and only one of them ends in it (`output_same_iff`).
-/

namespace ArtifactSync

namespace Path

/-- Two texts spell one path when their components are equal. -/
@[simp] theorem same_iff {p q : Path} : p.same q = true ↔ p.components = q.components := by
  simp [same]

/-- Every text spells the path that it spells. -/
theorem same_refl (p : Path) : p.same p = true :=
  same_iff.mpr rfl

/-- Spelling one path is symmetric. -/
theorem same_comm (p q : Path) : p.same q = q.same p := by
  rw [Bool.eq_iff_iff, same_iff, same_iff]
  exact eq_comm

/-- Spellings of one path have the same file name. -/
theorem fileName_eq_of_same {p q : Path} (h : p.same q = true) : p.fileName? = q.fileName? := by
  rw [fileName?, fileName?, same_iff.mp h]

end Path

namespace Artifact

open Path

/-- The name that has no extension to replace where a text ends in it. -/
def dotName : List Char := '.' :: '.' :: sourceExtension

/-- A source has some text. -/
theorem chars_ne_nil_of_isSource {p : Path} (h : isSource p = true) : p.chars ≠ [] := by
  intro hnil
  rw [show p = ⟨[]⟩ from congrArg Path.mk hnil] at h
  revert h
  decide

/-- A source keeps the extension of sources under every spelling. -/
theorem isSource_eq_of_same {p q : Path} (h : p.same q = true) : isSource p = isSource q := by
  rw [isSource, isSource, extension?, extension?, fileName_eq_of_same h]

/-- A source is a text around a name with a stem and the extension of sources. -/
theorem exists_cut_of_isSource {p : Path} (h : isSource p = true) : ∃ front stem behind,
    IsCut front (stem ++ '.' :: sourceExtension) behind ∧ stem ≠ [] ∧
      p = ofCut front (stem ++ '.' :: sourceExtension) behind := by
  have hext : p.extension? = some sourceExtension := by simpa [isSource] using h
  obtain ⟨name, hname, hsplit⟩ := Option.bind_eq_some_iff.mp hext
  obtain ⟨front, behind, hcut, hp, -⟩ := exists_cut_of_fileName hname
  obtain ⟨stem, hs⟩ : ∃ stem, splitName name = (stem, some sourceExtension) :=
    ⟨(splitName name).1, by rw [← hsplit]⟩
  obtain ⟨rfl, hstem, -, -⟩ := eq_of_splitName hs
  exact ⟨front, stem, behind, hcut, hstem, hp⟩

/-- A stem with the extension of sources is an ordinary name. -/
theorem stem_ne_up (stem : List Char) : stem ++ '.' :: sourceExtension ≠ ['.', '.'] := by
  intro h
  have hlen := congrArg List.length h
  simp [sourceExtension] at hlen

/-- The extension of sources has no dot. -/
theorem dot_not_mem_sourceExtension : '.' ∉ sourceExtension := by decide

/-- The last piece of an output. -/
def outputPiece (stem : List Char) (behind : List (List Char)) (kind : OutputKind) : List Char :=
  if behind = [] ∧ stem = ['.'] then ['.', '.'] else stem ++ '.' :: kind.extension

section Cut

variable {front behind : List (List Char)} {stem : List Char}
  (h : IsCut front (stem ++ '.' :: sourceExtension) behind)
include h

/-- The components of a source. -/
theorem components_source : (ofCut front (stem ++ '.' :: sourceExtension) behind).components =
    frontComponents front ++ [.name (stem ++ '.' :: sourceExtension)] := by
  rw [components_ofCut h, ofPiece_of_ne h.last_makes (stem_ne_up stem)]
  rfl

variable (hstem : stem ≠ [])
include hstem

/-- The output of a source stands where the source stands. -/
theorem output_ofCut (kind : OutputKind) :
    output (ofCut front (stem ++ '.' :: sourceExtension) behind) kind =
      ofCut front (outputPiece stem behind kind) [] :=
  withExtension_ofCut h hstem dot_not_mem_sourceExtension (stem_ne_up stem) kind.extension

/-- An output is again a text around a last piece. -/
theorem isCut_output (kind : OutputKind) : IsCut front (outputPiece stem behind kind) [] := by
  have hslash := h.last_free
  simp only [List.mem_append, List.mem_cons, not_or] at hslash
  refine h.replace ?_ ?_
  · unfold outputPiece
    split
    · decide
    · cases kind <;> simp [OutputKind.extension, hslash.1]
  · unfold outputPiece
    split
    · decide
    · exact isEmptyPiece_append_dot hstem

/-- The components of an output. -/
theorem components_output (kind : OutputKind) :
    (output (ofCut front (stem ++ '.' :: sourceExtension) behind) kind).components =
      frontComponents front ++ [if behind = [] ∧ stem = ['.'] then .up
        else .name (stem ++ '.' :: kind.extension)] := by
  rw [output_ofCut h hstem, components_ofCut (isCut_output h hstem kind)]
  unfold outputPiece
  split
  · rfl
  · rw [ofPiece_of_ne (isEmptyPiece_append_dot hstem)]
    · rfl
    · intro hup
      have hlen := congrArg List.length hup
      have := List.length_pos_iff.mpr hstem
      cases kind <;> simp [OutputKind.extension] at hlen

end Cut

/-- A source ends in a name with the extension of sources. -/
theorem getLast_source {p : Path} (h : isSource p = true) : ∃ stem, stem ≠ [] ∧
    p.components.getLast? = some (.name (stem ++ '.' :: sourceExtension)) := by
  obtain ⟨front, stem, behind, hcut, hstem, rfl⟩ := exists_cut_of_isSource h
  refine ⟨stem, hstem, ?_⟩
  rw [components_source hcut]
  exact List.getLast?_concat ..

/-- An output ends in a name with its own extension, or leads to the directory above. -/
theorem getLast_output {p : Path} (h : isSource p = true) (kind : OutputKind) :
    (output p kind).components.getLast? = some .up ∨ ∃ stem, stem ≠ [] ∧
      (output p kind).components.getLast? = some (.name (stem ++ '.' :: kind.extension)) := by
  obtain ⟨front, stem, behind, hcut, hstem, rfl⟩ := exists_cut_of_isSource h
  rw [components_output hcut hstem]
  split
  · exact .inl (List.getLast?_concat ..)
  · exact .inr ⟨stem, hstem, List.getLast?_concat ..⟩

/-- The extensions of sources and of outputs end in different characters. -/
theorem sourceName_ne_outputName (stem stem' : List Char) (kind : OutputKind) :
    stem ++ '.' :: sourceExtension ≠ stem' ++ '.' :: kind.extension := by
  intro h
  have hend := congrArg List.getLast? h
  cases kind <;> simp [sourceExtension, OutputKind.extension] at hend

/-- The output of a source is no source. -/
theorem isSource_output {p : Path} (h : isSource p = true) (kind : OutputKind) :
    isSource (output p kind) = false := by
  by_contra hsource
  obtain ⟨stem, -, hstem⟩ := getLast_source (by simpa using hsource)
  rcases getLast_output h kind with hup | ⟨stem', -, hname⟩
  · rw [hup] at hstem
    cases hstem
  · rw [hname] at hstem
    have hnames := Component.name.inj (Option.some.inj hstem)
    exact sourceName_ne_outputName stem stem' kind hnames.symm

/-- The text behind a last name ends in a separator or a dot. -/
theorem getLast_behindText {behind : List (List Char)} (h : ∀ e ∈ behind, isEmptyPiece e = true)
    (hne : behind ≠ []) :
    (behindText behind).getLast? = some '/' ∨ (behindText behind).getLast? = some '.' := by
  obtain ⟨front, e, rfl⟩ := (List.eq_nil_or_concat behind).resolve_left hne
  have he : e = [] ∨ e = ['.'] := by simpa [isEmptyPiece] using h e (by simp)
  rcases he with rfl | rfl
  · simp [behindText]
  · simp [behindText]

/-- A text around a name that ends in no dot ends in the name when nothing stands behind it. -/
theorem suffix_ofCut_iff {front behind : List (List Char)} {name : List Char}
    (h : IsCut front name behind) (hdot : name.getLast? ≠ some '.') :
    name <:+ (ofCut front name behind).chars ↔ behind = [] := by
  constructor
  · rintro ⟨before, hbefore⟩
    by_contra hne
    have hname : name ≠ [] := by
      rintro rfl
      cases h.last_makes
    have hslash : name.getLast? ≠ some '/' := fun hl => h.last_free (List.mem_of_getLast? hl)
    have hlast : (ofCut front name behind).chars.getLast? = name.getLast? := by
      rw [← hbefore, List.getLast?_append_of_ne_nil _ hname]
    rw [ofCut, List.getLast?_append] at hlast
    rcases getLast_behindText h.behind_empty hne with hl | hl
    · rw [hl, Option.some_or] at hlast
      exact hslash hlast.symm
    · rw [hl, Option.some_or] at hlast
      exact hdot hlast.symm
  · rintro rfl
    exact ⟨frontText front, by simp [ofCut, behindText]⟩

/-- A text around the name `..civet` ends in it when nothing stands behind it. -/
theorem dotName_suffix_iff {front behind : List (List Char)} (h : IsCut front dotName behind) :
    dotName <:+ (ofCut front dotName behind).chars ↔ behind = [] :=
  suffix_ofCut_iff h (by decide)

/-- The last component of an output tells the stem. -/
theorem stem_eq_of_last {stem stem' : List Char} {behind behind' : List (List Char)}
    {kind : OutputKind}
    (h : (if behind = [] ∧ stem = ['.'] then Component.up
        else .name (stem ++ '.' :: kind.extension)) =
      if behind' = [] ∧ stem' = ['.'] then Component.up
        else .name (stem' ++ '.' :: kind.extension)) : stem = stem' := by
  split at h
  · next hd =>
    split at h
    · next hd' => rw [hd.2, hd'.2]
    · cases h
  · split at h
    · cases h
    · simpa using h

/-- Different sources have different outputs. -/
theorem same_of_output_same {p q : Path} {kind : OutputKind} (hp : isSource p = true)
    (hq : isSource q = true) (h : (output p kind).same (output q kind) = true) :
    p.same q = true := by
  obtain ⟨front, stem, behind, hcut, hstem, rfl⟩ := exists_cut_of_isSource hp
  obtain ⟨front', stem', behind', hcut', hstem', rfl⟩ := exists_cut_of_isSource hq
  rw [same_iff, components_output hcut hstem, components_output hcut' hstem'] at h
  rw [same_iff, components_source hcut, components_source hcut']
  obtain ⟨hfront, hlast⟩ := List.append_inj' h rfl
  rw [hfront, stem_eq_of_last (List.singleton_inj.mp hlast)]

/-- Two spellings of a source have the same output unless its name is `..civet` and only one of
them ends in that. -/
theorem output_same_iff {p q : Path} {kind : OutputKind} (hp : isSource p = true)
    (h : p.same q = true) : (output p kind).same (output q kind) = true ↔
      (p.fileName? = some dotName → (dotName <:+ p.chars ↔ dotName <:+ q.chars)) := by
  have hq : isSource q = true := by rw [← isSource_eq_of_same h, hp]
  obtain ⟨front, stem, behind, hcut, hstem, rfl⟩ := exists_cut_of_isSource hp
  obtain ⟨front', stem', behind', hcut', hstem', rfl⟩ := exists_cut_of_isSource hq
  rw [same_iff, components_source hcut, components_source hcut'] at h
  obtain ⟨hfront, hlast⟩ := List.append_inj' h rfl
  have hstems : stem = stem' := by simpa using hlast
  subst hstems
  rw [same_iff, components_output hcut hstem, components_output hcut' hstem', ← hfront,
    fileName_ofCut hcut, if_neg (stem_ne_up stem)]
  by_cases hdot : stem = ['.']
  · subst hdot
    rw [show ['.'] ++ '.' :: sourceExtension = dotName from rfl] at hcut hcut' ⊢
    rw [dotName_suffix_iff hcut, dotName_suffix_iff hcut']
    by_cases hb : behind = []
    · by_cases hb' : behind' = []
      · simp [hb, hb']
      · simp [hb, hb']
    · by_cases hb' : behind' = []
      · simp [hb, hb']
      · simp [hb, hb']
  · have hname : stem ++ '.' :: sourceExtension ≠ dotName := by
      intro hn
      have hn' : stem ++ '.' :: sourceExtension = ['.'] ++ '.' :: sourceExtension := hn
      exact hdot (List.append_cancel_right hn')
    simp [hdot, hname]

end Artifact

end ArtifactSync
