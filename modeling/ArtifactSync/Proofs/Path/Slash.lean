import ArtifactSync.Artifact
import ArtifactSync.Proofs.Path.Extension
import ArtifactSync.Proofs.Path.Names
import ArtifactSync.Proofs.Path.Set

/-!
# Paths in side files

Side files show a path as its names with separators between them. For a path that has nothing but
ordinary names this is the text of the row of names (`toSlash_eq`), so different paths are shown
differently (`same_of_toSlash_eq`).
-/

namespace ArtifactSync

namespace Path

/-- A path of ordinary names. -/
def IsPlain (p : Path) : Prop :=
  ∃ names : List (List Char), p.components = names.map Component.name

/-- A name among the components of a path is an ordinary one. -/
theorem isName_of_mem_components {p : Path} {name : List Char} (h : .name name ∈ p.components) :
    IsName name := by
  have hpiece {piece : List Char} (hmem : piece ∈ p.allPieces)
      (hof : Component.ofPiece? piece = some (.name name)) : IsName name := by
    obtain ⟨rfl, hmakes, hup⟩ := eq_of_ofPiece_eq_name hof
    exact ⟨hmakes, hup, slash_not_mem_of_mem_allPieces hmem⟩
  rw [components, List.mem_append] at h
  rcases h with h | h
  · unfold leading at h
    split at h
    · split at h <;> simp at h
    · split at h
      · simp at h
      · exact hpiece List.mem_cons_self (by simpa using h)
  · obtain ⟨piece, hmem, hof⟩ := List.mem_filterMap.mp h
    exact hpiece (List.mem_cons_of_mem _ hmem) hof

/-- Any path is shown as the row of its ordinary names. -/
theorem toSlash_eq_ofNames (p : Path) :
    p.toSlash = (ofNames (p.components.filterMap Component.name?)).chars := by
  rw [toSlash]
  cases p.components.filterMap Component.name? <;> rfl

section Plain

variable {p : Path} {names : List (List Char)} (h : p.components = names.map Component.name)
include h

/-- The names of a plain path are ordinary. -/
theorem isName_of_plain : ∀ n ∈ names, IsName n :=
  fun _ hn => isName_of_mem_components (p := p) (h ▸ List.mem_map_of_mem hn)

/-- A plain path is shown as the row of its names. -/
theorem toSlash_eq : p.toSlash = (ofNames names).chars := by
  have hnames : p.components.filterMap Component.name? = names := by
    rw [h, List.filterMap_map]
    exact List.filterMap_some
  rw [toSlash_eq_ofNames, hnames]

/-- Read as a path, what is shown has the components of the path. -/
theorem components_toSlash : (Path.mk p.toSlash).components = p.components := by
  rw [toSlash_eq h, h]
  exact components_ofNames (isName_of_plain h)

end Plain

/-- These are names that a directory can have entries under. -/
theorem isName_of_mem_names {p : Path} {n : List Char}
    (h : n ∈ p.components.filterMap Component.name?) : IsName n := by
  obtain ⟨c, hc, hname⟩ := List.mem_filterMap.mp h
  cases c with
  | name m =>
    obtain rfl : m = n := Option.some.inj hname
    exact isName_of_mem_components hc
  | root | here | up => cases hname

/-- Paths are shown alike exactly if they have the same ordinary names. -/
theorem toSlash_eq_iff {p q : Path} : p.toSlash = q.toSlash ↔
    p.components.filterMap Component.name? = q.components.filterMap Component.name? := by
  constructor
  · intro h
    rw [toSlash_eq_ofNames, toSlash_eq_ofNames] at h
    have hpath := congrArg components (congrArg Path.mk h)
    exact ofNames_inj (fun _ => isName_of_mem_names) (fun _ => isName_of_mem_names) hpath
  · intro h
    rw [toSlash_eq_ofNames, toSlash_eq_ofNames, h]

/-- Plain paths that are shown alike are one path. -/
theorem same_of_toSlash_eq {p q : Path} (hp : p.IsPlain) (hq : q.IsPlain)
    (h : p.toSlash = q.toSlash) : p.same q = true := by
  obtain ⟨names, hnames⟩ := hp
  obtain ⟨others, hothers⟩ := hq
  rw [same_iff, ← components_toSlash hnames, h, components_toSlash hothers]

/-- No two separators are shown side by side. -/
theorem not_slashes_toSlash (p : Path) : ¬ ['/', '/'] <:+: p.toSlash := by
  rintro ⟨a, b, hab⟩
  rw [toSlash_eq_ofNames, List.append_assoc] at hab
  have hne : p.components.filterMap Component.name? ≠ [] := by
    intro hnil
    rw [hnil] at hab
    exact absurd hab (by simp [ofNames])
  -- there is a piece between the two, and it is empty
  have hmem : [] ∈ (ofNames (p.components.filterMap Component.name?)).allPieces := by
    rw [show ofNames _ = ⟨a ++ '/' :: ('/' :: b)⟩ from congrArg Path.mk hab.symm, allPieces_append]
    exact List.mem_append_right _ List.mem_cons_self
  rw [allPieces_ofNames (fun n hn => (isName_of_mem_names hn).free) hne] at hmem
  exact (isName_of_mem_names hmem).ne_nil rfl

/-- A row of names ends in the last one. -/
theorem exists_chars_ofNames (front : List (List Char)) (name : List Char) :
    ∃ before, (ofNames (front ++ [name])).chars = before ++ name := by
  induction front with
  | nil => exact ⟨[], by simp [ofNames, ofPieces]⟩
  | cons first front ih =>
    obtain ⟨before, hbefore⟩ := ih
    exact ⟨first ++ '/' :: before, by rw [List.cons_append, ofNames_cons _ (by simp), hbefore]; simp⟩

/-- A path with an extension is shown with it at the end. -/
theorem exists_toSlash_of_extension {p : Path} {extension : List Char}
    (h : p.extension? = some extension) : ∃ before, p.toSlash = before ++ '.' :: extension := by
  obtain ⟨name, hname, hsplit⟩ := Option.bind_eq_some_iff.mp h
  obtain ⟨stem, hs⟩ : ∃ stem, splitName name = (stem, some extension) :=
    ⟨(splitName name).1, by rw [← hsplit]⟩
  obtain ⟨rfl, -⟩ := eq_of_splitName hs
  obtain ⟨c, hlast, hc⟩ := Option.bind_eq_some_iff.mp hname
  obtain ⟨front, hfront⟩ := List.getLast?_eq_some_iff.mp hlast
  obtain ⟨before, hbefore⟩ := exists_chars_ofNames (front.filterMap Component.name?)
    (stem ++ '.' :: extension)
  refine ⟨before ++ stem, ?_⟩
  rw [toSlash_eq_ofNames, hfront, List.filterMap_append, List.filterMap_cons_some hc,
    List.filterMap_nil, hbefore, List.append_assoc]

end Path

/-- An output that a side file can list: a path of ordinary names with the extension of an
artifact. -/
structure IsListable (p : Path) : Prop where
  plain : p.IsPlain
  extension : ∃ kind : OutputKind, p.extension? = some kind.extension

/-- Such an output is shown with the extension at the end. -/
theorem IsListable.exists_toSlash {p : Path} (h : IsListable p) :
    ∃ before, ∃ kind : OutputKind, p.toSlash = before ++ '.' :: kind.extension := by
  obtain ⟨-, kind, hext⟩ := h
  obtain ⟨before, hslash⟩ := Path.exists_toSlash_of_extension hext
  exact ⟨before, kind, hslash⟩

/-- The outputs of a set are shown differently. -/
theorem nodup_toSlash {s : PathSet} (h : ∀ p ∈ s.paths, p.IsPlain) :
    (s.paths.map Path.toSlash).Nodup := by
  refine List.pairwise_map.mpr (s.increasing.imp_of_mem fun hp hq hbefore heq => ?_)
  exact Path.not_before_of_same (Path.same_of_toSlash_eq (h _ hp) (h _ hq) heq) hbefore

end ArtifactSync
