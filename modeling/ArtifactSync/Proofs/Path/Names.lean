import ArtifactSync.Proofs.Path.Join
import Mathlib.Data.List.Basic

/-!
# Rows of names

A row of ordinary names is a path (`ofNames`) whose components are the names (`components_ofNames`),
and walking down along the row is the same as joining the path (`joinAll_eq`).
-/

namespace ArtifactSync.Path

/-- An ordinary name: one that a directory can have an entry under. -/
structure IsName (name : List Char) : Prop where
  makes : isEmptyPiece name = false
  notUp : name ≠ ['.', '.']
  free : '/' ∉ name

instance (name : List Char) : Decidable (IsName name) :=
  decidable_of_iff (isEmptyPiece name = false ∧ name ≠ ['.', '.'] ∧ '/' ∉ name)
    ⟨fun h => ⟨h.1, h.2.1, h.2.2⟩, fun h => ⟨h.makes, h.notUp, h.free⟩⟩

/-- The component of an ordinary name. -/
theorem IsName.ofPiece {name : List Char} (h : IsName name) :
    Component.ofPiece? name = some (.name name) :=
  ofPiece_of_ne h.makes h.notUp

/-- An ordinary name is not empty. -/
theorem IsName.ne_nil {name : List Char} (h : IsName name) : name ≠ [] := by
  rintro rfl
  cases h.makes

/-- The path along a row of names. -/
def ofNames : List (List Char) → Path
  | [] => ⟨[]⟩
  | name :: names => ofPieces name names

/-- Walks down from a path along a row of names. -/
def joinAll (base : Path) (names : List (List Char)) : Path :=
  names.foldl (fun p name => p.join ⟨name⟩) base

section Names

variable {names : List (List Char)}

/-- The pieces of a row of names, or of any texts without separators. -/
theorem allPieces_ofNames (h : ∀ n ∈ names, '/' ∉ n) (hne : names ≠ []) :
    (ofNames names).allPieces = names := by
  cases names with
  | nil => exact absurd rfl hne
  | cons name names =>
    rw [ofNames, allPieces, pieces_ofPieces (h name (by simp)) fun n hn => h n (by simp [hn])]

/-- Names make the components they are. -/
theorem filterMap_ofPiece (h : ∀ n ∈ names, IsName n) :
    names.filterMap Component.ofPiece? = names.map .name := by
  induction names with
  | nil => rfl
  | cons name names ih =>
    rw [List.filterMap_cons_some (h name (by simp)).ofPiece, List.map_cons,
      ih fun n hn => h n (by simp [hn])]

/-- The components of a row of names. -/
theorem components_ofNames (h : ∀ n ∈ names, IsName n) :
    (ofNames names).components = names.map .name := by
  cases names with
  | nil => rfl
  | cons name rest =>
    have hname := h name (by simp)
    have hpieces := allPieces_ofNames (fun n hn => (h n hn).free) (by simp)
    have hchars : (ofNames (name :: rest)).chars ≠ [] := by
      simp [ofNames, ofPieces, hname.ne_nil]
    have hhere : name ≠ ['.'] := by
      rintro rfl
      cases hname.makes
    rw [components_eq_frontComponents hchars, hpieces]
    simp only [frontComponents, if_neg hname.ne_nil, if_neg hhere, hname.ofPiece,
      filterMap_ofPiece fun n hn => h n (List.mem_cons_of_mem name hn)]
    rfl

/-- Different rows of names are different paths. -/
theorem ofNames_inj {other : List (List Char)} (h : ∀ n ∈ names, IsName n)
    (h' : ∀ n ∈ other, IsName n) (hsame : (ofNames names).components = (ofNames other).components) :
    names = other := by
  rw [components_ofNames h, components_ofNames h'] at hsame
  exact List.map_injective_iff.mpr (fun _ _ heq => Component.name.inj heq) hsame

/-- A row of names is not rooted. -/
theorem isRooted_ofNames (h : ∀ n ∈ names, IsName n) : (ofNames names).isRooted = false := by
  cases names with
  | nil => rfl
  | cons name rest =>
    obtain ⟨c, cs, rfl⟩ := List.exists_cons_of_ne_nil (h name (by simp)).ne_nil
    have hfree := (h (c :: cs) (by simp)).free
    simp only [List.mem_cons, not_or] at hfree
    simpa [isRooted, ofNames, ofPieces] using Ne.symm hfree.1

/-- A row of names with one in front. -/
theorem ofNames_cons (name : List Char) (hne : names ≠ []) :
    (ofNames (name :: names)).chars = name ++ '/' :: (ofNames names).chars := by
  cases names with
  | nil => exact absurd rfl hne
  | cons n ns => simp [ofNames, ofPieces]

end Names

/-- A name joined to a base, with a path behind it. -/
theorem join_join {name : List Char} (hname : IsName name) {p : Path} (hp : p.isRooted = false)
    (base : Path) : (base.join ⟨name⟩).join p = base.join ⟨name ++ '/' :: p.chars⟩ := by
  have hroot : (Path.mk name).isRooted = false := by
    have hall : ∀ n ∈ [name], IsName n := by simpa using hname
    simpa [ofNames, ofPieces] using isRooted_ofNames hall
  have hroot' : (Path.mk (name ++ '/' :: p.chars)).isRooted = false := by
    obtain ⟨c, cs, rfl⟩ := List.exists_cons_of_ne_nil hname.ne_nil
    simpa [isRooted] using hroot
  have hlast : name.getLast? ≠ some '/' := fun h => hname.free (List.mem_of_getLast? h)
  have hlead : (Path.mk (base.lead ++ name)).lead = base.lead ++ name ++ ['/'] := by
    rw [lead, if_neg]
    rintro (h | h)
    · exact hname.ne_nil (List.append_eq_nil_iff.mp h).2
    · rw [List.getLast?_append_of_ne_nil _ hname.ne_nil] at h
      exact hlast h
  rw [join_eq_lead hroot, join_eq_lead hp, join_eq_lead hroot', hlead]
  simp

/-- Walking down one name after another is joining the path along the names. -/
theorem joinAll_eq {names : List (List Char)} (h : ∀ n ∈ names, IsName n) (hne : names ≠ [])
    (base : Path) : base.joinAll names = base.join (ofNames names) := by
  induction names generalizing base with
  | nil => exact absurd rfl hne
  | cons name rest ih =>
    have hrest := fun n hn => h n (List.mem_cons_of_mem name hn)
    by_cases hnil : rest = []
    · subst hnil
      simp [joinAll, ofNames, ofPieces]
    · calc base.joinAll (name :: rest) = (base.join ⟨name⟩).joinAll rest := rfl
        _ = (base.join ⟨name⟩).join (ofNames rest) := ih hrest hnil _
        _ = base.join ⟨name ++ '/' :: (ofNames rest).chars⟩ :=
          join_join (h name (by simp)) (isRooted_ofNames hrest) base
        _ = base.join (ofNames (name :: rest)) := by rw [← ofNames_cons name hnil]

end ArtifactSync.Path
