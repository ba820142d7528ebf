import ArtifactSync.Proofs.Config.EditDistance
import ArtifactSync.Proofs.Glob.Literal
import Mathlib.Data.List.Induction

/-!
# What may have been meant

The suggestion for a name is the first of the names of settings that are nearest to it, if two edits
or fewer lead there (`suggest_eq_some_iff`), so it is the name itself exactly if that is the name of
a setting (`suggest_self_iff`). Texts are compared by their bytes, which tell them apart
(`Text.bytes_injective`).
-/

namespace ArtifactSync

namespace Suggest

/-- The first of some texts that are nearest to a name. -/
def FirstNearest (name : List Char) (texts : List String) (c : String) : Prop :=
  ∃ before behind, texts = before ++ c :: behind ∧
    (∀ other ∈ before, distanceTo name c < distanceTo name other) ∧
    ∀ other ∈ behind, distanceTo name c ≤ distanceTo name other

variable {name : List Char} {texts : List String} {c : String}

/-- No other text is nearer. -/
theorem FirstNearest.le (h : FirstNearest name texts c) {other : String}
    (hother : other ∈ texts) : distanceTo name c ≤ distanceTo name other := by
  obtain ⟨before, behind, rfl, hbefore, hbehind⟩ := h
  rcases List.mem_append.mp hother with hmem | hmem
  · exact (hbefore other hmem).le
  · rcases List.mem_cons.mp hmem with rfl | hmem
    · exact le_rfl
    · exact hbehind other hmem

/-- There is one first nearest text only. -/
theorem FirstNearest.unique {d : String} (hc : FirstNearest name texts c)
    (hd : FirstNearest name texts d) : c = d := by
  have hcd : distanceTo name c ≤ distanceTo name d := by
    obtain ⟨_, _, rfl, -⟩ := hd
    exact hc.le (by simp)
  have hdc : distanceTo name d ≤ distanceTo name c := by
    obtain ⟨_, _, rfl, -⟩ := hc
    exact hd.le (by simp)
  obtain ⟨before, behind, rfl, hbefore, -⟩ := hc
  obtain ⟨before', behind', heq, hbefore', -⟩ := hd
  -- neither can stand in front of the other, since both are nearest
  rcases List.append_eq_append_iff.mp heq with ⟨between, rfl, hrest⟩ | ⟨between, rfl, hrest⟩
  · cases between with
    | nil => exact (List.cons.inj hrest).1
    | cons e between =>
      obtain ⟨rfl, -⟩ := List.cons.inj hrest
      exact absurd (hbefore' c (by simp)) (by omega)
  · cases between with
    | nil => exact (List.cons.inj hrest).1.symm
    | cons e between =>
      obtain ⟨rfl, -⟩ := List.cons.inj hrest
      exact absurd (hbefore d (by simp)) (by omega)

/-- One more text is taken only if it is nearer than the best so far. -/
theorem nearest_concat (name : List Char) (texts : List String) (c : String) :
    nearest? name (texts ++ [c]) = match nearest? name texts with
      | none => some (c, distanceTo name c)
      | some (b, d) =>
        if distanceTo name c < d then some (c, distanceTo name c) else some (b, d) := by
  rw [nearest?, List.foldl_append]
  rfl

/-- Going through the texts keeps the first nearest one, with its distance. -/
theorem nearest_cases (name : List Char) (texts : List String) :
    (texts = [] ∧ nearest? name texts = none) ∨
      ∃ c, nearest? name texts = some (c, distanceTo name c) ∧ FirstNearest name texts c := by
  induction texts using List.reverseRecOn with
  | nil => exact .inl ⟨rfl, rfl⟩
  | append_singleton front last ih =>
    right
    rw [nearest_concat]
    rcases ih with ⟨rfl, hnone⟩ | ⟨best, hbest, hfirst⟩
    · rw [hnone]
      exact ⟨last, rfl, [], [], rfl, by simp, by simp⟩
    · rw [hbest]
      by_cases hlt : distanceTo name last < distanceTo name best
      · refine ⟨last, if_pos hlt, front, [], rfl, fun other hother => ?_, by simp⟩
        exact hlt.trans_le (hfirst.le hother)
      · refine ⟨best, if_neg hlt, ?_⟩
        obtain ⟨before, behind, rfl, hbefore, hbehind⟩ := hfirst
        refine ⟨before, behind ++ [last], by simp, hbefore, fun other hother => ?_⟩
        rcases List.mem_append.mp hother with hmem | hmem
        · exact hbehind other hmem
        · obtain rfl := List.mem_singleton.mp hmem
          exact Nat.le_of_not_lt hlt

/-- There are names of settings, and one of them is the first nearest. -/
theorem exists_firstNearest (name : List Char) : ∃ c,
    nearest? name candidates = some (c, distanceTo name c) ∧ FirstNearest name candidates c := by
  rcases nearest_cases name candidates with ⟨hnil, -⟩ | hfirst
  · cases hnil
  · exact hfirst

/-- What is suggested is the first nearest name of a setting, if it is near enough. -/
theorem suggest_eq_some_iff : suggest? name = some c ↔
    FirstNearest name candidates c ∧ distanceTo name c ≤ 2 := by
  obtain ⟨best, hbest, hfirst⟩ := exists_firstNearest name
  rw [suggest?, hbest, Option.bind_some]
  by_cases hnear : distanceTo name best ≤ 2
  · simp only [if_pos hnear, Option.some.injEq]
    constructor
    · rintro rfl
      exact ⟨hfirst, hnear⟩
    · exact fun h => hfirst.unique h.1
  · simp only [if_neg hnear]
    constructor
    · intro h
      cases h
    · rintro ⟨hc, hle⟩
      exact absurd (hfirst.unique hc ▸ hle) hnear

/-- Nothing is suggested if no name of a setting is near enough. -/
theorem suggest_eq_none_iff :
    suggest? name = none ↔ ∀ c ∈ candidates, 2 < distanceTo name c := by
  obtain ⟨best, hbest, hfirst⟩ := exists_firstNearest name
  rw [suggest?, hbest, Option.bind_some]
  by_cases hnear : distanceTo name best ≤ 2
  · simp only [if_pos hnear]
    obtain ⟨before, behind, heq, -⟩ := hfirst
    constructor
    · intro h
      cases h
    · exact fun h => absurd (h best (by simp [heq])) (by omega)
  · simp only [if_neg hnear, true_iff]
    exact fun c hc => (Nat.lt_of_not_le hnear).trans_le (hfirst.le hc)

/-- A name has no distance to itself alone. -/
theorem distanceTo_eq_zero_iff : distanceTo name c = 0 ↔ name = c.toList := by
  rw [distanceTo, editDistance_eq_zero_iff, Text.bytes_injective.eq_iff]

/-- A name is suggested for itself exactly if a setting has it. -/
theorem suggest_self_iff :
    suggest? name = some (String.ofList name) ↔ String.ofList name ∈ candidates := by
  have hzero : distanceTo name (String.ofList name) = 0 :=
    distanceTo_eq_zero_iff.mpr (String.toList_ofList (l := name)).symm
  rw [suggest_eq_some_iff]
  constructor
  · rintro ⟨⟨before, behind, heq, -⟩, -⟩
    simp [heq]
  · intro hmem
    obtain ⟨best, -, hfirst⟩ := exists_firstNearest name
    have hbest : distanceTo name best = 0 := Nat.le_zero.mp (hzero ▸ hfirst.le hmem)
    have heq : best = String.ofList name := by
      rw [distanceTo_eq_zero_iff.mp hbest, String.ofList_toList]
    exact ⟨heq ▸ hfirst, by omega⟩

/-- The edit distance of two texts is the least number of edits that turn the bytes of the one into
those of the other, so it is a metric on texts. What is suggested for a name is the first of the
names of settings at the least distance, if that is two at most, and nothing otherwise. -/
theorem suggests_nearest :
    (∀ a b : List Char, IsLeast {n | Edits n (Text.bytes a) (Text.bytes b)}
        (editDistance (Text.bytes a) (Text.bytes b))) ∧
      (∀ a b : List Char, editDistance (Text.bytes a) (Text.bytes b) =
        editDistance (Text.bytes b) (Text.bytes a)) ∧
      (∀ a b : List Char, editDistance (Text.bytes a) (Text.bytes b) = 0 ↔ a = b) ∧
      (∀ a b c : List Char, editDistance (Text.bytes a) (Text.bytes c) ≤
        editDistance (Text.bytes a) (Text.bytes b) + editDistance (Text.bytes b) (Text.bytes c)) ∧
      ∀ name : List Char,
        (∀ c, suggest? name = some c ↔
          FirstNearest name candidates c ∧ distanceTo name c ≤ 2) ∧
        (suggest? name = none ↔ ∀ c ∈ candidates, 2 < distanceTo name c) := by
  refine ⟨fun a b => editDistance_isLeast _ _, fun a b => editDistance_comm _ _, fun a b => ?_,
    fun a b c => editDistance_triangle _ _ _, fun name => ⟨fun c => suggest_eq_some_iff,
      suggest_eq_none_iff⟩⟩
  rw [editDistance_eq_zero_iff, Text.bytes_injective.eq_iff]

/-- Two edits lead from `sy` to `tsx` and two to `sync`, which stands behind `tsx`. -/
example : suggest? "sy".toList = some "tsx" := by decide +kernel

end Suggest

end ArtifactSync
