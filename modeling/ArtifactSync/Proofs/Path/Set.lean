import ArtifactSync.Path.Set
import ArtifactSync.Proofs.Artifact
import Mathlib.Data.List.Basic
import Mathlib.Data.List.Pairwise

/-!
# Members of a set of paths

A path is in a set under every spelling or under none. An insertion adds a path and keeps the
spelling of one that is there (`mem_insert`, `contains_insert`), a removal takes it out
(`mem_erase`, `contains_erase`), and a set holds one spelling of each path (`eq_of_same`).
-/

namespace ArtifactSync

/-- The key of a component determines it. -/
theorem Component.key_injective : Function.Injective Component.key := by
  intro c d h
  have hmap : Function.Injective (List.map Char.toNat) :=
    List.map_injective_iff.mpr fun _ _ h => Char.toNat_inj.mp h
  cases c <;> cases d <;> simp [key] at h ⊢
  exact hmap h

namespace Path

/-- Paths with one key are one path. -/
theorem key_eq_iff {p q : Path} : p.key = q.key ↔ p.components = q.components :=
  ⟨fun h => List.map_injective_iff.mpr Component.key_injective h,
    fun h => by rw [key, key, h]⟩

/-- A path does not come before itself, under any spelling. -/
theorem not_before_of_same {p q : Path} (h : p.same q = true) : ¬p.before q := by
  unfold before
  rw [key_eq_iff.mpr (same_iff.mp h)]
  exact List.lt_irrefl _

/-- Of two paths that differ, one comes before the other. -/
theorem before_or_before {p q : Path} (h : ¬p.same q = true) : p.before q ∨ q.before p := by
  rw [same_iff, ← key_eq_iff] at h
  rcases List.le_total p.key q.key with hle | hle
  · rcases List.le_iff_lt_or_eq.mp hle with hlt | heq
    · exact .inl hlt
    · exact absurd heq h
  · rcases List.le_iff_lt_or_eq.mp hle with hlt | heq
    · exact .inr hlt
    · exact absurd heq.symm h

/-- Spelling one path is transitive. -/
theorem same_trans {p q r : Path} (h : p.same q = true) (k : q.same r = true) :
    p.same r = true := by
  rw [same_iff] at *
  rw [h, k]

/-- The members after an insertion into paths of which none is spelled alike. -/
theorem mem_insertInto_of_fresh {p x : Path} {qs : List Path}
    (fresh : ∀ q ∈ qs, ¬q.same p = true) : x ∈ insertInto p qs ↔ x = p ∨ x ∈ qs := by
  induction qs with
  | nil => simp [insertInto]
  | cons q qs ih =>
    obtain ⟨hq, hqs⟩ := List.forall_mem_cons.mp fresh
    unfold insertInto
    by_cases lt : p.before q
    · rw [if_pos lt, List.mem_cons]
    · -- the order is total up to spelling
      have gt : q.before p := (before_or_before hq).resolve_right lt
      rw [if_neg lt, if_pos gt, List.mem_cons, ih hqs, List.mem_cons]
      exact or_left_comm

/-- Inserting a path that is not spelled among others adds one path. -/
theorem length_insertInto_of_fresh {p : Path} {qs : List Path}
    (fresh : ∀ q ∈ qs, ¬q.same p = true) : (insertInto p qs).length = qs.length + 1 := by
  induction qs with
  | nil => rfl
  | cons q qs ih =>
    obtain ⟨hq, hqs⟩ := List.forall_mem_cons.mp fresh
    unfold insertInto
    by_cases lt : p.before q
    · rw [if_pos lt, List.length_cons]
    · have gt : q.before p := (before_or_before hq).resolve_right lt
      rw [if_neg lt, if_pos gt, List.length_cons, ih hqs, List.length_cons]

/-- An insertion does nothing to paths of which one is spelled alike. -/
theorem insertInto_of_same {p q : Path} {qs : List Path} (h : qs.Pairwise before) (hq : q ∈ qs)
    (hsame : q.same p = true) : insertInto p qs = qs := by
  induction qs with
  | nil => cases hq
  | cons r qs ih =>
    obtain ⟨hr, hqs⟩ := List.pairwise_cons.mp h
    unfold insertInto
    rcases List.mem_cons.mp hq with rfl | hq
    · rw [if_neg (not_before_of_same (by rwa [same_comm])), if_neg (not_before_of_same hsame)]
    · have hrp : r.before p := by
        unfold before
        rw [← key_eq_iff.mpr (same_iff.mp hsame)]
        exact hr q hq
      have hpr : ¬p.before r := fun hb =>
        not_before_of_same (same_refl p) (before_trans hb hrp)
      rw [if_neg hpr, if_pos hrp, ih hqs hq]

/-- The members after an insertion into increasing paths. -/
theorem mem_insertInto_iff {p x : Path} {qs : List Path} (h : qs.Pairwise before) :
    x ∈ insertInto p qs ↔ (x = p ∧ ∀ q ∈ qs, ¬q.same p = true) ∨ x ∈ qs := by
  by_cases fresh : ∀ q ∈ qs, ¬q.same p = true
  · rw [mem_insertInto_of_fresh fresh]
    exact or_congr_left ⟨fun hx => ⟨hx, fresh⟩, And.left⟩
  · simp only [not_forall, not_not, exists_prop] at fresh
    obtain ⟨q, hq, hsame⟩ := fresh
    rw [insertInto_of_same h hq hsame]
    exact ⟨.inr, fun hx => hx.resolve_left fun hnew => hnew.2 q hq hsame⟩

end Path

namespace PathSet

open Path

/-- A path is in a set when some spelling of it is listed. -/
theorem contains_iff {s : PathSet} {p : Path} :
    s.contains p = true ↔ ∃ q ∈ s.paths, q.same p = true := by
  simp [contains]

/-- A path is not in a set when no listed path spells it. -/
theorem contains_eq_false_iff {s : PathSet} {p : Path} :
    s.contains p = false ↔ ∀ q ∈ s.paths, q.same p = false := by
  simp only [contains, List.any_eq_false, Bool.not_eq_true]

/-- A listed path is in the set. -/
theorem contains_of_mem {s : PathSet} {p : Path} (h : p ∈ s.paths) : s.contains p = true :=
  contains_iff.mpr ⟨p, h, same_refl p⟩

/-- A path is in a set under every spelling. -/
theorem contains_of_same {s : PathSet} {p q : Path} (h : s.contains p = true)
    (hpq : p.same q = true) : s.contains q = true := by
  obtain ⟨r, hr, hrp⟩ := contains_iff.mp h
  exact contains_iff.mpr ⟨r, hr, same_trans hrp hpq⟩

/-- A set lists one spelling of each path. -/
theorem eq_of_same {s : PathSet} {p q : Path} (hp : p ∈ s.paths) (hq : q ∈ s.paths)
    (h : p.same q = true) : p = q := by
  by_contra hne
  have hsymm : Std.Symm fun x y : Path => x.before y ∨ y.before x := ⟨fun _ _ => Or.symm⟩
  have heither : s.paths.Pairwise fun x y => x.before y ∨ y.before x :=
    s.increasing.imp fun hb => Or.inl hb
  have hrel : p.before q ∨ q.before p := heither.forall hp hq hne
  rcases hrel with hb | hb
  · exact not_before_of_same h hb
  · exact not_before_of_same (by rw [same_comm, h]) hb

/-- The empty set has no members. -/
@[simp] theorem contains_empty (p : Path) : empty.contains p = false := rfl

/-- The listed paths after an insertion. -/
theorem mem_insert {s : PathSet} {p x : Path} :
    x ∈ (s.insert p).paths ↔ (x = p ∧ s.contains p = false) ∨ x ∈ s.paths := by
  rw [insert, mem_insertInto_iff s.increasing]
  simp [contains]

/-- The members after an insertion. -/
theorem contains_insert {s : PathSet} {p q : Path} :
    (s.insert p).contains q = true ↔ p.same q = true ∨ s.contains q = true := by
  constructor
  · intro h
    obtain ⟨x, hx, hsame⟩ := contains_iff.mp h
    rcases mem_insert.mp hx with ⟨rfl, -⟩ | hx
    · exact .inl hsame
    · exact .inr (contains_iff.mpr ⟨x, hx, hsame⟩)
  · rintro (hsame | h)
    · by_cases hp : s.contains p = true
      · obtain ⟨x, hx, hxp⟩ := contains_iff.mp hp
        exact contains_iff.mpr ⟨x, mem_insert.mpr (.inr hx), same_trans hxp hsame⟩
      · exact contains_iff.mpr ⟨p, mem_insert.mpr (.inl ⟨rfl, by simpa using hp⟩), hsame⟩
    · obtain ⟨x, hx, hsame⟩ := contains_iff.mp h
      exact contains_iff.mpr ⟨x, mem_insert.mpr (.inr hx), hsame⟩

/-- A path that is no member is one more. -/
theorem size_insert {s : PathSet} {p : Path} (h : s.contains p = false) :
    (s.insert p).size = s.size + 1 :=
  length_insertInto_of_fresh fun q hq => by rw [contains_eq_false_iff.mp h q hq]; simp

/-- A member is not added again. -/
theorem insert_of_contains {s : PathSet} {p : Path} (h : s.contains p = true) : s.insert p = s := by
  obtain ⟨q, hq, hsame⟩ := contains_iff.mp h
  cases s
  simp only [insert, PathSet.mk.injEq]
  exact insertInto_of_same ‹_› hq hsame

/-- The listed paths after a removal. -/
theorem mem_erase {s : PathSet} {p x : Path} :
    x ∈ (s.erase p).paths ↔ x ∈ s.paths ∧ x.same p = false := by
  simp [erase, filter]

/-- The members after a removal. -/
theorem contains_erase {s : PathSet} {p q : Path} :
    (s.erase p).contains q = true ↔ s.contains q = true ∧ p.same q = false := by
  constructor
  · intro h
    obtain ⟨x, hx, hsame⟩ := contains_iff.mp h
    obtain ⟨hx, hne⟩ := mem_erase.mp hx
    refine ⟨contains_iff.mpr ⟨x, hx, hsame⟩, ?_⟩
    by_contra hpq
    rw [Bool.not_eq_false, same_comm] at hpq
    rw [same_trans hsame hpq] at hne
    cases hne
  · rintro ⟨h, hne⟩
    obtain ⟨x, hx, hsame⟩ := contains_iff.mp h
    refine contains_iff.mpr ⟨x, mem_erase.mpr ⟨hx, ?_⟩, hsame⟩
    by_contra hxp
    rw [Bool.not_eq_false, same_comm] at hxp
    rw [same_trans hxp hsame] at hne
    cases hne

end PathSet

end ArtifactSync
