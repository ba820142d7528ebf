import ArtifactSync.Proofs.Path.Set
import Mathlib.Data.List.Sort

/-!
# Edits of a set of paths

Sets with the same members are the same (`ext_mem`), so insertions and removals of different paths
may be made in either order. A `SetEdit` is one insertion, or removals of several paths, or nothing;
edits that reach different paths commute (`apply_comm`).
-/

namespace ArtifactSync

open Path

namespace PathSet

/-- Sets that list the same spellings are the same. -/
theorem ext_mem {s t : PathSet} (h : ∀ x, x ∈ s.paths ↔ x ∈ t.paths) : s = t := by
  have hnodup (u : PathSet) : u.paths.Nodup := by
    refine u.increasing.imp ?_
    rintro p q hb rfl
    exact not_before_of_same (same_refl p) hb
  have hperm : s.paths.Perm t.paths :=
    (List.perm_ext_iff_of_nodup (hnodup s) (hnodup t)).mpr fun x => h x
  have hpaths : s.paths = t.paths := hperm.eq_of_pairwise
    (fun p q _ _ hpq hqp => absurd (before_trans hpq hqp) (not_before_of_same (same_refl p)))
    s.increasing t.increasing
  cases s
  cases t
  cases hpaths
  rfl

/-- Different paths may be added in either order. -/
theorem insert_comm (s : PathSet) {p q : Path} (h : p.same q = false) :
    (s.insert p).insert q = (s.insert q).insert p := by
  have hfresh (a b : Path) (hab : a.same b = false) :
      (s.insert a).contains b = false ↔ s.contains b = false := by
    rw [← Bool.not_eq_true, ← Bool.not_eq_true, contains_insert, hab]
    simp
  refine ext_mem fun x => ?_
  rw [mem_insert, mem_insert, mem_insert, mem_insert, hfresh p q h,
    hfresh q p (by rwa [same_comm])]
  exact or_left_comm

/-- A path may be taken away before or after another one is added. -/
theorem erase_insert (s : PathSet) {p q : Path} (h : p.same q = false) :
    (s.insert p).erase q = (s.erase q).insert p := by
  have hfresh : (s.erase q).contains p = false ↔ s.contains p = false := by
    rw [← Bool.not_eq_true, ← Bool.not_eq_true, contains_erase, same_comm, h]
    simp
  refine ext_mem fun x => ?_
  rw [mem_erase, mem_insert, mem_insert, mem_erase, hfresh, or_and_right]
  refine or_congr_left (and_iff_left_of_imp ?_)
  rintro ⟨rfl, -⟩
  exact h

/-- Takes paths away, one after another. -/
def eraseAll (s : PathSet) (paths : List Path) : PathSet :=
  paths.foldl erase s

/-- The listed paths after removals. -/
theorem mem_eraseAll {s : PathSet} {paths : List Path} {x : Path} :
    x ∈ (s.eraseAll paths).paths ↔ x ∈ s.paths ∧ ∀ p ∈ paths, x.same p = false := by
  induction paths generalizing s with
  | nil => simp [eraseAll]
  | cons p rest ih =>
    rw [eraseAll, List.foldl_cons, ← eraseAll, ih, mem_erase, List.forall_mem_cons, and_assoc]

end PathSet

/-- An edit of a set. -/
inductive SetEdit where
  | keep
  | insert (path : Path)
  | eraseAll (paths : List Path)

namespace SetEdit

/-- What an edit makes of a set. -/
def apply : SetEdit → PathSet → PathSet
  | keep, s => s
  | insert path, s => s.insert path
  | eraseAll paths, s => s.eraseAll paths

/-- The paths that an edit adds or takes away. -/
def reach : SetEdit → List Path
  | keep => []
  | insert path => [path]
  | eraseAll paths => paths

/-- A path that an edit does not reach stays where it is, in the set or outside. -/
theorem contains_apply {e : SetEdit} {s : PathSet} {p : Path}
    (h : ∀ q ∈ e.reach, q.same p = false) : (e.apply s).contains p = s.contains p := by
  rw [Bool.eq_iff_iff]
  cases e with
  | keep => exact Iff.rfl
  | insert q => simp [apply, PathSet.contains_insert, Bool.eq_false_iff.mp (h q (by simp [reach]))]
  | eraseAll paths =>
    simp only [apply, PathSet.contains_iff, PathSet.mem_eraseAll, and_assoc]
    refine exists_congr fun x => and_congr_right fun _ => and_iff_right_of_imp fun hxp q hq => ?_
    by_contra hxq
    rw [Bool.not_eq_false, same_comm] at hxq
    have hne := h q hq
    rw [same_trans hxq hxp] at hne
    cases hne

/-- What passes a test that no path within reach passes is listed as before. -/
theorem filter_apply {e : SetEdit} {s : PathSet} {test : Path → Bool}
    (hsame : ∀ p q, p.same q = true → test p = test q) (h : ∀ q ∈ e.reach, test q = false) :
    (e.apply s).paths.filter test = s.paths.filter test := by
  have hmem (x : Path) : x ∈ ((e.apply s).filter test).paths ↔ x ∈ (s.filter test).paths := by
    simp only [PathSet.filter, List.mem_filter]
    refine and_congr_left fun hx => ?_
    have hne (q : Path) (hq : q ∈ e.reach) : x.same q = false := by
      by_contra hxq
      rw [Bool.not_eq_false] at hxq
      rw [hsame x q hxq, h q hq] at hx
      cases hx
    cases e with
    | keep => exact Iff.rfl
    | insert q =>
      rw [apply, PathSet.mem_insert]
      refine or_iff_right fun hin => ?_
      obtain ⟨hxq, -⟩ := hin
      have hself := hne q (by simp [reach])
      rw [hxq, same_refl] at hself
      cases hself
    | eraseAll paths =>
      rw [apply, PathSet.mem_eraseAll]
      exact and_iff_left hne
  exact congrArg PathSet.paths (PathSet.ext_mem hmem)

/-- Edits that reach different paths may be made in either order. -/
theorem apply_comm {e f : SetEdit} (h : ∀ p ∈ e.reach, ∀ q ∈ f.reach, p.same q = false)
    (s : PathSet) : f.apply (e.apply s) = e.apply (f.apply s) := by
  have hinsert (p : Path) (paths : List Path) (hp : ∀ q ∈ paths, p.same q = false) (s : PathSet) :
      (s.insert p).eraseAll paths = (s.eraseAll paths).insert p := by
    induction paths generalizing s with
    | nil => rfl
    | cons q rest ih =>
      rw [PathSet.eraseAll, List.foldl_cons, PathSet.erase_insert s (hp q (by simp))]
      exact ih (fun r hr => hp r (List.mem_cons_of_mem q hr)) _
  cases e with
  | keep => rfl
  | insert p =>
    cases f with
    | keep => rfl
    | insert q => exact PathSet.insert_comm s (h p (by simp [reach]) q (by simp [reach]))
    | eraseAll paths => exact hinsert p paths (h p (by simp [reach])) s
  | eraseAll paths =>
    cases f with
    | keep => rfl
    | insert q =>
      refine (hinsert q paths (fun p hp => ?_) s).symm
      rw [same_comm]
      exact h p hp q (by simp [reach])
    | eraseAll others =>
      refine PathSet.ext_mem fun x => ?_
      simp only [apply, PathSet.mem_eraseAll]
      exact and_right_comm

end SetEdit

end ArtifactSync
