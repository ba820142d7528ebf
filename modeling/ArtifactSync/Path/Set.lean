import ArtifactSync.Path.Basic

/-!
# Sets of paths

A set of paths is a list in strictly increasing order of their components, so it holds one spelling
of each path, and its order is the order every report and every side file shows.
-/

namespace ArtifactSync

namespace Path

/-- Whether `p` comes before `q` in the order of components. -/
def before (p q : Path) : Prop :=
  p.key < q.key

instance : DecidableRel before := fun p q => inferInstanceAs (Decidable (p.key < q.key))

/-- The order of paths is transitive. -/
theorem before_trans {p q r : Path} (h : p.before q) (k : q.before r) : p.before r :=
  List.lt_trans h k

/-- Puts a path in its place among increasing ones, unless an equal one is there. -/
def insertInto (p : Path) : List Path → List Path
  | [] => [p]
  | q :: qs =>
    if p.before q then p :: q :: qs
    else if q.before p then q :: insertInto p qs
    else q :: qs

/-- The members after an insertion are the old ones and the new path. -/
theorem mem_insertInto {p x : Path} : ∀ {qs : List Path}, x ∈ insertInto p qs → x = p ∨ x ∈ qs
  | [], h => by simpa [insertInto] using h
  | q :: qs, h => by
    unfold insertInto at h
    split at h
    · simpa using h
    · split at h
      · rcases List.mem_cons.mp h with h | h
        · exact .inr (by simp [h])
        · rcases mem_insertInto h with h | h
          · exact .inl h
          · exact .inr (by simp [h])
      · exact .inr h

/-- An insertion keeps the order. -/
theorem pairwise_insertInto (p : Path) :
    ∀ {qs : List Path}, qs.Pairwise before → (insertInto p qs).Pairwise before
  | [], _ => by simp [insertInto]
  | q :: qs, h => by
    have hq := List.pairwise_cons.mp h
    unfold insertInto
    split
    · next lt =>
      refine List.pairwise_cons.mpr ⟨fun x hx => ?_, h⟩
      rcases List.mem_cons.mp hx with rfl | hx
      · exact lt
      · exact before_trans lt (hq.1 x hx)
    · split
      · next gt =>
        refine List.pairwise_cons.mpr ⟨fun x hx => ?_, pairwise_insertInto p hq.2⟩
        rcases mem_insertInto hx with rfl | hx
        · exact gt
        · exact hq.1 x hx
      · exact h

end Path

/-- A set of paths: one spelling of each, in order. -/
structure PathSet where
  paths : List Path
  increasing : paths.Pairwise Path.before

namespace PathSet

instance : Inhabited PathSet := ⟨⟨[], .nil⟩⟩

instance : DecidableEq PathSet := fun a b =>
  if h : a.paths = b.paths then
    isTrue (by cases a; cases b; cases h; rfl)
  else isFalse fun k => h (k ▸ rfl)

/-- The set without members. -/
def empty : PathSet := ⟨[], .nil⟩

/-- The number of members. -/
def size (s : PathSet) : Nat := s.paths.length

/-- Whether a path is a member, under any spelling. -/
def contains (s : PathSet) (p : Path) : Bool :=
  s.paths.any fun q => q.same p

/-- Adds a path; a spelling that is already there stays. -/
def insert (s : PathSet) (p : Path) : PathSet :=
  ⟨p.insertInto s.paths, Path.pairwise_insertInto p s.increasing⟩

/-- Keeps the members that pass a test. -/
def filter (keep : Path → Bool) (s : PathSet) : PathSet :=
  ⟨s.paths.filter keep, s.increasing.filter keep⟩

/-- Removes a path, under any spelling. -/
def erase (s : PathSet) (p : Path) : PathSet :=
  s.filter fun q => !q.same p

/-- Adds paths one after another. -/
def insertAll (s : PathSet) (paths : List Path) : PathSet :=
  paths.foldl insert s

/-- The set of the paths in a list. -/
def ofList (paths : List Path) : PathSet :=
  empty.insertAll paths

end PathSet

end ArtifactSync
