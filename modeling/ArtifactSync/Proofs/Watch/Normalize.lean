import ArtifactSync.Proofs.Discovery
import ArtifactSync.Watch.Normalize

/-!
# Changes that a watcher's event stands for

In a project with a rooted root every event stands for some changes (`normalize_ok`): the excludes
answer every question and a walk fails only where a directory cannot be read. A change that names a
source names it by a tidy path, and a source that is added is one that is not excluded
(`change_spec`).
-/

namespace ArtifactSync

open Path

namespace WatcherEvent

variable {d : Disk} {root : Path} {x : Excludes}

/-- The changes of one path. -/
theorem changesOfAll_singleton (kind : ChangeKind) (path : Path) :
    changesOfAll d root x [(kind, path)] = changesOf d root x kind path := by
  rw [changesOfAll]
  cases changesOf d root x kind path <;> simp [changesOfAll]

/-- The changes of a tidy path below the root that is not a directory that appears. -/
theorem changesOf_tidy (hx : x.root.head? = some '/')
    {kind : ChangeKind} {path p : Path} (hp : root.relativeTo? path = some p) (htidy : p.Tidy)
    (hdir : kind = .add → d.isDir path = false) :
    changesOf d root x kind path = .ok (if x.verdict p false = true then [] else [⟨kind, p⟩]) := by
  have hno : (decide (kind = .add) && d.isDir path) = false := by
    cases kind <;> simp_all
  unfold changesOf
  rw [hp]
  simp only [if_neg htidy.chars_ne_nil, hno, Excludes.isExcluded_tidy hx htidy]
  cases x.verdict p false <;> rfl

/-- The changes of an event that says one thing about one tidy path below the root, where no
directory appears. -/
theorem normalize_tidy (hx : x.root.head? = some '/') {e : WatcherEvent} {kind : ChangeKind}
    {path p : Path} (he : e.tagged d = [(kind, path)]) (hp : root.relativeTo? path = some p)
    (htidy : p.Tidy) (hdir : kind = .add → d.isDir path = false) :
    e.normalize d root x = .ok (if x.verdict p false = true then [] else [⟨kind, p⟩]) := by
  rw [normalize, he, changesOfAll_singleton, changesOf_tidy hx hp htidy hdir]

/-- The changes of several paths are those of each. -/
theorem mem_changesOfAll_iff {tags : List (ChangeKind × Path)} {changes : List Change}
    (h : changesOfAll d root x tags = .ok changes) {c : Change} :
    c ∈ changes ↔ ∃ t ∈ tags, ∃ own, changesOf d root x t.1 t.2 = .ok own ∧ c ∈ own := by
  induction tags generalizing changes with
  | nil =>
    cases h
    simp
  | cons t rest ih =>
    rw [changesOfAll] at h
    split at h
    · cases h
    · next own hown =>
      split at h
      · cases h
      · next more hmore =>
        cases h
        rw [List.mem_append, ih hmore]
        simp [hown]

/-- Where each path stands for changes, all of them do. -/
theorem changesOfAll_ok {tags : List (ChangeKind × Path)}
    (h : ∀ t ∈ tags, ∃ own, changesOf d root x t.1 t.2 = .ok own) :
    ∃ changes, changesOfAll d root x tags = .ok changes := by
  induction tags with
  | nil => exact ⟨[], rfl⟩
  | cons t rest ih =>
    obtain ⟨own, hown⟩ := h t (by simp)
    obtain ⟨more, hmore⟩ := ih fun t ht => h t (List.mem_cons_of_mem _ ht)
    exact ⟨own ++ more, by rw [changesOfAll, hown]; simp [hmore]⟩

section Rooted

variable (hroot : root.isRooted = true) (hx : x.root.head? = some '/')
include hroot hx

/-- Every path stands for some changes. -/
theorem changesOf_ok (kind : ChangeKind) (path : Path) :
    ∃ own, changesOf d root x kind path = .ok own := by
  unfold changesOf
  cases hp : root.relativeTo? path with
  | none => exact ⟨_, rfl⟩
  | some p =>
    simp only
    rcases relativeTo_tidy hroot hp with hnil | htidy
    · rw [if_pos hnil]
      exact ⟨_, rfl⟩
    · rw [if_neg htidy.chars_ne_nil, Excludes.isExcluded_tidy hx htidy]
      split
      · next he => cases he
      · exact ⟨_, rfl⟩
      · split
        · exact ⟨_, rfl⟩
        · split
          · exact ⟨_, rfl⟩
          · next e he =>
            exact absurd he (Discovery.sourcesUnder_ne_rooted hroot hx path e)
          · exact ⟨_, rfl⟩

/-- Every event stands for some changes. -/
theorem normalize_ok (e : WatcherEvent) : ∃ changes, e.normalize d root x = .ok changes :=
  changesOfAll_ok fun t _ => changesOf_ok hroot hx t.1 t.2

/-- A change that a path stands for is about the path itself, seen from the root, or adds a source
that was found in a directory that appears strictly below the root. -/
theorem mem_changesOf {kind : ChangeKind} {path : Path} {own : List Change}
    (h : changesOf d root x kind path = .ok own) {c : Change} (hc : c ∈ own) :
    (root.relativeTo? path = some c.path ∧ c.path.Tidy ∧ c.kind = kind ∧
        x.verdict c.path false = false) ∨
      ((∃ p, path.stripPrefix? root = some p ∧ p.chars ≠ []) ∧ d.isDir path = true ∧ c.kind = .add ∧
        ∃ found, Discovery.walkFrom d root path x = .ok found ∧ c.path ∈ found) := by
  unfold changesOf at h
  cases hp : root.relativeTo? path with
  | none =>
    rw [hp] at h
    cases h
    cases hc
  | some p =>
    rw [hp] at h
    simp only at h
    rcases relativeTo_tidy hroot hp with hnil | htidy
    · rw [if_pos hnil] at h
      cases h
      cases hc
    · rw [if_neg htidy.chars_ne_nil, Excludes.isExcluded_tidy hx htidy] at h
      split at h
      · next he => cases he
      · cases h
        cases hc
      · next hverdict =>
        split at h
        · next hdir =>
          cases h
          rw [List.mem_singleton] at hc
          subst hc
          rw [(Bool.not_eq_true' _).mp hdir] at hverdict
          exact .inl ⟨rfl, htidy, rfl, Except.ok.inj hverdict⟩
        · next hdir =>
          -- a directory that appears stands for what a walk finds in it
          have hisDir : d.isDir path = true := by
            rw [Bool.not_eq_true', Bool.not_eq_false, Bool.and_eq_true] at hdir
            exact hdir.2
          split at h
          · next found hfound =>
            cases h
            obtain ⟨s, hmem, rfl⟩ := List.mem_map.mp hc
            unfold Discovery.sourcesUnder at hfound
            split at hfound
            · next hstarts =>
              rw [relativeTo?, if_pos (isRooted_of_startsWith hroot hstarts)] at hp
              exact .inr ⟨⟨p, hp, htidy.chars_ne_nil⟩, hisDir, rfl, found, hfound, hmem⟩
            · cases hfound
              cases hmem
          · cases h
          · cases h
            cases hc

/-- A change that names a source names it by a tidy path, and a source that is added is below the
root and not excluded. -/
theorem change_spec {e : WatcherEvent} {changes : List Change}
    (h : e.normalize d root x = .ok changes) {c : Change} (hc : c ∈ changes)
    (hs : Artifact.isSource c.path = true) :
    c.path.Tidy ∧ (c.kind = .add →
      (∃ q, root.relativeTo? q = some c.path) ∧ x.verdict c.path false = false) := by
  obtain ⟨⟨kind, path⟩, -, own, hown, hc⟩ := (mem_changesOfAll_iff h).mp hc
  rcases mem_changesOf hroot hx hown hc with
    ⟨hp, htidy, -, hverdict⟩ | ⟨-, hdir, -, found, hfound, hmem⟩
  · exact ⟨htidy, fun _ => ⟨⟨path, hp⟩, hverdict⟩⟩
  · have hne : c.path.chars ≠ [] := Artifact.chars_ne_nil_of_isSource hs
    obtain ⟨q, hq, hstrip, -, hv⟩ :=
      Discovery.verdict_of_mem_walkFrom hroot hx hfound hdir hmem
    exact ⟨(stripPrefix_tidy (chars_ne_nil_of_isRooted hroot) hstrip).resolve_left hne, fun _ =>
      ⟨⟨q, by rw [relativeTo?, if_pos hq, hstrip]⟩, hv hne⟩⟩

end Rooted

end WatcherEvent

end ArtifactSync
