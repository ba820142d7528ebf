import ArtifactSync.Proofs.Disk.Tree
import ArtifactSync.Proofs.Path.Set

/-!
# The order in which a walk lists files

Siblings are walked in the order of their names, and paths are in the order of their components, so
a walk lists files in the order of their paths (`exists_rows`), and a set of these paths lists them
in the order in which they were found (`paths_ofList`). The rows of names that a walk lists do not
depend on where it begins, as long as it is given the same answers about the same names (`Rows`).
-/

namespace ArtifactSync

namespace Path

variable {a b : List Name}

/-- The order of names is that of their components. -/
theorem key_name_lt_iff {m n : Name} :
    (Component.name m).key < (Component.name n).key ↔ Node.nameKey m < Node.nameKey n :=
  List.cons_lt_cons_self

/-- The order of rows of names. -/
theorem before_ofNames (ha : ∀ n ∈ a, IsName n) (hb : ∀ n ∈ b, IsName n) :
    (ofNames a).before (ofNames b) ↔
      a.map (fun n => (Component.name n).key) < b.map fun n => (Component.name n).key := by
  rw [before, key, key, components_ofNames ha, components_ofNames hb, List.map_map, List.map_map]
  rfl

/-- Rows that begin with different names are in the order of these names. -/
theorem before_ofNames_of_lt {m n : Name} (h : Node.nameKey m < Node.nameKey n)
    (ha : ∀ p ∈ m :: a, IsName p) (hb : ∀ p ∈ n :: b, IsName p) :
    (ofNames (m :: a)).before (ofNames (n :: b)) := by
  rw [before_ofNames ha hb, List.map_cons, List.map_cons, List.cons_lt_cons_iff]
  exact .inl (key_name_lt_iff.mpr h)

/-- Rows that begin alike are in the order of what is behind that. -/
theorem before_ofNames_append {front : List Name} (hfront : ∀ n ∈ front, IsName n)
    (ha : ∀ n ∈ a, IsName n) (hb : ∀ n ∈ b, IsName n) :
    (ofNames (front ++ a)).before (ofNames (front ++ b)) ↔ (ofNames a).before (ofNames b) := by
  rw [before_ofNames (List.forall_mem_append.mpr ⟨hfront, ha⟩)
    (List.forall_mem_append.mpr ⟨hfront, hb⟩), before_ofNames ha hb]
  clear hfront
  induction front with
  | nil => rfl
  | cons n front ih => rw [List.cons_append, List.cons_append, List.map_cons, List.map_cons,
      List.cons_lt_cons_iff, ih, or_iff_right (List.lt_irrefl _), and_iff_right rfl]

/-- A path that comes behind all others goes to the end. -/
theorem insertInto_of_behind {p : Path} {qs : List Path} (h : ∀ q ∈ qs, q.before p) :
    insertInto p qs = qs ++ [p] := by
  induction qs with
  | nil => rfl
  | cons q qs ih =>
    obtain ⟨hq, hqs⟩ := List.forall_mem_cons.mp h
    have hnot : ¬p.before q := fun hp => not_before_of_same (same_refl p) (before_trans hp hq)
    rw [insertInto, if_neg hnot, if_pos hq, ih hqs, List.cons_append]

end Path

open Path

/-- A set of paths that are in order lists them in that order. -/
theorem PathSet.paths_ofList {ps : List Path} (h : ps.Pairwise before) :
    (PathSet.ofList ps).paths = ps := by
  have hall (s : PathSet) : ∀ {ps : List Path}, (s.paths ++ ps).Pairwise before →
      (s.insertAll ps).paths = s.paths ++ ps := by
    intro ps
    -- on the paths that are left, each of which goes behind the ones in the set
    induction ps generalizing s with
    | nil => simp [insertAll]
    | cons p ps ih =>
      intro hps
      have hlast : ∀ q ∈ s.paths, q.before p := fun q hq =>
        (List.pairwise_append.mp hps).2.2 q hq p (by simp)
      have hpaths : (s.insert p).paths = s.paths ++ [p] := insertInto_of_behind hlast
      have hrest := ih (s.insert p) (by rw [hpaths]; simpa using hps)
      rw [hpaths] at hrest
      simpa [insertAll] using hrest
  exact hall .empty h

namespace Discovery

variable {ε : Type} {leaveOut : Path → Bool → Except ε Bool} {shut : Path → ε}

/-- Two walks are given the same answers about the same names. -/
def SameAnswers (leaveOut leaveOut' : Path → Bool → Except ε Bool) (path path' : Path) : Prop :=
  ∀ below, below ≠ [] → (∀ n ∈ below, IsName n) → ∀ isDir,
    leaveOut' (path'.joinAll below) isDir = leaveOut (path.joinAll below) isDir

/-- Below an entry the same answers are given. -/
theorem SameAnswers.entry {leaveOut' : Path → Bool → Except ε Bool} {path path' : Path}
    (h : SameAnswers leaveOut leaveOut' path path') {name : Name} (hname : IsName name) :
    SameAnswers leaveOut leaveOut' (path.join ⟨name⟩) (path'.join ⟨name⟩) :=
  fun below _ hbelow isDir =>
    h (name :: below) (by simp) (List.forall_mem_cons.mpr ⟨hname, hbelow⟩) isDir

/-- A walk that goes through lists the files under rows of names, in order, and so does every walk
that is given the same answers about the same names. -/
structure Rows (leaveOut : Path → Bool → Except ε Bool) (path : Path) (hasFile : List Name → Prop)
    (walk : (Path → Bool → Except ε Bool) → (Path → ε) → Path → Except ε (List Path))
    (rows : List (List Name)) : Prop where
  files : ∀ row ∈ rows, hasFile row
  increasing : rows.Pairwise fun a b => (ofNames a).before (ofNames b)
  walks : ∀ leaveOut' shut' path', SameAnswers leaveOut leaveOut' path path' →
    walk leaveOut' shut' path' = .ok (rows.map path'.joinAll)

/-- The files under entries. -/
def EntryHasFile (entries : List (Name × Node)) (row : List Name) : Prop :=
  ∃ e ∈ entries, ∃ below, row = e.1 :: below ∧ e.2.HasFile below

/-- Rows of names of a walk over entries, where the walks in the entries have such rows. -/
theorem exists_rowsAll {reachable : Bool} {entries : List (Name × Node)} {path : Path}
    {found : List Path} (names : ∀ e ∈ entries, IsName e.1) (proper : ∀ e ∈ entries, e.2.Proper)
    (increasing : entries.Pairwise fun a b => Node.nameKey a.1 < Node.nameKey b.1)
    (each : ∀ e ∈ entries, ∀ path found, filesIn leaveOut shut reachable path e.2 = .ok found →
      ∃ rows, Rows leaveOut path e.2.HasFile
        (fun leaveOut' shut' path' => filesIn leaveOut' shut' reachable path' e.2) rows)
    (h : filesInAll leaveOut shut reachable path entries = .ok found) :
    ∃ rows, Rows leaveOut path (EntryHasFile entries)
      (fun leaveOut' shut' path' => filesInAll leaveOut' shut' reachable path' entries) rows := by
  -- on the entries: the rows of the first one stand in front of those of the others
  induction entries generalizing found with
  | nil =>
    refine ⟨[], by simp, .nil, fun leaveOut' shut' path' _ => ?_⟩
    rw [filesInAll]
    rfl
  | cons e rest ih =>
    obtain ⟨hname, hnames⟩ := List.forall_mem_cons.mp names
    obtain ⟨hproper, hpropers⟩ := List.forall_mem_cons.mp proper
    obtain ⟨hfirst, hincreasing⟩ := List.pairwise_cons.mp increasing
    obtain ⟨heach, heachs⟩ := List.forall_mem_cons.mp each
    have hlater {row : List Name} (hrow : EntryHasFile rest row) :
        EntryHasFile (e :: rest) row := by
      obtain ⟨e', he', hrow⟩ := hrow
      exact ⟨e', List.mem_cons_of_mem e he', hrow⟩
    -- whether the entry is left out is the same for every such walk
    have hasked {leaveOut' : Path → Bool → Except ε Bool} {path' : Path}
        (hsame : SameAnswers leaveOut leaveOut' path path') :
        leaveOut' (path'.join ⟨e.1⟩) e.2.isDir = leaveOut (path.join ⟨e.1⟩) e.2.isDir :=
      hsame [e.1] (by simp) (by simpa using hname) e.2.isDir
    rw [filesInAll] at h
    split at h
    · cases h
    · next hout =>
      obtain ⟨rows, hrows⟩ := ih hnames hpropers hincreasing heachs h
      refine ⟨rows, fun row hrow => hlater (hrows.files row hrow), hrows.increasing,
        fun leaveOut' shut' path' hsame => ?_⟩
      simp only [filesInAll, hasked hsame, hout]
      exact hrows.walks leaveOut' shut' path' hsame
    · next hout =>
      split at h
      · cases h
      · next inner hinner =>
        split at h
        · cases h
        · next more hmore =>
          obtain ⟨rows, hrows⟩ := heach _ _ hinner
          obtain ⟨others, hothers⟩ := ih hnames hpropers hincreasing heachs hmore
          have hrowNames {row : List Name} (hrow : row ∈ rows) : ∀ n ∈ row, IsName n :=
            (hrows.files row hrow).isName hproper
          refine ⟨rows.map (e.1 :: ·) ++ others, fun row hrow => ?_, ?_,
            fun leaveOut' shut' path' hsame => ?_⟩
          · rcases List.mem_append.mp hrow with hrow | hrow
            · obtain ⟨below, hbelow, rfl⟩ := List.mem_map.mp hrow
              exact ⟨e, List.mem_cons_self, below, rfl, hrows.files below hbelow⟩
            · exact hlater (hothers.files row hrow)
          · refine List.pairwise_append.mpr ⟨List.pairwise_map.mpr ?_, hothers.increasing, ?_⟩
            · refine hrows.increasing.imp_of_mem fun {a b} ha hb hlt => ?_
              have hfront : ∀ n ∈ [e.1], IsName n := List.forall_mem_singleton.mpr hname
              exact (before_ofNames_append hfront (hrowNames ha) (hrowNames hb)).mpr hlt
            · -- the rows of the other entries begin with later names
              intro row hrow other hother
              obtain ⟨below, hbelow, rfl⟩ := List.mem_map.mp hrow
              obtain ⟨e', he', below', rfl, hfile'⟩ := hothers.files other hother
              exact before_ofNames_of_lt (hfirst e' he')
                (List.forall_mem_cons.mpr ⟨hname, hrowNames hbelow⟩)
                (List.forall_mem_cons.mpr ⟨hnames e' he', hfile'.isName (hpropers e' he')⟩)
          · simp only [filesInAll, hasked hsame, hout, hothers.walks leaveOut' shut' path' hsame,
              hrows.walks leaveOut' shut' _ (hsame.entry hname), List.map_append, List.map_map]
            rfl

/-- A walk that goes through lists the files under rows of names. -/
theorem exists_rows {reachable : Bool} {node : Node} {path : Path} {found : List Path}
    (proper : node.Proper) (ordered : node.Ordered)
    (h : filesIn leaveOut shut reachable path node = .ok found) :
    ∃ rows, Rows leaveOut path node.HasFile
      (fun leaveOut' shut' path' => filesIn leaveOut' shut' reachable path' node) rows := by
  match node with
  | .file bytes mode =>
    refine ⟨[[]], by simpa using .here bytes mode, List.pairwise_singleton ..,
      fun leaveOut' shut' path' _ => ?_⟩
    rw [filesIn]
    rfl
  | .link target =>
    refine ⟨[], by simp, .nil, fun leaveOut' shut' path' _ => ?_⟩
    rw [filesIn]
    rfl
  | .dir entries mode =>
    cases proper with
    | dir hnames distinct hproper =>
      obtain ⟨hincreasing, hordered⟩ := ordered.of_dir
      rw [filesIn] at h
      split at h
      · next hreach =>
        obtain ⟨rows, hrows⟩ := exists_rowsAll hnames hproper hincreasing
          (fun e he path found hfound => exists_rows (hproper e he) (hordered e he) hfound) h
        refine ⟨rows, fun row hrow => ?_, hrows.increasing, fun leaveOut' shut' path' hsame => ?_⟩
        · obtain ⟨e, he, below, rfl, hfile⟩ := hrows.files row hrow
          exact .inside he hfile
        · rw [filesIn, if_pos hreach]
          exact hrows.walks leaveOut' shut' path' hsame
      · cases h
termination_by sizeOf node
decreasing_by
  exact Node.sizeOf_lt_of_mem he mode

end Discovery

end ArtifactSync
