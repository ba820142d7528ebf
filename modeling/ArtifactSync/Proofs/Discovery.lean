import ArtifactSync.Discovery
import ArtifactSync.Proofs.Artifact
import ArtifactSync.Proofs.Excludes

/-!
# What discovery finds

A walk that goes through lists exactly the files that a tree has under rows of names along which no
test leaves anything out (`mem_filesIn_iff`). For the sources of a project the tests are those of
the excludes, asked about every directory on the way and about the file (`mem_sources_iff`).
-/

namespace ArtifactSync

open Path

namespace Node

/-- An entry of a directory is smaller than the directory. -/
theorem sizeOf_lt_of_mem {entries : List (Name × Node)} {e : Name × Node} (h : e ∈ entries)
    (mode : Nat) : sizeOf e.2 < sizeOf (Node.dir entries mode) := by
  have hlt := List.sizeOf_lt_of_mem h
  obtain ⟨name, child⟩ := e
  simp only [Prod.mk.sizeOf_spec, dir.sizeOf_spec] at hlt ⊢
  omega

/-- The tree has a file under a row of names, and no link on the way. -/
inductive HasFile : Node → List Name → Prop
  | here (bytes : List UInt8) (mode : Nat) : HasFile (.file bytes mode) []
  | inside {entries : List (Name × Node)} {mode : Nat} {name : Name} {child : Node}
      {names : List Name} (entry : (name, child) ∈ entries) (file : HasFile child names) :
      HasFile (.dir entries mode) (name :: names)

/-- Every directory of the tree has its entries under ordinary names, each under one of its own. -/
inductive Proper : Node → Prop
  | file (bytes : List UInt8) (mode : Nat) : Proper (.file bytes mode)
  | link (target : List Char) : Proper (.link target)
  | dir {entries : List (Name × Node)} {mode : Nat} (names : ∀ e ∈ entries, IsName e.1)
      (distinct : entries.Pairwise fun a b => a.1 ≠ b.1) (proper : ∀ e ∈ entries, Proper e.2) :
      Proper (.dir entries mode)

/-- The names along which a proper tree has a file are ordinary ones. -/
theorem HasFile.isName {node : Node} {names : List Name} (h : node.HasFile names)
    (proper : node.Proper) : ∀ n ∈ names, IsName n := by
  induction h with
  | here => simp
  | inside entry file ih =>
    cases proper with
    | dir hnames distinct hproper =>
      intro n hn
      rcases List.mem_cons.mp hn with rfl | hn
      · exact hnames _ entry
      · exact ih (hproper _ entry) n hn

/-- A tree with a file under no name is the file. -/
theorem HasFile.isDir {node : Node} {names : List Name} (h : node.HasFile names) :
    node.isDir = !names.isEmpty := by
  cases h <;> rfl

end Node

namespace Discovery

variable {ε : Type} {leaveOut : Path → Bool → Except ε Bool} {shut : Path → ε}

/-- The files among entries are those of the entries that are not left out. -/
theorem mem_filesInAll_iff {reachable : Bool} {path q : Path} {entries : List (Name × Node)}
    {found : List Path} (h : filesInAll leaveOut shut reachable path entries = .ok found) :
    q ∈ found ↔ ∃ e ∈ entries, leaveOut (path.join ⟨e.1⟩) e.2.isDir = .ok false ∧
      ∃ inner, filesIn leaveOut shut reachable (path.join ⟨e.1⟩) e.2 = .ok inner ∧ q ∈ inner := by
  induction entries generalizing found with
  | nil =>
    cases h
    simp
  | cons e rest ih =>
    rw [filesInAll] at h
    split at h
    · cases h
    · next hout =>
      rw [ih h]
      simp [hout]
    · next hout =>
      split at h
      · cases h
      · next inner hinner =>
        split at h
        · cases h
        · next more hmore =>
          cases h
          rw [List.mem_append, ih hmore]
          simp [hout, hinner]

/-- Where a walk goes through, it goes through every entry that is not left out. -/
theorem filesIn_ok_of_mem {reachable : Bool} {path : Path} {entries : List (Name × Node)}
    {found : List Path} (h : filesInAll leaveOut shut reachable path entries = .ok found)
    {e : Name × Node} (he : e ∈ entries) (hout : leaveOut (path.join ⟨e.1⟩) e.2.isDir = .ok false) :
    ∃ inner, filesIn leaveOut shut reachable (path.join ⟨e.1⟩) e.2 = .ok inner := by
  induction entries generalizing found with
  | nil => cases he
  | cons first rest ih =>
    rw [filesInAll] at h
    rcases List.mem_cons.mp he with rfl | he
    · rw [hout] at h
      simp only at h
      split at h
      · cases h
      · next inner hinner => exact ⟨inner, hinner⟩
    · split at h
      · cases h
      · exact ih h he
      · split at h
        · cases h
        · split at h
          · cases h
          · next more hmore => exact ih hmore he

/-- No test leaves out anything along a row of names. -/
def Passes (leaveOut : Path → Bool → Except ε Bool) (path : Path) (names : List Name) : Prop :=
  ∀ front behind, names = front ++ behind → front ≠ [] →
    leaveOut (path.joinAll front) (!behind.isEmpty) = .ok false

/-- The tests along a row of names are the one of the first name and those of the others. -/
theorem passes_cons {path : Path} {name : Name} {names : List Name} :
    Passes leaveOut path (name :: names) ↔
      leaveOut (path.join ⟨name⟩) (!names.isEmpty) = .ok false ∧
        Passes leaveOut (path.join ⟨name⟩) names := by
  constructor
  · intro h
    refine ⟨h [name] names rfl (by simp), fun front behind heq hne => ?_⟩
    exact h (name :: front) behind (by rw [heq]; rfl) (by simp)
  · rintro ⟨hfirst, hrest⟩ front behind heq hne
    cases front with
    | nil => exact absurd rfl hne
    | cons first front =>
      obtain ⟨rfl, hnames⟩ := List.cons.inj heq
      cases front with
      | nil =>
        have hbehind : names = behind := hnames
        rwa [← hbehind]
      | cons second front => exact hrest (second :: front) behind hnames (by simp)

/-- A walk that goes through lists the files along whose names no test leaves anything out. -/
theorem mem_filesIn_iff {reachable : Bool} {node : Node} {path q : Path} {found : List Path}
    (h : filesIn leaveOut shut reachable path node = .ok found) :
    q ∈ found ↔ ∃ names, node.HasFile names ∧ q = path.joinAll names ∧
      Passes leaveOut path names := by
  -- on the size of the tree: a walk over entries goes on in trees that are smaller
  match node with
  | .file bytes mode =>
    rw [filesIn] at h
    cases h
    constructor
    · intro hq
      refine ⟨[], .here bytes mode, by simpa [joinAll] using hq, fun front behind heq hne => ?_⟩
      exact absurd (List.append_eq_nil_iff.mp heq.symm).1 hne
    · rintro ⟨names, hfile, rfl, -⟩
      cases hfile
      simp [joinAll]
  | .link target =>
    rw [filesIn] at h
    cases h
    constructor
    · intro hq
      cases hq
    · rintro ⟨names, hfile, -⟩
      cases hfile
  | .dir entries mode =>
    rw [filesIn] at h
    split at h
    · -- a name in front of the others is that of an entry, and asked about like one
      rw [mem_filesInAll_iff h]
      constructor
      · rintro ⟨e, he, hout, inner, hinner, hq⟩
        obtain ⟨names, hfile, hq, hpasses⟩ := (mem_filesIn_iff hinner).mp hq
        refine ⟨e.1 :: names, .inside he hfile, hq, passes_cons.mpr ⟨?_, hpasses⟩⟩
        rwa [← hfile.isDir]
      · rintro ⟨names, hfile, hq, hpasses⟩
        cases hfile with
        | @inside _ _ name child names entry file =>
          obtain ⟨hout, hrest⟩ := passes_cons.mp hpasses
          rw [← file.isDir] at hout
          obtain ⟨inner, hinner⟩ := filesIn_ok_of_mem h entry hout
          refine ⟨(name, child), entry, hout, inner, hinner, ?_⟩
          exact (mem_filesIn_iff hinner).mpr ⟨names, file, hq, hrest⟩
    · cases h
termination_by sizeOf node
decreasing_by
  · exact Node.sizeOf_lt_of_mem he mode
  · exact Node.sizeOf_lt_of_mem entry mode

/-- A walk over entries fails because a test is not answered about one of them, or inside it. -/
theorem filesInAll_error {reachable : Bool} {path : Path} {entries : List (Name × Node)} {e : ε}
    (h : filesInAll leaveOut shut reachable path entries = .error e) : ∃ entry ∈ entries,
      leaveOut (path.join ⟨entry.1⟩) entry.2.isDir = .error e ∨
        filesIn leaveOut shut reachable (path.join ⟨entry.1⟩) entry.2 = .error e := by
  induction entries with
  | nil => cases h
  | cons first rest ih =>
    have hlater (hrest : filesInAll leaveOut shut reachable path rest = .error e) :
        ∃ entry ∈ first :: rest, leaveOut (path.join ⟨entry.1⟩) entry.2.isDir = .error e ∨
          filesIn leaveOut shut reachable (path.join ⟨entry.1⟩) entry.2 = .error e := by
      obtain ⟨entry, hmem, hentry⟩ := ih hrest
      exact ⟨entry, List.mem_cons_of_mem first hmem, hentry⟩
    rw [filesInAll] at h
    split at h
    · next hout =>
      cases h
      exact ⟨first, List.mem_cons_self .., .inl hout⟩
    · exact hlater h
    · split at h
      · next hfirst =>
        cases h
        exact ⟨first, List.mem_cons_self .., .inr hfirst⟩
      · split at h
        · next hrest =>
          cases h
          exact hlater hrest
        · cases h

/-- A walk fails at a directory that is shut, or because a test is not answered about what stands
under some names. -/
theorem filesIn_error {reachable : Bool} {node : Node} {path : Path} {e : ε}
    (h : filesIn leaveOut shut reachable path node = .error e) : (∃ p, e = shut p) ∨
      ∃ names isDir, names ≠ [] ∧ (node.Proper → ∀ n ∈ names, IsName n) ∧
        leaveOut (path.joinAll names) isDir = .error e := by
  match node with
  | .file bytes mode =>
    rw [filesIn] at h
    cases h
  | .link target =>
    rw [filesIn] at h
    cases h
  | .dir entries mode =>
    rw [filesIn] at h
    split at h
    · obtain ⟨entry, hmem, hentry⟩ := filesInAll_error h
      have hproper (proper : (Node.dir entries mode).Proper) :
          IsName entry.1 ∧ entry.2.Proper := by
        cases proper with
        | dir hnames distinct hproper => exact ⟨hnames entry hmem, hproper entry hmem⟩
      rcases hentry with hout | hinner
      · refine .inr ⟨[entry.1], entry.2.isDir, by simp, fun proper => ?_, hout⟩
        simpa using (hproper proper).1
      · rcases filesIn_error hinner with hshut | ⟨names, isDir, hne, hnames, hout⟩
        · exact .inl hshut
        · refine .inr ⟨entry.1 :: names, isDir, by simp, fun proper => ?_, hout⟩
          exact List.forall_mem_cons.mpr ⟨(hproper proper).1, hnames (hproper proper).2⟩
    · cases h
      exact .inl ⟨path, rfl⟩
termination_by sizeOf node
decreasing_by
  exact Node.sizeOf_lt_of_mem hmem mode

/-! ## The sources of a project -/

/-- What a walk finds are the sources among the files it lists, as seen from the root. -/
theorem mem_walkFrom_iff {d : Disk} {root start : Path} {x : Excludes} {node : Node}
    {found : List Path} (hnode : d.stat start = .ok node)
    (h : walkFrom d root start x = .ok found) :
    ∃ files, filesIn (leavesOut root x) (fun path => refusal root path .access) true start node =
        .ok files ∧
      ∀ s, s ∈ found ↔
        ∃ q ∈ files, Artifact.isSource q = true ∧ q.stripPrefix? root = some s := by
  unfold walkFrom at h
  rw [hnode] at h
  simp only at h
  cases hfiles : filesIn (leavesOut root x) (fun path => refusal root path .access) true start
    node with
  | error e => rw [hfiles] at h; cases h
  | ok files =>
    rw [hfiles] at h
    cases h
    exact ⟨files, rfl, by simp [and_assoc]⟩

/-- Seen from a root, what stands in a directory under some names has the names of the directory in
front of its own. -/
def SeenAt (root start : Path) (names : List Name) : Prop :=
  ∀ below, below ≠ [] → (∀ n ∈ below, IsName n) →
    (start.joinAll below).stripPrefix? root = some (ofNames (names ++ below))

section Seen

variable {root start : Path} {x : Excludes} {names below : List Name}

/-- What stands in the root has its own names. -/
theorem seenAt_root (hroot : root.chars ≠ []) : SeenAt root root [] := by
  intro below hne hbelow
  rw [joinAll_eq hbelow hne]
  exact stripPrefix_join hroot (tidy_ofNames hbelow hne)

variable (hseen : SeenAt root start names) (hnames : ∀ n ∈ names, IsName n)
include hseen hnames

/-- What stands there is a source exactly if it is one as seen from the root. -/
theorem SeenAt.isSource_eq (hroot : root.chars ≠ []) (hne : below ≠ [])
    (hbelow : ∀ n ∈ below, IsName n) :
    Artifact.isSource (start.joinAll below) = Artifact.isSource (ofNames (names ++ below)) := by
  have hcomponents := components_stripPrefix hroot (hseen below hne hbelow)
  have hall := List.forall_mem_append.mpr ⟨hnames, hbelow⟩
  rw [Artifact.isSource, Artifact.isSource, extension?, extension?, fileName?, fileName?,
    hcomponents, List.getLast?_append_of_ne_nil]
  simp [components_ofNames hall, hne]

/-- The excludes are asked about it under the names that are seen from the root. -/
theorem SeenAt.leavesOut_iff (hne : below ≠ []) (hbelow : ∀ n ∈ below, IsName n) {isDir v : Bool} :
    leavesOut root x (start.joinAll below) isDir = .ok v ↔
      x.isExcluded (ofNames (names ++ below)) isDir = .ok v := by
  have hall := List.forall_mem_append.mpr ⟨hnames, hbelow⟩
  have hchars := (tidy_ofNames hall (by simp [hne])).chars_ne_nil
  obtain ⟨w, hw⟩ := Excludes.isExcluded_ofNames hall x isDir
  simp [leavesOut, hseen below hne hbelow, hchars, hw]

/-- No test leaves anything out along names when neither a directory on the way nor what stands at
the end is excluded. -/
theorem SeenAt.passes_iff (hbelow : ∀ n ∈ below, IsName n) :
    Passes (leavesOut root x) start below ↔ ∀ front behind, below = front ++ behind → front ≠ [] →
      x.isExcluded (ofNames (names ++ front)) (!behind.isEmpty) = .ok false := by
  refine forall₂_congr fun front behind => forall₂_congr fun heq hfront => ?_
  exact hseen.leavesOut_iff hnames hfront fun n hn =>
    hbelow n (by rw [heq]; exact List.mem_append_left _ hn)

/-- The sources that a walk finds in a directory are those of the files along whose names no test
leaves anything out. -/
theorem SeenAt.mem_walkFrom_iff {d : Disk} {node : Node} {found : List Path}
    (hroot : root.chars ≠ []) (hnode : d.stat start = .ok node) (hdir : node.isDir = true)
    (proper : node.Proper) (h : walkFrom d root start x = .ok found) {s : Path} :
    s ∈ found ↔ ∃ below, below ≠ [] ∧ node.HasFile below ∧ s = ofNames (names ++ below) ∧
      Artifact.isSource s = true ∧ Passes (leavesOut root x) start below := by
  -- the walk begins at a directory, so every file in it has a name
  have hnamed {ns : List Name} (hf : node.HasFile ns) : ns ≠ [] := by
    rintro rfl
    cases hf
    cases hdir
  obtain ⟨files, hfiles, hmem⟩ := Discovery.mem_walkFrom_iff hnode h
  rw [hmem]
  constructor
  · rintro ⟨q, hq, hs, hstrip⟩
    obtain ⟨ns, hf, rfl, hp⟩ := (mem_filesIn_iff hfiles).mp hq
    have hns := hf.isName proper
    rw [hseen ns (hnamed hf) hns, Option.some.injEq] at hstrip
    subst hstrip
    rw [hseen.isSource_eq hnames hroot (hnamed hf) hns] at hs
    exact ⟨ns, hnamed hf, hf, rfl, hs, hp⟩
  · rintro ⟨ns, hne, hf, rfl, hs, hp⟩
    have hns := hf.isName proper
    refine ⟨start.joinAll ns, (mem_filesIn_iff hfiles).mpr ⟨ns, hf, rfl, hp⟩, ?_,
      hseen ns hne hns⟩
    rwa [hseen.isSource_eq hnames hroot hne hns]

end Seen

/-- A path that leads somewhere has a text. -/
theorem chars_ne_nil_of_stat {d : Disk} {path : Path} {node : Node} (h : d.stat path = .ok node) :
    path.chars ≠ [] := by
  intro hnil
  unfold Disk.stat Disk.resolve at h
  simp [hnil, Disk.holdsNul] at h

/-- The sources that discovery finds are those of the files along whose names no test leaves
anything out. -/
theorem mem_sources {d : Disk} {root : Path} {x : Excludes} {tree : Node} {found : List Path}
    (htree : d.stat root = .ok tree) (proper : tree.Proper) (h : sources d root x = .ok found)
    {s : Path} : s ∈ found ↔ ∃ names, names ≠ [] ∧ tree.HasFile names ∧ s = ofNames names ∧
      Artifact.isSource s = true ∧ Passes (leavesOut root x) root names := by
  unfold sources at h
  split at h
  · next hdir =>
    unfold Disk.isDir at hdir
    rw [htree] at hdir
    have hroot := chars_ne_nil_of_stat htree
    exact (seenAt_root hroot).mem_walkFrom_iff (by simp) hroot htree hdir proper h
  · cases h

section Sources

variable {root : Path} {x : Excludes} (hroot : root.isRooted = true)
  (hx : x.root.head? = some '/')
include hroot hx

/-- The tests of a project with a rooted root are those of its excludes. -/
theorem leavesOut_eq (q : Path) (isDir : Bool) : leavesOut root x q isDir = .ok
    ((q.stripPrefix? root).any fun p => p.chars ≠ [] && x.verdict p isDir) := by
  unfold leavesOut
  cases hq : q.stripPrefix? root with
  | none => rfl
  | some p =>
    rcases stripPrefix_tidy (chars_ne_nil_of_isRooted hroot) hq with hnil | htidy
    · simp [hnil]
    · simp [htidy.chars_ne_nil, Excludes.isExcluded_tidy hx htidy]

/-- A walk through a directory is never refused an answer by the excludes. -/
theorem sourcesUnder_ne_rooted {d : Disk} (dir : Path) (e : RootedPath) :
    sourcesUnder d root dir x ≠ .error (.rooted e) := by
  intro h
  unfold sourcesUnder at h
  split at h
  · unfold walkFrom at h
    split at h
    · cases h
    · next node _ =>
      simp only at h
      cases hfiles : filesIn (leavesOut root x) (fun path => refusal root path .access) true dir
        node with
      | error e' =>
        rw [hfiles] at h
        cases h
        rcases filesIn_error hfiles with ⟨p, hp⟩ | ⟨names, isDir, -, -, hout⟩
        · cases hp
        · rw [leavesOut_eq hroot hx] at hout
          cases hout
      | ok files =>
        rw [hfiles] at h
        cases h
  · cases h

/-- A source that is found in a directory, as seen from the root, is not excluded. -/
theorem verdict_of_mem_walkFrom {d : Disk} {start : Path} {found : List Path} {s : Path}
    (h : walkFrom d root start x = .ok found) (hdir : d.isDir start = true) (hs : s ∈ found) :
    ∃ q, q.isRooted = true ∧ q.stripPrefix? root = some s ∧ Artifact.isSource q = true ∧
      (s.chars ≠ [] → x.verdict s false = false) := by
  unfold Disk.isDir at hdir
  split at hdir
  · next node hnode =>
    obtain ⟨files, hfiles, hmem⟩ := mem_walkFrom_iff hnode h
    obtain ⟨q, hq, hsource, hstrip⟩ := (hmem s).mp hs
    obtain ⟨names, hfile, rfl, hpasses⟩ := (mem_filesIn_iff hfiles).mp hq
    have hstarts : (start.joinAll names).startsWith root = true := by
      rw [stripPrefix_eq (chars_ne_nil_of_isRooted hroot)] at hstrip
      by_contra hne
      rw [if_neg hne] at hstrip
      cases hstrip
    refine ⟨_, isRooted_of_startsWith hroot hstarts, hstrip, hsource, fun hne => ?_⟩
    -- the walk began at a directory, so the file lies below it and was asked about
    have hnames : names ≠ [] := by
      rintro rfl
      cases hfile
      cases hdir
    have htest := hpasses names [] (by simp) hnames
    rw [leavesOut_eq hroot hx, hstrip] at htest
    simpa [hne] using htest
  · cases hdir

section Proper

variable {d : Disk} {tree : Node} {found : List Path} (htree : d.stat root = .ok tree)
  (proper : tree.Proper) (h : sources d root x = .ok found)
include htree proper h

omit htree h in
/-- No test leaves anything out along names when neither a directory on the way nor the file is
excluded. -/
theorem passes_iff {names : List Name} (hfile : tree.HasFile names) :
    Passes (leavesOut root x) root names ↔ ∀ front behind, names = front ++ behind →
      front ≠ [] → x.verdict (ofNames front) (!behind.isEmpty) = false := by
  have hnames := hfile.isName proper
  rw [(seenAt_root (chars_ne_nil_of_isRooted hroot)).passes_iff (by simp) hnames]
  refine forall₂_congr fun front behind => forall₂_congr fun heq hfront => ?_
  have hfronts : ∀ n ∈ front, IsName n := fun n hn =>
    hnames n (by rw [heq]; exact List.mem_append_left _ hn)
  rw [List.nil_append, Excludes.isExcluded_tidy hx (tidy_ofNames hfronts hfront),
    Except.ok.injEq]

/-- Discovery finds a file of the project exactly when neither the file nor a directory on the way
to it is excluded. -/
theorem mem_sources_iff {names : List Name} (hfile : tree.HasFile names)
    (hs : Artifact.isSource (ofNames names) = true) :
    ofNames names ∈ found ↔ ∀ front behind, names = front ++ behind → front ≠ [] →
      x.verdict (ofNames front) (!behind.isEmpty) = false := by
  rw [← passes_iff hroot hx proper hfile, mem_sources htree proper h]
  constructor
  · rintro ⟨ns, -, hf, heq, -, hp⟩
    rwa [ofNames_inj (hfile.isName proper) (hf.isName proper) (by rw [heq])]
  · intro hp
    refine ⟨names, ?_, hfile, rfl, hs, hp⟩
    rintro rfl
    exact Artifact.chars_ne_nil_of_isSource hs rfl

/-- What discovery finds are sources of the project that are not excluded. -/
theorem spec_of_mem_sources {s : Path} (hs : s ∈ found) : Artifact.isSource s = true ∧
    x.verdict s false = false ∧
    ∃ names, names ≠ [] ∧ (∀ n ∈ names, IsName n) ∧ s = ofNames names := by
  obtain ⟨names, hne, hfile, rfl, hsource, hp⟩ := (mem_sources htree proper h).mp hs
  refine ⟨hsource, ?_, names, hne, hfile.isName proper, rfl⟩
  simpa using (passes_iff hroot hx proper hfile).mp hp names [] (by simp) hne

end Proper

end Sources

end Discovery

end ArtifactSync
