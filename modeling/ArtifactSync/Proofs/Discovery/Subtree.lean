import ArtifactSync.Proofs.Discovery.Listed
import ArtifactSync.Proofs.Excludes.OnePath
import ArtifactSync.Proofs.Path.Slash
import Mathlib.Data.List.Sort

/-!
# Walks below the root

A walk in a directory of a project asks the excludes what discovery asks about everything below it,
as long as what stands in the directory is seen under the names of the directory (`SeenAt`); then it
finds exactly what discovery finds there (`sourcesUnder_eq`). A directory may be spelled otherwise,
with `.` or more separators behind its names; then the excludes are asked about paths with these in
them, and there are patterns that tell the two apart (`sourcesUnder_restricts`).
-/

namespace ArtifactSync

open Path

/-- Paths in order are determined by which they are. -/
theorem Path.eq_of_before {ps qs : List Path} (hp : ps.Pairwise before) (hq : qs.Pairwise before)
    (h : ∀ p, p ∈ ps ↔ p ∈ qs) : ps = qs := by
  have hirrefl : Std.Irrefl before := ⟨fun p => not_before_of_same (same_refl p)⟩
  have hantisymm : Std.Antisymm before := ⟨fun p q hpq hqp =>
    absurd (before_trans hpq hqp) (not_before_of_same (same_refl p))⟩
  exact hp.eq_of_mem_iff hq h

/-- A row of names begins like another one exactly if its path does. -/
theorem Path.startsWith_ofNames {names front : List Name} (hnames : ∀ n ∈ names, IsName n)
    (hfront : ∀ n ∈ front, IsName n) :
    (ofNames names).startsWith (ofNames front) = true ↔ front <+: names := by
  rw [startsWith_iff, components_ofNames hnames, components_ofNames hfront]
  refine ⟨fun h => ?_, fun h => h.map _⟩
  have hname : (List.filterMap Component.name? (names.map .name)) = names := by
    simp [List.filterMap_map, Function.comp_def, Component.name?]
  have hname' : (List.filterMap Component.name? (front.map .name)) = front := by
    simp [List.filterMap_map, Function.comp_def, Component.name?]
  rw [← hname, ← hname']
  exact h.filterMap _

namespace Node

variable {tree node : Node} {names below : List Name}

/-- What stands in a proper tree stands under ordinary names. -/
theorem Proper.isName_of_at (proper : tree.Proper) (hat : tree.at? names = some node) :
    ∀ n ∈ names, IsName n := by
  induction names generalizing tree with
  | nil => simp
  | cons first rest ih =>
    rw [at?] at hat
    obtain ⟨child, hchild, hrest⟩ := Option.bind_eq_some_iff.mp hat
    obtain ⟨e, he, rfl⟩ := Option.map_eq_some_iff.mp hchild
    have hfirst : e.1 = first := by simpa using List.find?_some he
    cases proper with
    | dir hnames distinct hpropers =>
      have hmem := List.mem_of_find?_eq_some he
      exact List.forall_mem_cons.mpr ⟨hfirst ▸ hnames e hmem, ih (hpropers e hmem) hrest⟩
    | file bytes mode => cases he
    | link target => cases he

/-- The files below a row of names are those in what stands under it. -/
theorem hasFile_append (proper : tree.Proper) (hat : tree.at? names = some node) :
    tree.HasFile (names ++ below) ↔ node.HasFile below := by
  induction names generalizing tree with
  | nil =>
    cases hat
    rfl
  | cons first rest ih =>
    rw [at?] at hat
    obtain ⟨child, hchild, hrest⟩ := Option.bind_eq_some_iff.mp hat
    obtain ⟨e, he, rfl⟩ := Option.map_eq_some_iff.mp hchild
    cases proper with
    | @dir entries mode hnames distinct hpropers =>
      have hmem : e ∈ entries := List.mem_of_find?_eq_some he
      have hfirst : e.1 = first := by simpa using List.find?_some he
      rw [← ih (hpropers e hmem) hrest]
      constructor
      · intro h
        cases h with
        | inside entry file =>
          -- names are distinct, so the file is in the entry that the name finds
          have hfound := Disk.find_of_mem distinct entry
          rw [Node.entries] at he
          rw [he, Option.some.injEq] at hfound
          rw [hfound]
          exact file
      · intro h
        rw [← hfirst]
        exact .inside hmem h
    | file bytes mode => cases he
    | link target => cases he

end Node

namespace Discovery

variable {ε : Type} {leaveOut : Path → Bool → Except ε Bool} {shut : Path → ε}

/-- A walk that goes through has come in, so it goes through where it is let in. -/
theorem filesIn_of_reachable {reachable : Bool} {path : Path} {node : Node} {found : List Path}
    (h : filesIn leaveOut shut reachable path node = .ok found) :
    filesIn leaveOut shut true path node = .ok found := by
  cases node with
  | file bytes mode => simpa [filesIn] using h
  | link target => simpa [filesIn] using h
  | dir entries mode =>
    rw [filesIn] at h ⊢
    split at h
    · next hreach =>
      rw [Bool.and_eq_true] at hreach
      rw [if_pos (by simpa using hreach.2)]
      exact h
    · cases h

/-- A walk that goes through goes through every directory that it goes into. -/
theorem exists_filesIn_of_at {reachable : Bool} {path : Path} {tree node : Node}
    {names : List Name} {found : List Path}
    (h : filesIn leaveOut shut reachable path tree = .ok found)
    (hat : tree.at? names = some node) (hdir : node.isDir = true)
    (hpass : ∀ front, front <+: names → front ≠ [] →
      leaveOut (path.joinAll front) true = .ok false) :
    ∃ inner, filesIn leaveOut shut true (path.joinAll names) node = .ok inner := by
  -- on the names, each of which leads the walk one directory further down
  induction names generalizing reachable path tree found with
  | nil =>
    cases hat
    exact ⟨found, filesIn_of_reachable h⟩
  | cons first rest ih =>
    rw [Node.at?] at hat
    obtain ⟨child, hchild, hrest⟩ := Option.bind_eq_some_iff.mp hat
    have hisDir : child.isDir = true := by
      by_cases hne : rest = []
      · subst hne
        cases hrest
        exact hdir
      · have hbelow : child.at? ([] ++ rest) = some node := hrest
        obtain ⟨dir, hdir', hisDir⟩ := Node.isDir_of_at hne hbelow
        cases hdir'
        exact hisDir
    obtain ⟨e, he, rfl⟩ := Option.map_eq_some_iff.mp hchild
    cases tree with
    | dir entries mode =>
      have hmem : e ∈ entries := List.mem_of_find?_eq_some he
      have hfirst : e.1 = first := by simpa using List.find?_some he
      rw [filesIn] at h
      split at h
      · have hout := hpass [first] (by simp) (by simp)
        rw [← hfirst] at hout
        obtain ⟨inner, hinner⟩ := filesIn_ok_of_mem h hmem (by rw [hisDir]; exact hout)
        rw [hfirst] at hinner
        refine ih hinner hrest fun front hbegins hne => ?_
        exact hpass (first :: front) (List.cons_prefix_cons.mpr ⟨rfl, hbegins⟩) (by simp)
      · cases h
    | file bytes mode => cases he
    | link target => cases he

/-- A walk in another place goes through, too, if it is given the same answers about the same
names. -/
theorem walkFrom_of_sameAnswers {d : Disk} {root start path : Path} {x x' : Excludes} {node : Node}
    {inner : List Path} (proper : node.Proper) (ordered : node.Ordered)
    (hnode : d.stat start = .ok node)
    (h : filesIn (leavesOut root x) (fun path => refusal root path .access) true path node =
      .ok inner)
    (hsame : SameAnswers (leavesOut root x) (leavesOut root x') path start) :
    ∃ found, walkFrom d root start x' = .ok found := by
  obtain ⟨rows, hrows⟩ := exists_rows proper ordered h
  have hfiles := hrows.walks _ (fun path => refusal root path .access) start hsame
  unfold walkFrom
  simp only [hnode, hfiles]
  exact ⟨_, rfl⟩

/-- The walk of discovery goes into the directory under a row of names: the excludes let in the
directory and every one on the way to it. -/
def Enters (x : Excludes) (names : List Name) : Prop :=
  ∀ front, front <+: names → front ≠ [] → x.isExcluded (ofNames front) true = .ok false

/-- It goes into a directory in the root that the excludes let in. -/
theorem enters_singleton {x : Excludes} {name : Name}
    (h : x.isExcluded (ofNames [name]) true = .ok false) : Enters x [name] := by
  intro front hbegins hne
  obtain ⟨first, rest, rfl⟩ := List.exists_cons_of_ne_nil hne
  obtain ⟨rfl, hrest⟩ := List.cons_prefix_cons.mp hbegins
  rw [List.prefix_nil.mp hrest]
  exact h

/-- Where the walk of discovery goes in, nothing is left out along names below the directory exactly
if nothing is left out along all the names. -/
theorem Enters.passes_iff {root dir : Path} {x : Excludes} {names below : List Name}
    (h : Enters x names) (hroot : root.chars ≠ []) (hseen : SeenAt root dir names)
    (hnames : ∀ n ∈ names, IsName n) (hbelow : ∀ n ∈ below, IsName n) (hsome : below ≠ []) :
    Passes (leavesOut root x) root (names ++ below) ↔ Passes (leavesOut root x) dir below := by
  rw [(seenAt_root hroot).passes_iff (by simp) (List.forall_mem_append.mpr ⟨hnames, hbelow⟩),
    hseen.passes_iff hnames hbelow]
  constructor
  · intro hall front behind heq hne
    exact hall (names ++ front) behind (by rw [heq, List.append_assoc]) (by simp [hne])
  · intro hall front behind heq hne
    -- what is asked about is a directory on the way, or stands below the directory
    have hway (hbegins : front <+: names) (hbehind : behind ≠ []) :
        x.isExcluded (ofNames ([] ++ front)) (!behind.isEmpty) = .ok false := by
      have hisDir : (!behind.isEmpty) = true := by simpa using hbehind
      rw [hisDir]
      exact h front hbegins hne
    rcases List.append_eq_append_iff.mp heq with ⟨rest, rfl, hrest⟩ | ⟨rest, hfront, rfl⟩
    · by_cases hnil : rest = []
      · subst hnil
        refine hway (by simp) ?_
        rintro rfl
        exact hsome hrest
      · exact hall rest behind hrest hnil
    · exact hway ⟨rest, hfront.symm⟩ (by simp [hsome])

section Below

variable {d : Disk} {root dir : Path} {x : Excludes} {tree node : Node} {names : List Name}
  (proper : d.top.Proper) (ordered : d.top.Ordered) (htree : d.stat root = .ok tree)
  (hne : names ≠ []) (hat : tree.at? names = some node) (hisDir : node.isDir = true)
  (hdir : d.stat dir = .ok node)

/-- What is seen under names behind a root lies below the root. -/
theorem SeenAt.startsWith (hseen : SeenAt root dir names) (hnames : ∀ n ∈ names, IsName n)
    (hroot : root.chars ≠ []) (hdirne : dir.chars ≠ []) : dir.startsWith root = true := by
  have hname : ∀ n ∈ [['a']], IsName n := by decide
  have hcomponents := components_stripPrefix hroot (hseen [['a']] (by simp) hname)
  rw [joinAll_eq hname (by simp), components_join hdirne rfl,
    components_ofNames (List.forall_mem_append.mpr ⟨hnames, hname⟩), List.map_append,
    ← List.append_assoc] at hcomponents
  rw [Path.startsWith_iff, (List.append_inj' hcomponents rfl).1]
  exact List.prefix_append _ _

include proper ordered htree hat hisDir hdir

/-- Where the walk of discovery goes in, walking in the directory finds what discovery finds below
it. -/
theorem sourcesUnder_eq (hseen : SeenAt root dir names) (henters : Enters x names)
    {found : List Path} (h : sources d root x = .ok found) :
    sourcesUnder d root dir x = .ok (found.filter (·.startsWith (ofNames names))) := by
  have hroot := chars_ne_nil_of_stat htree
  have hseenRoot := seenAt_root hroot
  obtain ⟨top, htop⟩ := Disk.exists_at_of_stat htree
  have hproper := proper.at htop
  have hordered := ordered.at htop
  have hnames := hproper.isName_of_at hat
  obtain ⟨tree', htree', htreeDir, hwalk⟩ := walkFrom_of_sources h
  obtain rfl : tree = tree' := Except.ok.inj (htree.symm.trans htree')
  -- the walk of discovery goes through the directory
  obtain ⟨under, hunder⟩ : ∃ under, walkFrom d root dir x = .ok under := by
    obtain ⟨files, hfiles, -⟩ := mem_walkFrom_iff htree hwalk
    obtain ⟨inner, hinner⟩ := exists_filesIn_of_at hfiles hat hisDir fun front hbegins hfront =>
      (hseenRoot.leavesOut_iff (by simp) hfront fun n hn => hnames n (hbegins.subset hn)).mpr
        (henters front hbegins hfront)
    refine walkFrom_of_sameAnswers (hproper.at hat) (hordered.at hat) hdir hinner ?_
    intro below hbelow hbelowNames isDir
    have hall := List.forall_mem_append.mpr ⟨hnames, hbelowNames⟩
    have hseenAll := hseenRoot (names ++ below) (by simp [hbelow]) hall
    rw [List.nil_append, joinAll, List.foldl_append] at hseenAll
    unfold leavesOut
    rw [hseen below hbelow hbelowNames, joinAll, joinAll, hseenAll]
  have hstarts := hseen.startsWith hnames hroot (chars_ne_nil_of_stat hdir)
  rw [sourcesUnder, if_pos hstarts, hunder, Except.ok.injEq]
  refine eq_of_before
    (hseen.pairwise_walkFrom hnames hdir hisDir (hproper.at hat) (hordered.at hat) hunder)
    ((hseenRoot.pairwise_walkFrom (by simp) htree htreeDir hproper hordered hwalk).filter _) ?_
  intro s
  rw [hseen.mem_walkFrom_iff hnames hroot hdir hisDir (hproper.at hat) hunder, List.mem_filter,
    mem_sources htree hproper h]
  constructor
  · rintro ⟨below, hbelow, hfile, rfl, hsource, hpasses⟩
    have hbelowNames := hfile.isName (hproper.at hat)
    refine ⟨⟨names ++ below, by simp [hbelow], (Node.hasFile_append hproper hat).mpr hfile, rfl,
      hsource, (henters.passes_iff hroot hseen hnames hbelowNames hbelow).mpr hpasses⟩, ?_⟩
    exact (startsWith_ofNames (List.forall_mem_append.mpr ⟨hnames, hbelowNames⟩) hnames).mpr
      (List.prefix_append ..)
  · rintro ⟨⟨row, hrow, hfile, rfl, hsource, hpasses⟩, hbegins⟩
    have hrowNames := hfile.isName hproper
    obtain ⟨below, rfl⟩ := (startsWith_ofNames hrowNames hnames).mp hbegins
    have hinner := (Node.hasFile_append hproper hat).mp hfile
    have hbelow : below ≠ [] := by
      rintro rfl
      cases hinner
      cases hisDir
    exact ⟨below, hbelow, hinner, rfl, hsource, (henters.passes_iff hroot hseen hnames
      (hinner.isName (hproper.at hat)) hbelow).mp hpasses⟩

/-- The elements of discovery below the directory, as paths and in order, are what a walk in it
finds. -/
def Restricts (d : Disk) (root dir : Path) (names : List Name) (x : Excludes) : Prop :=
  ∀ found, sources d root x = .ok found → ∃ under, sourcesUnder d root dir x = .ok under ∧
    under.map components = (found.filter (·.startsWith (ofNames names))).map components

end Below

/-! ## Directories that are spelled otherwise -/

section Spelled

variable {d : Disk} {root dir : Path} {x : Excludes} {tree node : Node} {names : List Name}

/-- The excludes of a path that is not that of a row of names leave discovery as it is. -/
theorem sources_one {p : Path} (proper : tree.Proper) (ordered : tree.Ordered)
    (htree : d.stat root = .ok tree) (hx : x.rules = [Excludes.ruleOf p])
    (hxroot : x.root.head? = some '/') (hother : ∀ row, (∀ n ∈ row, IsName n) → ofNames row ≠ p)
    {all : List Path} (hall : sources d root .empty = .ok all) : sources d root x = .ok all := by
  have hseen := seenAt_root (chars_ne_nil_of_stat htree)
  have hsame : SameAnswers (leavesOut root .empty) (leavesOut root x) root root := by
    intro below hne hbelow isDir
    have hin : x.isExcluded (ofNames ([] ++ below)) isDir = .ok false :=
      Excludes.isExcluded_other hx hxroot hbelow hne
        (fun front hbegins => hother front fun n hn => hbelow n (hbegins.subset hn)) isDir
    have hempty : Excludes.empty.isExcluded (ofNames ([] ++ below)) isDir = .ok false := rfl
    rw [(hseen.leavesOut_iff (by simp) hne hbelow).mpr hin,
      (hseen.leavesOut_iff (by simp) hne hbelow).mpr hempty]
  obtain ⟨tree', htree', hisDir, hwalk⟩ := walkFrom_of_sources hall
  obtain rfl : tree = tree' := Except.ok.inj (htree.symm.trans htree')
  have hroot : d.isDir root = true := by rwa [Disk.isDir, htree]
  rw [sources, if_pos hroot]
  unfold walkFrom at hwalk ⊢
  simp only [htree] at hwalk ⊢
  cases hfiles : filesIn (leavesOut root .empty) (fun path => refusal root path .access) true root
    tree with
  | error e =>
    rw [hfiles] at hwalk
    cases hwalk
  | ok files =>
    obtain ⟨rows, hrows⟩ := exists_rows proper ordered hfiles
    -- both walks list the same rows, since both are given the same answers
    have hself := hrows.walks _ (fun path => refusal root path .access) root fun _ _ _ _ => rfl
    rw [hrows.walks _ (fun path => refusal root path .access) root hsame, ← hself]
    exact hwalk

/-- Whatever stands in front of the last names of a source, the text ends like a source. -/
theorem exists_last_of_isSource {below : List Name} (hnames : ∀ n ∈ names, IsName n)
    (hbelow : ∀ n ∈ below, IsName n) (hsource : Artifact.isSource (ofNames (names ++ below)) = true)
    (hsome : below ≠ []) (pieces : List Name) :
    ∃ front, (ofNames (pieces ++ below)).chars = front ++ ['t'] := by
  obtain ⟨stem, -, hlast⟩ := Artifact.getLast_source hsource
  obtain ⟨dirs, last, rfl⟩ := (List.eq_nil_or_concat below).resolve_left hsome
  rw [List.concat_eq_append] at hlast hbelow ⊢
  rw [components_ofNames (List.forall_mem_append.mpr ⟨hnames, hbelow⟩), ← List.append_assoc,
    List.map_append, List.map_singleton, List.getLast?_concat, Option.some.injEq,
    Component.name.injEq] at hlast
  obtain ⟨before, hbefore⟩ := exists_chars_ofNames (pieces ++ dirs) last
  refine ⟨before ++ stem ++ ".cive".toList, ?_⟩
  rw [← List.append_assoc, hbefore, hlast]
  simp [Artifact.sourceExtension]

/-- However a directory below the root is spelled, what stands in it is seen behind pieces that make
the names of the directory. -/
theorem exists_seenAt (hroot : root.chars ≠ [])
    (hdir : dir.components = root.components ++ names.map .name) (hne : names ≠ []) :
    ∃ pieces, (∀ piece ∈ pieces, '/' ∉ piece) ∧
      pieces.filterMap Component.ofPiece? = names.map .name ∧ SeenAt root dir pieces := by
  obtain ⟨pieces, hfree, hpieces, hstrip⟩ := exists_behind hroot hdir hne
  refine ⟨pieces, hfree, hpieces, fun below hbelow hbelowNames => ?_⟩
  rw [joinAll_eq hbelowNames hbelow, hstrip _ (tidy_ofNames hbelowNames hbelow),
    allPieces_ofNames (fun n hn => (hbelowNames n hn).free) hbelow]

/-- Pieces with names behind them are a row of names only if they are names themselves. -/
theorem ofNames_ne_of_pieces {pieces below row : List Name} (hfree : ∀ piece ∈ pieces, '/' ∉ piece)
    (hpieces : pieces.filterMap Component.ofPiece? = names.map .name) (hother : pieces ≠ names)
    (hbelow : ∀ n ∈ below, IsName n) (hsome : below ≠ []) (hrow : ∀ n ∈ row, IsName n)
    (hne : row ≠ []) : ofNames row ≠ ofNames (pieces ++ below) := by
  intro heq
  have hpath := congrArg allPieces heq
  rw [allPieces_ofNames (fun n hn => (hrow n hn).free) hne,
    allPieces_ofNames (List.forall_mem_append.mpr ⟨hfree, fun n hn => (hbelow n hn).free⟩)
      (by simp [hsome])] at hpath
  have hnames : ∀ n ∈ pieces, IsName n := fun n hn =>
    hrow n (by rw [hpath]; exact List.mem_append_left _ hn)
  rw [filterMap_ofPiece hnames] at hpieces
  exact hother (List.map_injective_iff.mpr (fun _ _ heq => Component.name.inj heq) hpieces)

/-- A walk in a directory does not find a source that is excluded as the walk sees it. -/
theorem not_mem_of_excluded {pieces below : List Name} {under : List Path} (hroot : root.chars ≠ [])
    (hseen : SeenAt root dir pieces) (hdir : d.stat dir = .ok node) (hisDir : node.isDir = true)
    (proper : node.Proper) (hcomponents : dir.components = root.components ++ names.map .name)
    (hbelow : ∀ n ∈ below, IsName n) (hsome : below ≠ [])
    (hchars : (ofNames (pieces ++ below)).chars ≠ [])
    (hout : x.isExcluded (ofNames (pieces ++ below)) false = .ok true)
    (h : walkFrom d root dir x = .ok under) {s : Path} (hs : s ∈ under) :
    s.components ≠ (names ++ below).map .name := by
  intro heq
  obtain ⟨files, hfiles, hmem⟩ := mem_walkFrom_iff hdir h
  obtain ⟨q, hq, -, hstrip⟩ := (hmem s).mp hs
  obtain ⟨row, hfile, rfl, hpasses⟩ := (mem_filesIn_iff hfiles).mp hq
  have hrow := hfile.isName proper
  have hrowne : row ≠ [] := by
    rintro rfl
    cases hfile
    cases hisDir
  -- it would be the source under the same names, which is not let in
  have hjoined := components_stripPrefix hroot hstrip
  rw [joinAll_eq hrow hrowne, components_join (chars_ne_nil_of_stat hdir) (isRooted_ofNames hrow),
    ← (tidy_ofNames hrow hrowne).components, components_ofNames hrow, hcomponents, heq,
    List.append_assoc, List.append_right_inj, List.map_append, List.append_right_inj] at hjoined
  have hsame : row = below :=
    List.map_injective_iff.mpr (fun _ _ heq => Component.name.inj heq) hjoined
  subst hsame
  have hin := hpasses row [] (by simp) hrowne
  simp [leavesOut, hseen row hrowne hrow, hchars, hout] at hin

/-- Where a walk in a directory finds what discovery finds below it whatever the excludes are, and
there is something to find, what stands in the directory is seen under its names. -/
theorem seenAt_of_restricts (rooted : root.isRooted = true) (proper : d.top.Proper)
    (ordered : d.top.Ordered) (htree : d.stat root = .ok tree) (hne : names ≠ [])
    (hat : tree.at? names = some node) (hisDir : node.isDir = true) (hdir : d.stat dir = .ok node)
    (hsame : dir.same (root.joinAll names) = true) {all : List Path} {s : Path}
    (hall : sources d root .empty = .ok all) (hs : s ∈ all)
    (hbelow : s.startsWith (ofNames names) = true)
    (h : ∀ patterns x, Excludes.ofPatterns root patterns = .ok x → Enters x names →
      Restricts d root dir names x) : SeenAt root dir names := by
  have hroot := chars_ne_nil_of_isRooted rooted
  obtain ⟨top, htop⟩ := Disk.exists_at_of_stat htree
  have hproper := proper.at htop
  have hnames := hproper.isName_of_at hat
  have hcomponents : dir.components = root.components ++ names.map .name := by
    rw [same_iff.mp hsame, joinAll_eq hnames hne, components_join hroot (isRooted_ofNames hnames),
      ← (tidy_ofNames hnames hne).components, components_ofNames hnames]
  obtain ⟨pieces, hfree, hpieces, hseen⟩ := exists_seenAt hroot hcomponents hne
  by_cases hplain : pieces = names
  · rwa [← hplain]
  -- the source below the directory, as it is seen from the root and as the walk spells it
  obtain ⟨row, -, hfile, rfl, hsource, -⟩ := (mem_sources htree hproper hall).mp hs
  have hrow := hfile.isName hproper
  obtain ⟨below, rfl⟩ := (startsWith_ofNames hrow hnames).mp hbelow
  have hinner := (Node.hasFile_append hproper hat).mp hfile
  have hbelowNames := hinner.isName (hproper.at hat)
  have hsome : below ≠ [] := by
    rintro rfl
    cases hinner
    cases hisDir
  obtain ⟨front, hlast⟩ := exists_last_of_isSource hnames hbelowNames hsource hsome pieces
  have hchars : (ofNames (pieces ++ below)).chars ≠ [] := by simp [hlast]
  have hodd (row : List Name) (hrow : ∀ n ∈ row, IsName n) :
      ofNames row ≠ ofNames (pieces ++ below) := by
    by_cases hnil : row = []
    · rintro heq
      rw [← heq, hnil] at hchars
      exact hchars rfl
    · exact ofNames_ne_of_pieces hfree hpieces hplain hbelowNames hsome hrow hnil
  -- the excludes of what the walk spells leave discovery as it is, and the walk finds less
  have hx := Excludes.ofPatterns_one hlast root
  have hxroot := Excludes.head_ofPatterns hx rooted
  obtain ⟨under, hunder, hmap⟩ := h _ _ hx
    (fun front hbegins hfront => Excludes.isExcluded_other rfl hxroot
      (fun n hn => hnames n (hbegins.subset hn)) hfront (fun first hfirst =>
        hodd first fun n hn => hnames n (hbegins.subset (hfirst.subset hn))) true)
    all (sources_one hproper (ordered.at htop) htree rfl hxroot hodd hall)
  have hfound : (ofNames (names ++ below)).components ∈ under.map components := by
    rw [hmap]
    exact List.mem_map_of_mem (List.mem_filter.mpr ⟨hs, hbelow⟩)
  obtain ⟨s, hmem, hcomponent⟩ := List.mem_map.mp hfound
  have hstarts : dir.startsWith root = true := by
    rw [startsWith_iff, hcomponents]
    exact List.prefix_append _ _
  rw [sourcesUnder, if_pos hstarts] at hunder
  have htidy := (stripPrefix_tidy hroot (hseen below hsome hbelowNames)).resolve_left hchars
  refine absurd ?_ (not_mem_of_excluded hroot hseen hdir hisDir (hproper.at hat) hcomponents
    hbelowNames hsome hchars (Excludes.isExcluded_itself rfl hxroot htidy false) hunder hmem)
  rw [hcomponent, components_ofNames hrow]

/-- A walk in a directory that discovery goes into finds exactly what discovery finds below it, in
the same order, if what stands in the directory is seen under its names. However else a path of the
directory is spelled, there are excludes with which it finds something else. And a walk in what does
not begin with the path of the root finds nothing. -/
theorem sourcesUnder_restricts (proper : d.top.Proper) (ordered : d.top.Ordered)
    (htree : d.stat root = .ok tree) (hne : names ≠ []) (hat : tree.at? names = some node)
    (hisDir : node.isDir = true) (hdir : d.stat dir = .ok node)
    (hsame : dir.same (root.joinAll names) = true) :
    (SeenAt root dir names → ∀ x found, Enters x names → sources d root x = .ok found →
      sourcesUnder d root dir x = .ok (found.filter (·.startsWith (ofNames names)))) ∧
    (∀ all s, root.isRooted = true → sources d root .empty = .ok all → s ∈ all →
      s.startsWith (ofNames names) = true →
      ((∀ patterns x, Excludes.ofPatterns root patterns = .ok x → Enters x names →
        Restricts d root dir names x) ↔ SeenAt root dir names)) ∧
    ∀ other x, other.startsWith root = false → sourcesUnder d root other x = .ok [] := by
  refine ⟨fun hseen x found henters h => ?_, fun all s rooted hall hs hbelow => ⟨fun h => ?_, ?_⟩,
    fun other x hstarts => ?_⟩
  · exact sourcesUnder_eq proper ordered htree hat hisDir hdir hseen henters h
  · exact seenAt_of_restricts rooted proper ordered htree hne hat hisDir hdir hsame hall hs hbelow h
  · intro hseen patterns x _ henters found h
    exact ⟨_, sourcesUnder_eq proper ordered htree hat hisDir hdir hseen henters h, rfl⟩
  · rw [sourcesUnder, hstarts, if_neg Bool.false_ne_true]

end Spelled

/-- A directory that is spelled by its names behind the root is seen under them. -/
theorem seenAt_joinAll {root : Path} {names : List Name} (hroot : root.chars ≠ [])
    (hnames : ∀ n ∈ names, IsName n) : SeenAt root (root.joinAll names) names := by
  intro below hne hbelow
  rw [joinAll, joinAll, ← List.foldl_append]
  exact seenAt_root hroot (names ++ below) (by simp [hne])
    (List.forall_mem_append.mpr ⟨hnames, hbelow⟩)

/-- The files of a project with a directory. -/
def nestedTree : Node :=
  .dir [("pkg".toList, .dir [("a.civet".toList, .file [] 0o644),
    ("b.civet".toList, .file [] 0o644)] 0o755), ("z.civet".toList, .file [] 0o644)] 0o755

/-- A disk that holds the project. -/
def nestedDisk : Disk :=
  ⟨.dir [("p".toList, nestedTree)] 0o755, []⟩

/-- The names on that disk are in order. -/
theorem ordered_nestedDisk : nestedDisk.top.Ordered := by
  refine .dir (List.pairwise_singleton ..) (List.forall_mem_singleton.mpr (.dir (by decide) ?_))
  simp only [List.forall_mem_cons]
  refine ⟨.dir (by decide) ?_, .file _ _, by simp⟩
  simp only [List.forall_mem_cons]
  exact ⟨.file _ _, .file _ _, by simp⟩

/-- They are ordinary ones. -/
theorem proper_nestedDisk : nestedDisk.top.Proper := by
  refine .dir (by decide) (List.pairwise_singleton ..)
    (List.forall_mem_singleton.mpr (.dir (by decide) (by decide) ?_))
  simp only [List.forall_mem_cons]
  refine ⟨.dir (by decide) (by decide) ?_, .file _ _, by simp⟩
  simp only [List.forall_mem_cons]
  exact ⟨.file _ _, .file _ _, by simp⟩

/-- In that project, a walk in the directory finds the source that discovery finds there. -/
theorem sourcesUnder_restricts_nested :
    ∃ x, Excludes.ofPatterns (.ofString "/p") ["b.civet"] = .ok x ∧
      sources nestedDisk (.ofString "/p") x =
        .ok [.ofString "pkg/a.civet", .ofString "z.civet"] ∧
      sourcesUnder nestedDisk (.ofString "/p") (.ofString "/p/pkg") x =
        .ok [.ofString "pkg/a.civet"] := by
  have hrun : (Excludes.ofPatterns (.ofString "/p") ["b.civet"]).toOption.map (fun x =>
      (sources nestedDisk (.ofString "/p") x, x.isExcluded (ofNames ["pkg".toList]) true)) =
      some (.ok [.ofString "pkg/a.civet", .ofString "z.civet"], .ok false) := by decide +kernel
  obtain ⟨x, hx, hshown⟩ := exists_ok_of_map hrun
  obtain ⟨hfound, hin⟩ := Prod.mk.inj hshown
  refine ⟨x, hx, hfound, ?_⟩
  exact (sourcesUnder_restricts proper_nestedDisk ordered_nestedDisk rfl (by simp) rfl rfl rfl
    (by decide)).1 (seenAt_joinAll (by decide) (by decide)) x _ (enters_singleton hin) hfound

/-- With a `.` behind its name, a walk in the directory finds a source that the excludes keep out of
discovery. And a walk in the directory above the root, if it is named from the root, finds all that
is in the root. -/
theorem not_restricts_dotted :
    (∃ x, Excludes.ofPatterns (.ofString "/p") ["/pkg/a.civet"] = .ok x ∧
      Enters x ["pkg".toList] ∧ (Path.ofString "/p/pkg/.").same (.ofString "/p/pkg") = true ∧
      ¬Restricts nestedDisk (.ofString "/p") (.ofString "/p/pkg/.") ["pkg".toList] x) ∧
    nestedDisk.stat (.ofString "/p/..") = .ok nestedDisk.top ∧
    sourcesUnder nestedDisk (.ofString "/p") (.ofString "/p/..") .empty =
      .ok [.ofString "../p/pkg/a.civet", .ofString "../p/pkg/b.civet",
        .ofString "../p/z.civet"] := by
  refine ⟨?_, rfl, by decide +kernel⟩
  have hrun : (Excludes.ofPatterns (.ofString "/p") ["/pkg/a.civet"]).toOption.map (fun x =>
      (sources nestedDisk (.ofString "/p") x, x.isExcluded (ofNames ["pkg".toList]) true,
        sourcesUnder nestedDisk (.ofString "/p") (.ofString "/p/pkg/.") x)) =
      some (.ok [.ofString "pkg/b.civet", .ofString "z.civet"], .ok false,
        .ok [.ofString "pkg/./a.civet", .ofString "pkg/./b.civet"]) := by decide +kernel
  obtain ⟨x, hx, hshown⟩ := exists_ok_of_map hrun
  obtain ⟨hfound, hrest⟩ := Prod.mk.inj hshown
  obtain ⟨hin, hodd⟩ := Prod.mk.inj hrest
  refine ⟨x, hx, enters_singleton hin, by decide, fun h => ?_⟩
  obtain ⟨under, hunder, hsame⟩ := h _ hfound
  rw [hodd] at hunder
  cases hunder
  revert hsame
  decide +kernel

end Discovery

end ArtifactSync
