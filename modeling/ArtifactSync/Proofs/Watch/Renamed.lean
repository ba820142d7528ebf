import ArtifactSync.Proofs.Watch.OnDisk

/-!
# Reports of renames

Watchers report one rename in several ways (`renameReports`). However a report is taken, as one event
or as several, each of them normalized before or behind the changes of those in front of it
(`Observed`), the session and the disk end up the same (`observed_rename`).

The reason is that all of them drop the old name and then add the new one, some of them twice. What
the new name stands for is looked up on disks that are later than the one on which the rename
happened, and there it stands for the same additions, or nothing can be read there any more
(`adds_cases`). Once the old name was dropped, dropping it again does nothing, since the additions
lie elsewhere; and once the sources were added, they are settled.
-/

namespace ArtifactSync

open Path Artifact

/-! ## A rename that has happened -/

/-- Below the root, the old row of names is gone, and under the new one stands a file or a directory.
Neither row goes on from the other. -/
structure Renamed (d : Disk) (root : Path) (old new : List Name) : Prop where
  old_ne : old ≠ []
  old_names : ∀ n ∈ old, IsName n
  new_ne : new ≠ []
  new_names : ∀ n ∈ new, IsName n
  old_apart : ¬old <+: new
  new_apart : ¬new <+: old
  gone : d.exists (root.join (ofNames old)) = false
  present : ∃ trail node, d.resolve (root.join (ofNames new)) false = .ok (.node trail node) ∧
    ∀ target, node ≠ .link target

/-- The ways in which a rename is reported: as one event with both names, as one event for each, as
all three, as a removal and a creation, and as an event that leaves open which name is which. -/
def renameReports (old new : Path) : List (List WatcherEvent) :=
  [[⟨.renameBoth, [old, new]⟩],
    [⟨.renameFrom, [old]⟩, ⟨.renameTo, [new]⟩],
    [⟨.renameFrom, [old]⟩, ⟨.renameTo, [new]⟩, ⟨.renameBoth, [old, new]⟩],
    [⟨.remove, [old]⟩, ⟨.create, [new]⟩],
    [⟨.renameUnclear, [old, new]⟩]]

/-- The changes that events stand for, behind earlier ones: each event is normalized on the disk as
some of the changes in front of its own have left it, be it none of them or all. -/
inductive Observed (x : Executor Disk) (excludes : Excludes) (now : Nat) (r : Run Disk) :
    List Change → List WatcherEvent → List Change → Prop
  | done (changes : List Change) : Observed x excludes now r changes [] changes
  | event {earlier own all : List Change} {e : WatcherEvent} {rest : List WatcherEvent}
      (handled : List Change) (before : handled <+: earlier)
      (normalized : e.normalize (r.apply x now handled).world x.root excludes = .ok own)
      (later : Observed x excludes now r (earlier ++ own) rest all) :
      Observed x excludes now r earlier (e :: rest) all

/-- What the new name of a rename leads to: a file or a directory under a name of its own, in the
directory that the pieces in front of the name lead to. -/
structure Target (d : Disk) (root : Path) (front : List Name) (name : Name) (base : List Name)
    (node : Node) : Prop where
  names : ∀ n ∈ front ++ [name], IsName n
  dirAt : d.dirAt (Disk.piecesOf root.chars ++ front) = some base
  there : d.top.at? (base ++ [name]) = some node
  link : ∀ target, node ≠ .link target
  stat : d.stat (root.join (ofNames (front ++ [name]))) = .ok node

/-- The new name of a rename leads to something. -/
theorem Renamed.target {d : Disk} {root : Path} {old new : List Name} (h : Renamed d root old new)
    (rooted : root.isRooted = true) :
    ∃ front name base node, new = front ++ [name] ∧ Target d root front name base node := by
  obtain ⟨front, name, rfl⟩ := (List.eq_nil_or_concat new).resolve_left h.new_ne
  rw [List.concat_eq_append] at h ⊢
  have hname : Disk.isName name = true := Disk.isName_of_isName (h.new_names name (by simp))
  have hends := endsIn_ofNames rooted h.new_names
  obtain ⟨trail, node, hresolve, hlink⟩ := h.present
  obtain ⟨hspelled, hfollow⟩ := Disk.follow_of_resolve hends.rooted hends.slash hresolve
  rw [hends.pieces] at hfollow
  obtain ⟨base, dir, hat, hdir, hentering, hnode⟩ := Disk.entry_of_follow hname hfollow
  refine ⟨front, name, base, node, rfl, h.new_names, hat, hnode, hlink, ?_⟩
  rw [Disk.stat_entry hends hat hname hdir hnode hlink, hspelled, hentering]
  rfl

/-! ## What the new name stands for -/

section Adds

open WatcherEvent

variable {d : Disk} {root : Path} {excludes : Excludes} (rooted : root.isRooted = true)
  (hx : excludes.root.head? = some '/')
include rooted hx

/-- The changes that a path below the root stands for when it appears. -/
theorem changesOf_join {q : Path} (hq : q.Tidy) :
    changesOf d root excludes .add (root.join q) = .ok
      (if excludes.verdict q (d.isDir (root.join q)) = true then []
      else if d.isDir (root.join q) = true then
        ((Discovery.walkFrom d root (root.join q) excludes).toOption.getD []).map (⟨.add, ·⟩)
      else [⟨.add, q⟩]) := by
  have hstarts := startsWith_join (chars_ne_nil_of_isRooted rooted) hq.isRooted
  have hnot := Discovery.sourcesUnder_ne_rooted rooted hx (d := d) (root.join q)
  unfold Discovery.sourcesUnder at hnot
  rw [if_pos hstarts] at hnot
  unfold changesOf
  rw [relativeTo_join rooted hq]
  simp only [if_neg hq.chars_ne_nil, Excludes.isExcluded_tidy hx hq, decide_true, Bool.true_and]
  unfold Discovery.sourcesUnder
  rw [if_pos hstarts]
  cases excludes.verdict q (d.isDir (root.join q)) with
  | true => rfl
  | false =>
    cases d.isDir (root.join q) with
    | false => rfl
    | true =>
      cases hwalk : Discovery.walkFrom d root (root.join q) excludes with
      | ok found => rfl
      | error e =>
        cases e with
        | rooted cause => exact absurd hwalk (hnot cause)
        | rootNotFound path => rfl
        | walk root message => rfl

end Adds

namespace Target

variable {d d' : Disk} {root : Path} {front : List Name} {name : Name} {base : List Name}
  {node : Node} (t : Target d root front name base node)
include t

/-- The name is a tidy path. -/
theorem tidy : (ofNames (front ++ [name])).Tidy :=
  tidy_ofNames t.names (by simp)

/-- Its pieces behind the root. -/
theorem piecesOf_eq (rooted : root.isRooted = true) {below : List Name}
    (hbelow : ∀ n ∈ below, IsName n) :
    Disk.piecesOf (root.join (ofNames (front ++ [name] ++ below))).chars =
      Disk.piecesOf root.chars ++ (front ++ [name]) ++ below := by
  have hnames : ∀ n ∈ front ++ [name] ++ below, IsName n := by
    intro n hn
    rcases List.mem_append.mp hn with hn | hn
    · exact t.names n hn
    · exact hbelow n hn
  rw [Disk.piecesOf_join (chars_ne_nil_of_isRooted rooted) (isRooted_ofNames hnames),
    Disk.piecesOf_ofNames hnames, ← List.append_assoc]

/-- It leads to a directory if that is what stands there. -/
theorem isDir_eq : d.isDir (root.join (ofNames (front ++ [name]))) = node.isDir := by
  rw [Disk.isDir, t.stat]

/-- Below it, one name after another. -/
theorem joinAll_below {below : List Name} (hbelow : ∀ n ∈ below, IsName n) :
    (root.join (ofNames (front ++ [name]))).joinAll below =
      root.join (ofNames (front ++ [name] ++ below)) := by
  have hnames : ∀ n ∈ front ++ [name] ++ below, IsName n := fun n hn =>
    (List.mem_append.mp hn).elim (t.names n) (hbelow n)
  rw [← joinAll_eq t.names (by simp), ← joinAll_eq hnames (by simp)]
  simp only [joinAll, List.foldl_append]

variable (rooted : root.isRooted = true)
include rooted

/-- Nothing is wrong with its text. -/
theorem spelled : Disk.spelling (root.join (ofNames (front ++ [name]))) = .ok () := by
  have hends := endsIn_ofNames rooted t.names
  have hstat := t.stat
  unfold Disk.stat at hstat
  split at hstat
  · cases hstat
  · cases hstat
  · next hresolve => exact (Disk.follow_of_resolve hends.rooted hends.slash hresolve).1

/-- On any disk it leads to a directory exactly if its pieces do. -/
theorem exists_dirAt_iff : d'.isDir (root.join (ofNames (front ++ [name]))) = true ↔
    ∃ names, d'.dirAt (Disk.piecesOf root.chars ++ (front ++ [name])) = some names := by
  have hpieces := t.piecesOf_eq rooted (List.forall_mem_nil IsName)
  rw [List.append_nil, List.append_nil] at hpieces
  have hrooted := isRooted_join rooted (ofNames (front ++ [name]))
  rw [← hpieces, Disk.isDir_iff hrooted]
  exact and_iff_right (t.spelled rooted)

/-- What it stands for are additions of sources in one tree. -/
theorem stands_of_adds {excludes : Excludes} (hx : excludes.root.head? = some '/')
    (proper : d.top.Proper) {own : List Change}
    (h : WatcherEvent.changesOf d root excludes .add (root.join (ofNames (front ++ [name]))) =
      .ok own) {c : Change} (hc : c ∈ own) :
    c.kind = .add ∧ ∃ below, (∀ n ∈ below, IsName n) ∧
      c.path = ofNames (front ++ [name] ++ below) ∧
        ∃ dirs last, Run.Stands d root front base c.path dirs last := by
  rw [changesOf_join rooted hx t.tidy, Except.ok.injEq, t.isDir_eq] at h
  rw [← h] at hc
  split at hc
  · cases hc
  · split at hc
    · next hdir =>
      -- the files that a walk finds in the directory have names below it
      obtain ⟨source, hsource, rfl⟩ := List.mem_map.mp hc
      cases hwalk : Discovery.walkFrom d root (root.join (ofNames (front ++ [name]))) excludes with
      | error e =>
        rw [hwalk] at hsource
        cases hsource
      | ok found =>
        rw [hwalk] at hsource
        obtain ⟨files, hfiles, hmem⟩ := Discovery.mem_walkFrom_iff t.stat hwalk
        obtain ⟨q, hq, -, hstrip⟩ := (hmem source).mp hsource
        obtain ⟨below, hfile, rfl, -⟩ := (Discovery.mem_filesIn_iff hfiles).mp hq
        have hproper := proper.at t.there
        have hbelow := hfile.isName hproper
        have hnames : ∀ n ∈ front ++ [name] ++ below, IsName n := by
          intro n hn
          exact (List.mem_append.mp hn).elim (t.names n) (hbelow n)
        rw [t.joinAll_below hbelow, stripPrefix_join (chars_ne_nil_of_isRooted rooted)
          (tidy_ofNames hnames (by simp)), Option.some.injEq] at hstrip
        refine ⟨rfl, below, hbelow, hstrip.symm, ?_⟩
        obtain ⟨bytes, mode, hat⟩ := hfile.at hproper
        rcases List.eq_nil_or_concat below with rfl | ⟨dirs, last, rfl⟩
        · -- the directory is no file
          cases hat
          cases hdir
        · rw [List.concat_eq_append] at hstrip hnames hat
          refine ⟨name :: dirs, last, ?_, ?_, t.dirAt, bytes, mode, ?_⟩
          · rw [← hstrip]
            simp
          · simpa using hnames
          · have hrow : base ++ name :: dirs ++ [last] = base ++ [name] ++ (dirs ++ [last]) := by
              simp
            rw [hrow, Node.at_append, t.there]
            exact hat
    · next hdir =>
      obtain rfl := List.mem_singleton.mp hc
      refine ⟨rfl, [], by simp, by rw [List.append_nil], [], name, by rw [List.append_nil],
        by simpa using t.names, t.dirAt, ?_⟩
      rw [List.append_nil, t.there]
      cases hnode : node with
      | file bytes mode => exact ⟨bytes, mode, rfl⟩
      | dir entries mode => rw [hnode] at hdir; exact absurd rfl hdir
      | link target => exact absurd hnode (t.link target)

section Later

variable {excludes : Excludes} (hx : excludes.root.head? = some '/') (later : Disk.Later d d')
  {own own' : List Change}
  (h : WatcherEvent.changesOf d root excludes .add (root.join (ofNames (front ++ [name]))) = .ok own)
include later

/-- If a directory's name leads to anything, it leads to a directory. -/
theorem isDir_of_stat (hdir : node.isDir = true) {there : Node}
    (hstat : d'.stat (root.join (ofNames (front ++ [name]))) = .ok there) : there.isDir = true := by
  have hends := endsIn_ofNames rooted t.names
  have hname : Disk.isName name = true := Disk.isName_of_isName (t.names name (by simp))
  cases hat : d'.dirAt (Disk.piecesOf root.chars ++ front) with
  | none =>
    obtain ⟨e, he⟩ := Disk.stat_of_dirAt_none hends.rooted hends.slash hends.pieces
      (List.cons_ne_nil name []) hat
    rw [he] at hstat
    cases hstat
  | some names =>
    obtain rfl : base = names := Option.some.inj (t.dirAt.symm.trans (later.dirAt hat))
    have houtline := later.outline_of_dir
      (Disk.outline_eq_some_iff.mpr ⟨node, t.there, rfl⟩) (by rwa [Node.isDir_emptied])
    obtain ⟨node', hnode, hemptied⟩ := Disk.outline_eq_some_iff.mp houtline
    have hisDir : node'.isDir = true := by
      rw [← Node.isDir_emptied, hemptied, Node.isDir_emptied, hdir]
    have hlink : ∀ target, node' ≠ .link target := by
      rintro target rfl
      cases hisDir
    obtain ⟨dir, hdirAt, -⟩ := Node.isDir_of_at (List.cons_ne_nil name []) hnode
    rw [Disk.stat_entry hends hat hname hdirAt hnode hlink, t.spelled rooted] at hstat
    cases hentering : Disk.entering dir name with
    | error e =>
      rw [hentering] at hstat
      cases hstat
    | ok _ =>
      rw [hentering] at hstat
      cases hstat
      exact hisDir

/-- Where the name does not lead to a directory any more, no source below it can be read, and neither
can the name itself. -/
theorem build_fails {d'' : Disk} (hdir : node.isDir = true)
    (hcut : d'.dirAt (Disk.piecesOf root.chars ++ (front ++ [name])) = none)
    (later' : Disk.Later d' d'') {below : List Name} (hbelow : ∀ n ∈ below, IsName n)
    (kind : OutputKind) (compile : String → Path → Except CompileError String)
    (faults : Call → Option FsError) :
    ∃ e, (Executor.overDisk root kind compile faults).build
      (ofNames (front ++ [name] ++ below)) d'' = (.error e, d'') := by
  have hcut'' : d''.dirAt (Disk.piecesOf root.chars ++ (front ++ [name])) = none := by
    cases hat : d''.dirAt (Disk.piecesOf root.chars ++ (front ++ [name])) with
    | none => rfl
    | some names =>
      rw [later'.dirAt hat] at hcut
      cases hcut
  refine build_of_textFor_none (textFor_of_readText ?_)
  rcases List.eq_nil_or_concat below with rfl | ⟨dirs, last, rfl⟩
  · -- the directory is still there, so if its name leads to anything, no text is read
    rw [List.append_nil]
    exact Disk.readText_of_isDir fun there => t.isDir_of_stat rooted (later.trans later') hdir
  · rw [List.concat_eq_append] at hbelow ⊢
    have hnames : ∀ n ∈ front ++ [name] ++ dirs ++ [last], IsName n := by
      intro n hn
      rw [List.append_assoc] at hn
      rcases List.mem_append.mp hn with hn | hn
      · exact t.names n hn
      · exact hbelow n hn
    have hends := endsIn_ofNames rooted hnames
    have hpieces := t.piecesOf_eq rooted hbelow
    rw [← List.append_assoc (front ++ [name])] at hpieces ⊢
    exact Disk.readText_of_stat (Disk.stat_of_dirAt_none hends.rooted hends.slash hpieces
      (by simp) hcut'')

include hx h

/-- On a later disk the name stands for the same additions, or it leads to no directory any more and
stands for itself at most. -/
theorem adds_cases (h' : WatcherEvent.changesOf d' root excludes .add
      (root.join (ofNames (front ++ [name]))) = .ok own') :
    own' = own ∨ (node.isDir = true ∧
      d'.dirAt (Disk.piecesOf root.chars ++ (front ++ [name])) = none ∧
      ∀ c ∈ own', c = ⟨.add, ofNames (front ++ [name])⟩) := by
  rw [changesOf_join rooted hx t.tidy, Except.ok.injEq] at h h'
  by_cases hdir' : d'.isDir (root.join (ofNames (front ++ [name]))) = true
  · refine .inl ?_
    have hrooted := isRooted_join rooted (ofNames (front ++ [name]))
    obtain ⟨-, names, hat'⟩ := (Disk.isDir_iff hrooted).mp hdir'
    obtain ⟨dir, hnode, hisDir, hstat⟩ := Disk.stat_of_dirAt hrooted (later.dirAt hat')
    obtain ⟨dir', hnode', -, hstat'⟩ := Disk.stat_of_dirAt hrooted hat'
    rw [t.spelled rooted] at hstat hstat'
    have hdir : d.isDir (root.join (ofNames (front ++ [name]))) = true := by
      rw [Disk.isDir, hstat]
      exact hisDir
    -- a walk finds the same sources in it
    have hsources := later.sources names dir dir' hnode hisDir hnode'
    rw [← h, ← h', hdir, hdir', hsources.walkFrom_eq rooted hx hstat hstat']
  · rw [Bool.not_eq_true] at hdir'
    rw [hdir'] at h'
    by_cases hdir : node.isDir = true
    · refine .inr ⟨hdir, ?_, fun c hc => ?_⟩
      · cases hat : d'.dirAt (Disk.piecesOf root.chars ++ (front ++ [name])) with
        | none => rfl
        | some names =>
          rw [(t.exists_dirAt_iff rooted).mpr ⟨names, hat⟩] at hdir'
          cases hdir'
      · rw [← h'] at hc
        split at hc
        · cases hc
        · simpa using hc
    · rw [Bool.not_eq_true] at hdir
      rw [t.isDir_eq, hdir] at h
      exact .inl (h'.symm.trans h)

end Later

end Target

/-! ## Dropping the old name -/

namespace Run

section Forgets

variable {σ : Type} {r : Run σ} {x : Executor σ} {dir : Path} {now : Nat}

/-- Nothing at or below a path is tracked. -/
def Forgets (r : Run σ) (dir : Path) : Prop :=
  ∀ s ∈ r.session.sources.paths, s.startsWith dir = false

/-- When a path disappears, nothing at or below it is tracked any more, unless sources below sources
were. -/
theorem forgets_unlink (watching : r.session.phase = .watching) (named : dir.chars ≠ [])
    (htracked : ∀ s ∈ r.session.sources.paths, isSource s = true)
    (flat : ∀ s ∈ r.session.sources.paths, ∀ t ∈ r.session.sources.paths,
      s.startsWith t = true → s.same t = true) :
    Forgets (r.handle x ⟨.unlink, dir⟩ now).2 dir := by
  by_cases hdir : r.session.sources.contains dir = true
  · -- the path is a source, and the only one at or below itself
    obtain ⟨t, ht, hsame⟩ := PathSet.contains_iff.mp hdir
    have hs : isSource dir = true := by rw [← isSource_eq_of_same hsame, htracked t ht]
    have hhandle : (r.handle x ⟨.unlink, dir⟩ now).2 = onUnlink x now r dir := by
      simp [handle, watching, hdir, hs]
    intro s hmem
    rw [hhandle, onUnlink_session] at hmem
    obtain ⟨hmem, hne⟩ := PathSet.mem_erase.mp hmem
    by_contra hbelow
    have hstarts : s.startsWith t = true := by
      rw [startsWith, same_iff.mp hsame]
      simpa [startsWith] using hbelow
    rw [same_trans (flat s hmem t ht hstarts) hsame] at hne
    cases hne
  · exact sources_unlink now watching named (by simpa using hdir)

/-- When it disappears again, nothing happens. -/
theorem Forgets.handle (h : Forgets r dir) : (r.handle x ⟨.unlink, dir⟩ now).2 = r := by
  have huntracked : r.session.sources.contains dir = false := by
    refine PathSet.contains_eq_false_iff.mpr fun s hs => ?_
    by_contra hsame
    have heq : s.components = dir.components := same_iff.mp (by simpa using hsame)
    have hstarts : s.startsWith dir = true := by
      rw [startsWith_iff]
      exact heq ▸ List.prefix_rfl
    rw [h s hs] at hstarts
    cases hstarts
  have hbelow : r.session.sources.paths.filter (·.startsWith dir) = [] := by
    rw [List.filter_eq_nil_iff]
    exact fun s hs => by simp [h s hs]
  unfold Run.handle
  split
  · rfl
  · simp only [huntracked, Bool.not_false, if_true, onUnlinkTree, hbelow, ite_self]

/-- Sources that are added elsewhere do not bring it back. -/
theorem Forgets.apply {changes : List Change} (h : Forgets r dir)
    (helsewhere : ∀ c ∈ changes, c.path.startsWith dir = false) :
    Forgets (r.apply x now changes) dir :=
  sources_apply (fun c hc _ _ => helsewhere c hc) h

end Forgets

end Run

/-- What lies at or below one of two rows that do not go on from each other does not lie at or below
the other. -/
theorem startsWith_of_apart {old new below : List Name} (hold : ∀ n ∈ old, IsName n)
    (hnew : ∀ n ∈ new, IsName n) (hbelow : ∀ n ∈ below, IsName n) (old_apart : ¬old <+: new)
    (new_apart : ¬new <+: old) : (ofNames (new ++ below)).startsWith (ofNames old) = false := by
  have hnames : ∀ n ∈ new ++ below, IsName n := fun n hn =>
    (List.mem_append.mp hn).elim (hnew n) (hbelow n)
  have hinjective : Function.Injective Component.name := fun _ _ heq => Component.name.inj heq
  by_contra hstarts
  rw [Bool.not_eq_false, startsWith_iff, components_ofNames hold,
    components_ofNames hnames, List.prefix_map_iff_of_injective hinjective] at hstarts
  exact (List.prefix_or_prefix_of_prefix hstarts (List.prefix_append new below)).elim old_apart
    new_apart

/-! ## The reports of a rename -/

section Reports

open WatcherEvent

variable {root : Path} {kind : OutputKind}
  {compile : String → Path → Except CompileError String} {faults : Call → Option FsError}
  {excludes : Excludes} {r : Run Disk} {front base : List Name} {name : Name} {node : Node}
  (rooted : root.isRooted = true) (hx : excludes.root.head? = some '/')
  (proper : r.world.top.Proper) (t : Target r.world root front name base node)

/-- A change that names a source by ordinary names has its place. -/
theorem exists_site {root : Path} (rooted : root.isRooted = true) {p : Path} {names : List Name}
    (hp : p = ofNames names) (hnames : ∀ n ∈ names, IsName n) (hs : isSource p = true)
    (kind : OutputKind) : ∃ ps last, Site root kind p ps last := by
  subst hp
  rcases List.eq_nil_or_concat names with rfl | ⟨front, last, rfl⟩
  · exact absurd rfl (chars_ne_nil_of_isSource hs)
  · rw [List.concat_eq_append] at hnames hs ⊢
    exact ⟨_, last, site_ofNames rooted hnames hs kind⟩

include rooted hx proper t

/-- On a later disk, the new name stands for additions at and below itself. -/
theorem path_of_adds {d : Disk} (later : Disk.Later r.world d) {own : List Change}
    (h : changesOf d root excludes .add (root.join (ofNames (front ++ [name]))) = .ok own)
    {c : Change} (hc : c ∈ own) : c.kind = .add ∧
      ∃ below, (∀ n ∈ below, IsName n) ∧ c.path = ofNames (front ++ [name] ++ below) := by
  obtain ⟨first, hfirst⟩ := changesOf_ok (d := r.world) rooted hx .add
    (root.join (ofNames (front ++ [name])))
  rcases t.adds_cases rooted hx later hfirst h with rfl | ⟨-, -, hself⟩
  · obtain ⟨hkind, below, hbelow, hpath, -⟩ := t.stands_of_adds rooted hx proper hfirst hc
    exact ⟨hkind, below, hbelow, hpath⟩
  · rw [hself c hc]
    exact ⟨rfl, [], by simp, by rw [List.append_nil]⟩

/-- Additions that the new name stands for on a later disk are settled once those are that it stood
for in the beginning. -/
theorem settled_of_adds {d : Disk} {r' : Run Disk} (later : Disk.Later r.world d)
    (later' : Disk.Later d r'.world) {first own : List Change}
    (hfirst : changesOf r.world root excludes .add (root.join (ofNames (front ++ [name]))) =
      .ok first)
    (h : changesOf d root excludes .add (root.join (ofNames (front ++ [name]))) = .ok own)
    (hsettled : ∀ c ∈ first,
      Run.Settled (Executor.overDisk root kind compile faults) r' c.path) :
    ∀ c ∈ own, c.kind = .add ∧
      Run.Settled (Executor.overDisk root kind compile faults) r' c.path := by
  intro c hc
  obtain ⟨hkind, below, hbelow, hpath⟩ := path_of_adds rooted hx proper t later h hc
  refine ⟨hkind, ?_⟩
  rcases t.adds_cases rooted hx later hfirst h with rfl | ⟨hdir, hcut, -⟩
  · exact hsettled c hc
  · rw [hpath]
    exact fun _ => .inl (t.build_fails rooted later hdir hcut later' hbelow kind compile faults)

/-- Where the old name was dropped, adding what the new name stands for on a disk before that comes to
the same as adding what it stood for in the beginning. -/
theorem alike_apply_adds (ordered : r.world.top.Ordered) {d : Disk} {r' : Run Disk}
    (watching : r'.session.phase = .watching)
    (later : Disk.Later r.world d) (later' : Disk.Later d r'.world) {first own : List Change}
    (hfirst : changesOf r.world root excludes .add (root.join (ofNames (front ++ [name]))) =
      .ok first)
    (h : changesOf d root excludes .add (root.join (ofNames (front ++ [name]))) = .ok own)
    (now : Nat) :
    Run.Alike (r'.apply (Executor.overDisk root kind compile faults) now first)
      (r'.apply (Executor.overDisk root kind compile faults) now own) := by
  rcases t.adds_cases rooted hx later hfirst h with rfl | ⟨hdir, hcut, -⟩
  · exact .refl _
  · -- nothing can be read there, so neither changes anything
    have hfails {d' : Disk} (hd' : Disk.Later r.world d') {changes : List Change}
        (hchanges : changesOf d' root excludes .add (root.join (ofNames (front ++ [name]))) =
          .ok changes) :
        Run.Alike r' (r'.apply (Executor.overDisk root kind compile faults) now changes) := by
      refine Run.alike_apply_of_settled watching (fun c hc => ?_) now
      obtain ⟨hkind, below, hbelow, hpath⟩ := path_of_adds rooted hx proper t hd' hchanges hc
      refine ⟨hkind, fun _ => .inl ?_⟩
      rw [hpath]
      exact t.build_fails rooted later hdir hcut later' hbelow kind compile faults
    exact (hfails (.refl ordered) hfirst).symm.trans (hfails later h)

variable (kind compile faults) in
omit hx proper t in
/-- Changes that name their paths by ordinary names lead from one later disk to the next. -/
theorem later_prefix (ordered : r.world.top.Ordered)
    (htracked : ∀ s ∈ r.session.sources.paths, isSource s = true) {handled changes : List Change}
    (hbefore : handled <+: changes)
    (hchanges : ∀ c ∈ changes, ∃ names, (∀ n ∈ names, IsName n) ∧ c.path = ofNames names)
    (now : Nat) :
    Disk.Later r.world
        (r.apply (Executor.overDisk root kind compile faults) now handled).world ∧
      Disk.Later (r.apply (Executor.overDisk root kind compile faults) now handled).world
        (r.apply (Executor.overDisk root kind compile faults) now changes).world := by
  obtain ⟨rest, rfl⟩ := hbefore
  have hsite (c : Change) (hc : c ∈ handled ++ rest) (hs : isSource c.path = true) :
      ∃ ps last, Site root kind c.path ps last := by
    obtain ⟨names, hnames, hpath⟩ := hchanges c hc
    exact exists_site rooted hpath hnames hs kind
  have hfirst : Disk.Later r.world
      (r.apply (Executor.overDisk root kind compile faults) now handled).world :=
    Run.later_apply rooted ordered htracked (fun c hc => hsite c (List.mem_append_left _ hc)) now
  refine ⟨hfirst, ?_⟩
  rw [Run.apply_append]
  exact Run.later_apply rooted hfirst.ordered
    (Run.sources_apply (fun _ _ _ hs => hs) htracked)
    (fun c hc => hsite c (List.mem_append_right _ hc)) now

/-- Once the old name was dropped and what the new name stood for was added, dropping the one and
adding what the other stands for now changes nothing. -/
theorem alike_again {dropped : Run Disk} (later : Disk.Later r.world dropped.world)
    (watching : dropped.session.phase = .watching)
    (htracked : ∀ s ∈ dropped.session.sources.paths, isSource s = true)
    {gone first own : List Change} {now : Nat}
    (hfirst : changesOf r.world root excludes .add (root.join (ofNames (front ++ [name]))) =
      .ok first)
    (hgone : (dropped.apply (Executor.overDisk root kind compile faults) now first).apply
      (Executor.overDisk root kind compile faults) now gone =
        dropped.apply (Executor.overDisk root kind compile faults) now first)
    {d : Disk} (hd : Disk.Later r.world d)
    (hd' : Disk.Later d
      (dropped.apply (Executor.overDisk root kind compile faults) now first).world)
    (hown : changesOf d root excludes .add (root.join (ofNames (front ++ [name]))) = .ok own) :
    Run.Alike (dropped.apply (Executor.overDisk root kind compile faults) now first)
      ((dropped.apply (Executor.overDisk root kind compile faults) now first).apply
        (Executor.overDisk root kind compile faults) now (gone ++ own)) := by
  have hstands (c : Change) (hc : c ∈ first) :=
    t.stands_of_adds rooted hx proper hfirst hc
  have hsettled : ∀ c ∈ first, Run.Settled (Executor.overDisk root kind compile faults)
      (dropped.apply (Executor.overDisk root kind compile faults) now first) c.path := by
    intro c hc
    obtain ⟨-, below, -, -, dirs, last, hc'⟩ := hstands c hc
    refine Run.settled_apply_add rooted later watching (fun c hc => ?_) htracked now hc'
      (.inr ⟨c, hc, rfl⟩)
    obtain ⟨hkind, below, -, -, hstands⟩ := hstands c hc
    exact ⟨hkind, fun _ => hstands⟩
  rw [Run.apply_append, hgone]
  exact Run.alike_apply_of_settled (by rw [Run.phase_apply, watching])
    (settled_of_adds rooted hx proper t hd hd' hfirst hown hsettled) now

end Reports

section Cases

open WatcherEvent

variable {x : Executor Disk} {excludes : Excludes} {now : Nat} {r : Run Disk} {old new : Path}
  {gone : List Change}

/-- The changes of an event that names two paths. -/
theorem changesOfAll_pair {d : Disk} {root : Path} {k k' : ChangeKind} {p p' : Path}
    {first changes : List Change} (hfirst : changesOf d root excludes k p = .ok first)
    (h : changesOfAll d root excludes [(k, p), (k', p')] = .ok changes) :
    ∃ second, changesOf d root excludes k' p' = .ok second ∧ changes = first ++ second := by
  rw [changesOfAll, hfirst, changesOfAll_singleton] at h
  cases hsecond : changesOf d root excludes k' p' with
  | error e =>
    rw [hsecond] at h
    cases h
  | ok second =>
    rw [hsecond] at h
    exact ⟨second, rfl, (Except.ok.inj h).symm⟩

/-- Every report drops the old name and adds what the new one stands for, and one of them does so
twice. -/
theorem observed_cases (hgone : ∀ d, changesOf d x.root excludes .unlink old = .ok gone)
    (hold : r.world.exists old = false) (hnew : r.world.exists new = true)
    {events : List WatcherEvent} (hevents : events ∈ renameReports old new)
    {changes : List Change} (h : Observed x excludes now r [] events changes) :
    ∃ handled own, handled <+: gone ∧
      changesOf (r.apply x now handled).world x.root excludes .add new = .ok own ∧
      (changes = gone ++ own ∨ ∃ handled' own', handled' <+: gone ++ own ∧
        changesOf (r.apply x now handled').world x.root excludes .add new = .ok own' ∧
        changes = gone ++ own ++ (gone ++ own')) := by
  -- what one event says, and what two that follow each other say
  have hone {d : Disk} {own : List Change}
      (h : changesOfAll d x.root excludes [(.unlink, old), (.add, new)] = .ok own) :
      ∃ second, changesOf d x.root excludes .add new = .ok second ∧ own = gone ++ second :=
    changesOfAll_pair (hgone d) h
  have htwo {first second : WatcherEvent} {rest : List WatcherEvent}
      (hfirst : ∀ d, first.tagged d = [(.unlink, old)])
      (hsecond : ∀ d, second.tagged d = [(.add, new)])
      (h : Observed x excludes now r [] (first :: second :: rest) changes) :
      ∃ handled own, handled <+: gone ∧
        changesOf (r.apply x now handled).world x.root excludes .add new = .ok own ∧
        Observed x excludes now r (gone ++ own) rest changes := by
    obtain ⟨-⟩ | ⟨handled, before, normalized, later⟩ := h
    rw [WatcherEvent.normalize, hfirst, changesOfAll_singleton, hgone] at normalized
    cases normalized
    obtain ⟨-⟩ | ⟨handled', before', normalized', later'⟩ := later
    rw [WatcherEvent.normalize, hsecond, changesOfAll_singleton] at normalized'
    exact ⟨handled', _, before', normalized', later'⟩
  have hsingle {e : WatcherEvent} (he : e.tagged r.world = [(.unlink, old), (.add, new)])
      (h : Observed x excludes now r [] [e] changes) :
      ∃ own, changesOf r.world x.root excludes .add new = .ok own ∧ changes = gone ++ own := by
    obtain ⟨-⟩ | ⟨handled, before, normalized, later⟩ := h
    obtain rfl := List.prefix_nil.mp before
    have hnormalized : changesOfAll r.world x.root excludes (e.tagged r.world) = .ok _ := normalized
    rw [he] at hnormalized
    obtain ⟨own, hown, rfl⟩ := hone hnormalized
    obtain ⟨-⟩ | ⟨-⟩ := later
    exact ⟨own, hown, rfl⟩
  simp only [renameReports, List.mem_cons, List.not_mem_nil, or_false] at hevents
  rcases hevents with rfl | rfl | rfl | rfl | rfl
  · obtain ⟨own, hown, hchanges⟩ := hsingle rfl h
    exact ⟨[], own, List.nil_prefix, hown, .inl hchanges⟩
  · obtain ⟨handled, own, hbefore, hown, hrest⟩ := htwo (fun _ => rfl) (fun _ => rfl) h
    obtain ⟨-⟩ | ⟨-⟩ := hrest
    exact ⟨handled, own, hbefore, hown, .inl rfl⟩
  · obtain ⟨handled, own, hbefore, hown, hrest⟩ := htwo (fun _ => rfl) (fun _ => rfl) h
    obtain ⟨-⟩ | ⟨handled', before', normalized', later'⟩ := hrest
    obtain ⟨own', hown', rfl⟩ := hone normalized'
    obtain ⟨-⟩ | ⟨-⟩ := later'
    exact ⟨handled, own, hbefore, hown, .inr ⟨handled', own', before', hown', rfl⟩⟩
  · obtain ⟨handled, own, hbefore, hown, hrest⟩ := htwo (fun _ => rfl) (fun _ => rfl) h
    obtain ⟨-⟩ | ⟨-⟩ := hrest
    exact ⟨handled, own, hbefore, hown, .inl rfl⟩
  · have htagged : (WatcherEvent.mk .renameUnclear [old, new]).tagged r.world =
        [(.unlink, old), (.add, new)] := by
      simp [tagged, byExistence, hold, hnew]
    obtain ⟨own, hown, hchanges⟩ := hsingle htagged h
    exact ⟨[], own, List.nil_prefix, hown, .inl hchanges⟩

/-- Events of a rooted project can always be observed. -/
theorem exists_observed (rooted : x.root.isRooted = true) (hx : excludes.root.head? = some '/')
    (earlier : List Change) (events : List WatcherEvent) :
    ∃ changes, Observed x excludes now r earlier events changes := by
  induction events generalizing earlier with
  | nil => exact ⟨earlier, .done earlier⟩
  | cons e rest ih =>
    obtain ⟨own, hown⟩ := normalize_ok (d := r.world) rooted hx e
    obtain ⟨changes, hchanges⟩ := ih (earlier ++ own)
    exact ⟨changes, .event [] List.nil_prefix hown hchanges⟩

end Cases

section Gone

variable {σ : Type} {x : Executor σ} {excludes : Excludes} {r : Run σ} {old : List Name}

/-- The changes that a row of names stands for when it is gone: they do not depend on the disk. -/
theorem exists_gone {root : Path} (rooted : root.isRooted = true)
    (hx : excludes.root.head? = some '/') (names : ∀ n ∈ old, IsName n) (hne : old ≠ []) :
    ∃ gone : List Change,
      (∀ d, WatcherEvent.changesOf d root excludes .unlink (root.join (ofNames old)) = .ok gone) ∧
        (gone = [] ∨ gone = [⟨.unlink, ofNames old⟩]) := by
  have htidy : (ofNames old).Tidy := tidy_ofNames names hne
  refine ⟨_, fun d => WatcherEvent.changesOf_tidy hx (relativeTo_join rooted htidy) htidy nofun, ?_⟩
  cases excludes.verdict (ofNames old) false
  · exact .inr rfl
  · exact .inl rfl

/-- To drop the names again does nothing, once they were dropped and something was added elsewhere. -/
theorem apply_gone_again {gone first : List Change} {now : Nat}
    (hgone : gone = [] ∨ gone = [⟨.unlink, ofNames old⟩])
    (watching : r.session.phase = .watching) (named : (ofNames old).chars ≠ [])
    (htracked : ∀ s ∈ r.session.sources.paths, isSource s = true)
    (flat : ∀ s ∈ r.session.sources.paths, ∀ t ∈ r.session.sources.paths,
      s.startsWith t = true → s.same t = true)
    (helsewhere : ∀ c ∈ first, c.path.startsWith (ofNames old) = false) :
    ((r.apply x now gone).apply x now first).apply x now gone =
      (r.apply x now gone).apply x now first := by
  rcases hgone with rfl | rfl
  · rfl
  · have hforgets : (r.apply x now [⟨.unlink, ofNames old⟩]).Forgets (ofNames old) :=
      Run.forgets_unlink watching named htracked flat
    exact (hforgets.apply helsewhere).handle

end Gone

/-- However a rename is reported, the session and the disk end up the same. -/
theorem observed_rename {root : Path} {kind : OutputKind}
    {compile : String → Path → Except CompileError String} {faults : Call → Option FsError}
    {patterns : List String} {excludes : Excludes} {r : Run Disk} {old new : List Name}
    (rooted : root.isRooted = true) (hx : Excludes.ofPatterns root patterns = .ok excludes)
    (watching : r.session.phase = .watching)
    (htracked : ∀ s ∈ r.session.sources.paths, isSource s = true)
    (flat : ∀ s ∈ r.session.sources.paths, ∀ t ∈ r.session.sources.paths,
      s.startsWith t = true → s.same t = true)
    (ordered : r.world.top.Ordered) (proper : r.world.top.Proper)
    (h : Renamed r.world root old new) (now : Nat) :
    ∃ session world, ∀ events ∈ renameReports (root.join (ofNames old)) (root.join (ofNames new)),
      (∃ changes, Observed (Executor.overDisk root kind compile faults) excludes now r [] events
        changes) ∧
      ∀ changes, Observed (Executor.overDisk root kind compile faults) excludes now r [] events
          changes →
        (r.apply (Executor.overDisk root kind compile faults) now changes).session = session ∧
          (r.apply (Executor.overDisk root kind compile faults) now changes).world = world := by
  have hxroot := Excludes.head_ofPatterns hx rooted
  obtain ⟨front, name, base, node, rfl, t⟩ := h.target rooted
  obtain ⟨gone, hgone, hgoneMem⟩ := exists_gone rooted hxroot h.old_names h.old_ne
  obtain ⟨first, hfirst⟩ := WatcherEvent.changesOf_ok (d := r.world) rooted hxroot .add
    (root.join (ofNames (front ++ [name])))
  have hexists : r.world.exists (root.join (ofNames (front ++ [name]))) = true := by
    rw [Disk.exists, t.stat]
  -- all changes are about rows of ordinary names
  have hgoneNames : ∀ c ∈ gone, ∃ names, (∀ n ∈ names, IsName n) ∧ c.path = ofNames names := by
    intro c hc
    rcases hgoneMem with rfl | rfl
    · cases hc
    · exact ⟨old, h.old_names, by rw [List.mem_singleton.mp hc]⟩
  have haddNames {d : Disk} (hd : Disk.Later r.world d) {own : List Change}
      (hown : WatcherEvent.changesOf d root excludes .add
        (root.join (ofNames (front ++ [name]))) = .ok own) :
      ∀ c ∈ own, ∃ names, (∀ n ∈ names, IsName n) ∧ c.path = ofNames names := by
    intro c hc
    obtain ⟨-, below, hbelow, hpath⟩ := path_of_adds rooted hxroot proper t hd hown hc
    exact ⟨_, fun n hn => (List.mem_append.mp hn).elim (t.names n) (hbelow n), hpath⟩
  have helsewhere : ∀ c ∈ first, c.path.startsWith (ofNames old) = false := by
    intro c hc
    obtain ⟨-, below, hbelow, hpath⟩ := path_of_adds rooted hxroot proper t (.refl ordered) hfirst hc
    rw [hpath]
    exact startsWith_of_apart h.old_names t.names hbelow h.old_apart h.new_apart
  -- the run once the old name was dropped; once the new one was added too, nothing changes any more
  obtain ⟨dropped, hdropped⟩ : ∃ dropped,
      r.apply (Executor.overDisk root kind compile faults) now gone = dropped := ⟨_, rfl⟩
  have hgoneAgain : (dropped.apply (Executor.overDisk root kind compile faults) now first).apply
      (Executor.overDisk root kind compile faults) now gone =
        dropped.apply (Executor.overDisk root kind compile faults) now first := by
    rw [← hdropped]
    exact apply_gone_again hgoneMem watching (tidy_ofNames h.old_names h.old_ne).chars_ne_nil
      htracked flat helsewhere
  have hwatching : dropped.session.phase = .watching := by
    rw [← hdropped, Run.phase_apply, watching]
  refine ⟨(dropped.apply (Executor.overDisk root kind compile faults) now first).session,
    (dropped.apply (Executor.overDisk root kind compile faults) now first).world,
    fun events hevents => ⟨exists_observed rooted hxroot [] events, fun changes hobserved => ?_⟩⟩
  suffices halike : Run.Alike (dropped.apply (Executor.overDisk root kind compile faults) now first)
      (r.apply (Executor.overDisk root kind compile faults) now changes) from
    ⟨halike.session, halike.world⟩
  obtain ⟨handled, own, hbefore, hown, hchanges⟩ :=
    observed_cases hgone h.gone hexists hevents hobserved
  obtain ⟨hlater, hlater'⟩ := later_prefix kind compile faults rooted ordered htracked hbefore
    hgoneNames now
  rw [hdropped] at hlater'
  have honce : Run.Alike (dropped.apply (Executor.overDisk root kind compile faults) now first)
      (dropped.apply (Executor.overDisk root kind compile faults) now own) :=
    alike_apply_adds rooted hxroot proper t ordered hwatching hlater hlater' hfirst hown now
  rcases hchanges with rfl | ⟨handled', own', hbefore', hown', rfl⟩
  · rw [Run.apply_append, hdropped]
    exact honce
  · have hnames : ∀ c ∈ gone ++ own, ∃ names, (∀ n ∈ names, IsName n) ∧ c.path = ofNames names :=
      fun c hc => (List.mem_append.mp hc).elim (hgoneNames c) (haddNames hlater hown c)
    obtain ⟨hd, hd'⟩ := later_prefix kind compile faults rooted ordered htracked hbefore' hnames now
    rw [Run.apply_append, hdropped, honce.world] at hd'
    have htrackedDropped : ∀ s ∈ dropped.session.sources.paths, isSource s = true := by
      rw [← hdropped]
      exact Run.sources_apply (fun _ _ _ hs => hs) htracked
    have htwice : Run.Alike (dropped.apply (Executor.overDisk root kind compile faults) now first)
        ((dropped.apply (Executor.overDisk root kind compile faults) now first).apply
          (Executor.overDisk root kind compile faults) now (gone ++ own')) :=
      alike_again rooted hxroot proper t (hlater.trans hlater') hwatching htrackedDropped hfirst
        hgoneAgain hd hd' hown'
    rw [Run.apply_append _ now r (gone ++ own), Run.apply_append _ now r gone own, hdropped]
    exact htwice.trans (honce.apply _ now _)

/-- A disk on which a source was renamed and the output of its old name is still there. -/
def movedDisk : Disk :=
  ⟨.dir [("p".toList, .dir [("a.ts".toList, .file [] 0o644), ("b.civet".toList, .file [] 0o644)]
    0o755)] 0o755, []⟩

/-- A watch of the project that has not heard of this. -/
def movedRun : Run Disk :=
  ⟨⟨.ofList [.ofString "a.civet"], .ofList [.ofString "a.ts"],
    SideFiles.new (.ofString "/p") true false 100, .watching⟩, movedDisk, []⟩

/-- The names on that disk are in order. -/
theorem ordered_movedDisk : movedDisk.top.Ordered := by
  refine .dir (List.pairwise_singleton ..) fun e he => ?_
  obtain rfl := List.mem_singleton.mp he
  refine .dir (by decide) fun e he => ?_
  rcases List.mem_pair.mp he with rfl | rfl <;> exact .file _ _

/-- They are ordinary ones. -/
theorem proper_movedDisk : movedDisk.top.Proper := by
  refine .dir (by decide) (List.pairwise_singleton ..) fun e he => ?_
  obtain rfl := List.mem_singleton.mp he
  refine .dir (by decide) (by decide) fun e he => ?_
  rcases List.mem_pair.mp he with rfl | rfl <;> exact .file _ _

/-- The source was renamed. -/
theorem renamed_movedDisk :
    Renamed movedDisk (.ofString "/p") ["a.civet".toList] ["b.civet".toList] where
  old_ne := by decide
  old_names := by decide
  new_ne := by decide
  new_names := by decide
  old_apart := by decide
  new_apart := by decide
  gone := by decide +kernel
  present := ⟨_, _, rfl, nofun⟩

/-- However this is reported, the watch and the disk end up the same. -/
theorem observed_rename_moved :
    ∃ session world, ∀ events ∈ renameReports
        ((Path.ofString "/p").join (ofNames ["a.civet".toList]))
        ((Path.ofString "/p").join (ofNames ["b.civet".toList])),
      (∃ changes, Observed
        (Executor.overDisk (.ofString "/p") .ts Compiler.marked fun _ => none)
        ⟨"/p".toList, []⟩ 7 movedRun [] events changes) ∧
      ∀ changes, Observed
          (Executor.overDisk (.ofString "/p") .ts Compiler.marked fun _ => none)
          ⟨"/p".toList, []⟩ 7 movedRun [] events changes →
        (movedRun.apply (Executor.overDisk (.ofString "/p") .ts Compiler.marked fun _ => none) 7
          changes).session = session ∧
        (movedRun.apply (Executor.overDisk (.ofString "/p") .ts Compiler.marked fun _ => none) 7
          changes).world = world := by
  have hx : Excludes.ofPatterns (.ofString "/p") [] = .ok ⟨"/p".toList, []⟩ := rfl
  exact observed_rename (by decide) hx rfl (by decide) (by decide) ordered_movedDisk
    proper_movedDisk renamed_movedDisk 7

end ArtifactSync
