import ArtifactSync.Proofs.Disk.Grown

/-!
# Calls that are made again

Where a path leads below a directory depends on the directories on the way and on the entry at the end.
So on a disk that has grown, a path whose directory is where it was is read as before, unless something
came under its last name (`Grown.stat`), and a text that is written there gets the same answer
(`writeText_eq`). Once a text is written, any path is read as before or leads to what was written
(`readText_of_writeText`). A text that has been written leaves the disk alone when it is written again:
right away (`writeText_self`) and once the disk has grown elsewhere (`writeText_again`).
-/

namespace ArtifactSync.Disk

open Path Artifact

/-! ## Where paths lead -/

/-- Where pieces lead nowhere, more pieces do not help. -/
theorem follow_error {d : Disk} {links : Nat} {trail : Trail} {ps : List Name} {e : Errno}
    (h : d.follow true links trail ps = .error e) (followLast : Bool) {qs : List Name}
    (hqs : qs ≠ []) : d.follow followLast links trail (ps ++ qs) = .error e := by
  have happend := follow_append d followLast hqs links trail ps
  rwa [h] at happend

/-- One name below a directory leads to the directory of that name, if names may be looked for. -/
theorem dirAt_folder {d : Disk} {ps base : List Name} {name : Name} (hat : d.dirAt ps = some base)
    (hname : isName name = true) {dir folder : Node} (hdir : d.top.at? base = some dir)
    (hfolder : d.top.at? (base ++ [name]) = some folder) (hisDir : folder.isDir = true) :
    match entering dir name with
    | .error e => d.follow true 40 [] (ps ++ [name]) = .error e
    | .ok _ => d.dirAt (ps ++ [name]) = some (base ++ [name]) := by
  obtain ⟨trail, hon, -, rfl, hlast⟩ := follow_last hat hname
  obtain rfl : d.here trail = dir := Option.some.inj (hon.at_names.symm.trans hdir)
  have hchild : (d.here trail).child? name = some folder := by
    rw [Node.at_concat, hon.at_names] at hfolder
    exact hfolder
  have hlink : ∀ target, (d.here trail).child? name ≠ some (.link target) := by
    intro target hlink
    rw [hchild] at hlink
    cases hlink
    cases hisDir
  have hfollow := hlast true fun _ => hlink
  rw [hchild] at hfollow
  cases hentering : entering (d.here trail) name with
  | error e => rw [hfollow, hentering]; rfl
  | ok _ =>
    rw [hentering] at hfollow
    refine dirAt_eq_some_iff.mpr ⟨(name, folder) :: trail, hfollow, .entry hon hchild, hisDir, ?_⟩
    rw [names_cons]

/-- What is read is what stands there, whatever a directory holds. -/
theorem readText_of_stat_eq {d d' : Disk} {path : Path}
    (h : (d'.stat path).map Node.emptied = (d.stat path).map Node.emptied) :
    d'.readText path = d.readText path := by
  have hbytes : d'.readBytes path = d.readBytes path := by
    rw [readBytes, readBytes]
    cases hd : d.stat path <;> cases hd' : d'.stat path <;> rw [hd, hd'] at h <;>
      simp only [Except.map, Except.error.injEq, Except.ok.injEq, reduceCtorEq] at h
    · rw [h]
    · next node node' =>
      have hread : node'.mayRead = node.mayRead := by
        rw [Node.mayRead, Node.mayRead, ← Node.mode_emptied, h, Node.mode_emptied]
      cases node <;> cases node' <;> simp_all [Node.emptied]
  rw [readText, readText, hbytes]

/-- A file that is written gets the permission bits of what stands there. -/
theorem modeFor_of_stat_eq {d d' : Disk} {path : Path}
    (h : (d'.stat path).map Node.emptied = (d.stat path).map Node.emptied) :
    d'.modeFor path = d.modeFor path := by
  rw [modeFor, modeFor]
  cases hd : d.stat path <;> cases hd' : d'.stat path <;> rw [hd, hd'] at h <;>
    simp only [Except.map, Except.ok.injEq, reduceCtorEq] at h
  next node node' =>
    have hmode : node'.mode = node.mode := by rw [← Node.mode_emptied, h, Node.mode_emptied]
    simp only [hmode]

namespace Grown

variable {touched : List Name → Prop} {d d' : Disk} (h : Grown touched d d') {ps base : List Name}
  (hat : d.dirAt ps = some base) (hat' : d'.dirAt ps = some base)
include h

/-- A directory that is there is there on the other disk, with the same permission bits. -/
theorem at_dir {names : List Name} {dir : Node} (hdir : d.top.at? names = some dir)
    (hisDir : dir.isDir = true) :
    ∃ dir', d'.top.at? names = some dir' ∧ dir'.isDir = true ∧ dir'.emptied = dir.emptied := by
  have houtline := h.outline_dir (outline_eq_some_iff.mpr ⟨dir, hdir, rfl⟩)
    (by rwa [Node.isDir_emptied])
  obtain ⟨dir', hdir', hemptied⟩ := outline_eq_some_iff.mp houtline
  exact ⟨dir', hdir', by rw [← Node.isDir_emptied, hemptied, Node.isDir_emptied, hisDir], hemptied⟩

include hat hat'

/-- Directories below one that is where it was are where they were, or cannot be reached for the same
reason. -/
theorem way {dirs : List Name} (hnames : ∀ n ∈ dirs, IsName n) {dir : Node}
    (hdir : d.top.at? (base ++ dirs) = some dir) (hisDir : dir.isDir = true) :
    (∃ e, d.follow true 40 [] (ps ++ dirs) = .error e ∧
        d'.follow true 40 [] (ps ++ dirs) = .error e) ∨
      d.dirAt (ps ++ dirs) = some (base ++ dirs) ∧ d'.dirAt (ps ++ dirs) = some (base ++ dirs) := by
  induction dirs generalizing ps base with
  | nil => exact .inr (by simp [hat, hat'])
  | cons name rest ih =>
    obtain ⟨hname, hrest⟩ := List.forall_mem_cons.mp hnames
    have hname := isName_of_isName hname
    rw [List.append_cons] at hdir ⊢
    rw [List.append_cons base]
    obtain ⟨folder, hfolder, hfolderDir⟩ :
        ∃ folder, d.top.at? (base ++ [name]) = some folder ∧ folder.isDir = true := by
      by_cases hrest : rest = []
      · exact ⟨dir, by rwa [hrest, List.append_nil] at hdir, hisDir⟩
      · exact Node.isDir_of_at hrest hdir
    obtain ⟨folder', hfolder', hfolderDir', -⟩ := h.at_dir hfolder hfolderDir
    obtain ⟨outer, houter, houterDir⟩ := Node.isDir_of_at (List.cons_ne_nil name []) hfolder
    obtain ⟨outer', houter', -, hemptied⟩ := h.at_dir houter houterDir
    have hfirst := dirAt_folder hat hname houter hfolder hfolderDir
    have hfirst' := dirAt_folder hat' hname houter' hfolder' hfolderDir'
    rw [entering_congr hemptied] at hfirst'
    cases hentering : entering outer name with
    | error e =>
      rw [hentering] at hfirst hfirst'
      refine .inl ⟨e, ?_⟩
      by_cases hrest : rest = []
      · rw [hrest, List.append_nil]
        exact ⟨hfirst, hfirst'⟩
      · exact ⟨follow_error hfirst true hrest, follow_error hfirst' true hrest⟩
    | ok _ =>
      rw [hentering] at hfirst hfirst'
      exact ih hfirst hfirst' hrest hdir

omit hat hat' in
/-- Pieces that are the names of a directory lead to it again, if they led to one. -/
theorem dirAt_real (hnames : ∀ n ∈ ps, IsName n) {dir : Node} (hdir : d.top.at? ps = some dir)
    (hisDir : dir.isDir = true) (hat : d.dirAt ps = some base) : d'.dirAt ps = some ps := by
  obtain ⟨top, htop, htopDir⟩ : ∃ top, d.top.at? [] = some top ∧ top.isDir = true := by
    by_cases hps : ps = []
    · exact ⟨dir, by rwa [hps] at hdir, hisDir⟩
    · exact Node.isDir_of_at hps hdir
  obtain ⟨top', htop', htopDir', -⟩ := h.at_dir htop htopDir
  -- from the top, no link is on the way
  have hstart {d : Disk} {top : Node} (htop : d.top.at? [] = some top) (hisDir : top.isDir = true) :
      d.dirAt [] = some [] := by
    obtain rfl : d.here [] = top := Option.some.inj htop
    exact dirAt_eq_some_iff.mpr ⟨[], rfl, .top, hisDir, rfl⟩
  rcases h.way (hstart htop htopDir) (hstart htop' htopDir') hnames hdir hisDir with
    ⟨e, he, -⟩ | ⟨-, hway⟩
  · rw [List.nil_append] at he
    rw [dirAt, he] at hat
    cases hat
  · exact hway

/-- So a path leads to what it led to, if nothing came under its last name. A link there may lead
elsewhere. -/
theorem stat {path : Path} {dirs : List Name} {last : Name} (hends : EndsIn path (ps ++ dirs) last)
    (hnames : ∀ n ∈ dirs, IsName n) (hlast : isName last = true) {dir : Node}
    (hdir : d.top.at? (base ++ dirs) = some dir) (hisDir : dir.isDir = true)
    (hentry : d'.top.outline (base ++ dirs ++ [last]) = d.top.outline (base ++ dirs ++ [last]))
    (hlink : ∀ target, d.top.outline (base ++ dirs ++ [last]) ≠ some (.link target)) :
    (d'.stat path).map Node.emptied = (d.stat path).map Node.emptied := by
  rw [Disk.stat, Disk.stat, resolve_eq hends.rooted hends.slash, resolve_eq hends.rooted hends.slash,
    hends.pieces]
  rcases h.way hat hat' hnames hdir hisDir with ⟨e, he, he'⟩ | ⟨hway, hway'⟩
  · rw [follow_error he true (List.cons_ne_nil last []),
      follow_error he' true (List.cons_ne_nil last [])]
  · obtain ⟨trail, hon, hisDirT, hn, hfollow⟩ := follow_last hway hlast
    obtain ⟨trail', hon', -, hn', hfollow'⟩ := follow_last hway' hlast
    have hchild : d.top.outline (base ++ dirs ++ [last]) =
        ((d.here trail).child? last).map Node.emptied := by rw [← hn, hon.outline_concat]
    have hchild' : d'.top.outline (base ++ dirs ++ [last]) =
        ((d'.here trail').child? last).map Node.emptied := by rw [← hn', hon'.outline_concat]
    rw [hchild] at hlink
    rw [hchild, hchild'] at hentry
    have hnot (c : Option Node) (hc : c.map Node.emptied = ((d.here trail).child? last).map
        Node.emptied) (target : List Char) : c ≠ some (.link target) := by
      rintro rfl
      exact hlink target hc.symm
    rw [hfollow true fun _ => hnot _ rfl, hfollow' true fun _ => hnot _ hentry,
      entering_congr (h.here_eq hon hon' (hn'.trans hn.symm) hisDirT)]
    cases spelling path with
    | error e => rfl
    | ok _ =>
      cases entering (d.here trail) last with
      | error e => rfl
      | ok _ =>
        cases hc : (d.here trail).child? last <;> cases hc' : (d'.here trail').child? last <;>
          rw [hc, hc'] at hentry <;> simp_all [Except.bind, Except.map]

end Grown

/-! ## The tree below a directory -/

/-- A disk that has grown, on which pieces lead to the directory that they led to, or to none, and a
walk in that directory finds the same sources. -/
structure Kept (touched : List Name → Prop) (ps base : List Name) (d d' : Disk) : Prop where
  grown : Grown touched d d'
  dirAt : ∀ names, d'.dirAt ps = some names → names = base
  sources : ∀ dir dir', d.top.at? base = some dir → dir.isDir = true →
    d'.top.at? base = some dir' → Node.SameSources dir dir'

namespace Kept

variable {touched : List Name → Prop} {d d' d'' : Disk} {ps base : List Name}

/-- A later disk is one. -/
theorem of_later (grown : Grown touched d d') (h : Later d d') (hat : d.dirAt ps = some base) :
    Kept touched ps base d d' where
  grown := grown
  dirAt := fun _ hat' => Option.some.inj ((h.dirAt hat').symm.trans hat)
  sources := h.sources base

/-- So is the disk itself. -/
theorem refl (ordered : d.top.Ordered) (hat : d.dirAt ps = some base) : Kept touched ps base d d :=
  .of_later (.refl ordered) (.refl ordered) hat

/-- A disk may grow twice. -/
theorem trans (h : Kept touched ps base d d') (h' : Kept touched ps base d' d'') :
    Kept touched ps base d d'' where
  grown := h.grown.trans h'.grown
  dirAt := h'.dirAt
  sources := by
    intro dir dir'' hdir hisDir hdir''
    obtain ⟨dir', hdir', hisDir', -⟩ := h.grown.at_dir hdir hisDir
    exact (h.sources dir dir' hdir hisDir hdir').trans
      (h'.sources dir' dir'' hdir' hisDir' hdir'')

/-- More rows may be called touched. -/
theorem mono {touched' : List Name → Prop} (h : Kept touched ps base d d')
    (hmore : ∀ names, touched names → touched' names) : Kept touched' ps base d d' :=
  ⟨h.grown.mono hmore, h.dirAt, h.sources⟩

/-- A directory may be made in the one that the pieces lead to, and is found there. -/
theorem putDir (ordered : d.top.Ordered) (hat : d.dirAt ps = some base) {name : Name}
    (hname : isName name = true) {dir : Node} (hdir : d.top.at? base = some dir)
    (hentering : entering dir name = .ok ()) (hfree : d.top.at? (base ++ [name]) = none)
    (hmade : (d.putAt base name (some (.dir [] 0o755))) = d') :
    Kept (· = base ++ [name]) ps base d d' ∧ d'.dirAt ps = some base ∧
      d'.dirAt (ps ++ [name]) = some (base ++ [name]) := by
  subst hmade
  obtain ⟨trail, -, hon, hisDir, rfl⟩ := dirAt_eq_some_iff.mp hat
  obtain rfl : d.here trail = dir := Option.some.inj (hon.at_names.symm.trans hdir)
  have hgrown := Grown.putDir ordered hdir hisDir hfree 0o755
  have hat' := (Grown.within_putDir ordered hdir hisDir hfree 0o755).dirAt hat
  refine ⟨⟨hgrown, fun names hnames => Option.some.inj (hnames.symm.trans hat'), ?_⟩, hat', ?_⟩
  · intro dir dir' hdir₁ _ hdir'
    obtain rfl : d.here trail = dir := Option.some.inj (hdir.symm.trans hdir₁)
    -- the directory has one more entry, in which there is nothing to be found
    rw [Disk.putAt, Node.at_front_alter, hdir, Option.map_some, Option.some.injEq] at hdir'
    rw [← hdir']
    refine .of_empty ?_ rfl ?_
    · by_contra henter
      rw [Bool.not_eq_true] at henter
      rw [entering, henter] at hentering
      cases hentering
    · rw [Node.at_concat, hdir] at hfree
      exact hfree
  · obtain ⟨dir', hdir', -, hemptied⟩ := hgrown.at_dir hdir hisDir
    have hthere := at_putAt hdir hisDir name (some (.dir [] 0o755))
    have hfolder := dirAt_folder hat' hname hdir' hthere rfl
    rwa [entering_congr hemptied, hentering] at hfolder

end Kept

/-! ## What is read where a file was put down -/

section Put

variable {d : Disk} {names : List Name} {name : Name}
  (hold : ∀ c, d.top.at? (names ++ [name]) = some c → c.isDir = false)
include hold

/-- Where a file is put down, nothing else is another node. -/
theorem outline_putAt (bytes : List UInt8) (mode : Nat) {other : List Name}
    (hne : other ≠ names ++ [name]) :
    (d.putAt names name (some (.file bytes mode))).top.outline other = d.top.outline other := by
  refine Node.outline_alter (fun c hc => .of_not_isDir (hold c hc)) (fun c hc => ?_) hne
  cases hc
  exact .of_not_isDir rfl

variable {dir : Node} (hdir : d.top.at? names = some dir) (hisDir : dir.isDir = true)
include hdir hisDir

/-- So walks go the same way, unless they lead to the file. -/
theorem resembles_putAt (bytes : List UInt8) (mode : Nat) :
    Resembles (· = names ++ [name]) (d.putAt names name (some (.file bytes mode))) d := by
  intro other c hc hown
  refine exists_like hc (outline_putAt hold bytes mode ?_)
  rintro rfl
  rw [at_putAt hdir hisDir] at hc
  cases hc
  exact hown rfl rfl

/-- What the file holds does not matter for any walk. -/
theorem resembles_putAt_putAt (bytes bytes' : List UInt8) (mode : Nat) :
    Resembles (fun _ => False) (d.putAt names name (some (.file bytes mode)))
      (d.putAt names name (some (.file bytes' mode))) := by
  intro other c hc _
  by_cases hother : other = names ++ [name]
  · subst hother
    rw [at_putAt hdir hisDir] at hc
    cases hc
    exact ⟨_, at_putAt hdir hisDir .., .files ..⟩
  · refine exists_like hc ?_
    rw [outline_putAt hold bytes mode hother, outline_putAt hold bytes' mode hother]

/-- What is read then was read before, or it is the file, whatever that holds. -/
theorem readBytes_putAt {path : Path} (rooted : path.isRooted = true) {bytes read : List UInt8}
    {mode : Nat}
    (h : (d.putAt names name (some (.file bytes mode))).readBytes path = .ok read) :
    d.readBytes path = .ok read ∨
      ∀ bytes', (d.putAt names name (some (.file bytes' mode))).readBytes path = .ok bytes' := by
  obtain ⟨trail', mode', hresolve', hread⟩ := readBytes_eq_ok_iff.mp h
  have hat' := at_of_resolve rooted hresolve'
  by_cases hplace : Trail.names trail' = names ++ [name]
  · refine .inr fun bytes' => ?_
    obtain ⟨trail, node, hresolve, hnames⟩ :=
      (resembles_putAt_putAt hold hdir hisDir bytes bytes' mode).resolve rooted hresolve' nofun
    have hat := at_of_resolve rooted hresolve
    rw [hplace, at_putAt hdir hisDir] at hat'
    rw [hnames, hplace, at_putAt hdir hisDir] at hat
    cases hat'
    cases hat
    exact readBytes_eq_ok_iff.mpr ⟨trail, mode, hresolve, hread⟩
  · left
    obtain ⟨trail, node, hresolve, hnames⟩ :=
      (resembles_putAt hold hdir hisDir bytes mode).resolve rooted hresolve' fun _ => hplace
    have houtline := outline_eq_some_iff.mpr ⟨_, hat', rfl⟩
    rw [outline_putAt hold bytes mode hplace] at houtline
    obtain ⟨node', hnode', heq⟩ := outline_eq_some_iff.mp houtline
    have hat := at_of_resolve rooted hresolve
    rw [hnames, hnode'] at hat
    cases hat
    obtain rfl := Node.eq_of_emptied heq rfl
    exact readBytes_eq_ok_iff.mpr ⟨trail, mode', hresolve, hread⟩

end Put

/-- A path leads to where another one is written: whatever is written there is read. -/
def LeadsTo (d : Disk) (path written : Path) : Prop :=
  ∀ text d', d.writeText written text = (.ok (), d') → d'.readText path = .ok text

/-! ## Texts that are written again -/

section Write

variable {d d' : Disk} {path : Path} {ps names : List Name} {name : Name}
  (hends : EndsIn path ps name) (hmakes : isEmptyPiece name = false)
  (hat : d.dirAt ps = some names) (hat' : d'.dirAt ps = some names)
include hends

/-- Where nothing stands in the way of a file that is there, the path leads to it. -/
theorem stat_of_mayPlace (hmay : d.MayPlace path names name) (hat : d.dirAt ps = some names)
    {bytes : List UInt8} {mode : Nat}
    (hthere : d.top.at? (names ++ [name]) = some (.file bytes mode)) :
    d.stat path = .ok (.file bytes mode) := by
  obtain ⟨dir, hdir, -, hentering⟩ := hmay.room
  rw [stat_entry hends hat hmay.isName hdir hthere nofun, hmay.spelled, hentering]
  rfl

/-- A path that leads to no link has none as its entry, where nothing stands in the way of a file. -/
theorem outline_ne_link (hmay : d.MayPlace path names name) (hat : d.dirAt ps = some names)
    (hlink : ∀ trail target, d.resolve path false ≠ .ok (.node trail (.link target)))
    (target : List Char) : d.top.outline (names ++ [name]) ≠ some (.link target) := by
  intro htarget
  obtain ⟨trail, hon, -, rfl, hfollow⟩ := follow_last hat hmay.isName
  obtain ⟨dir, hdir, -, hentering⟩ := hmay.room
  obtain rfl : d.here trail = dir := Option.some.inj (hon.at_names.symm.trans hdir)
  rw [hon.outline_concat] at htarget
  obtain ⟨child, hchild, hemptied⟩ := Option.map_eq_some_iff.mp htarget
  obtain rfl := Node.eq_of_emptied hemptied rfl
  refine hlink ((name, .link target) :: trail) target ?_
  rw [resolve_eq hends.rooted hends.slash, hmay.spelled, hends.pieces, hfollow false nofun,
    hentering, hchild]
  rfl

include hmakes in
/-- Names stay in order when a text is written. -/
theorem ordered_of_writeText (hat : d.dirAt ps = some names) (ordered : d.top.Ordered)
    {text : String} (h : d.writeText path text = (.ok (), d')) : d'.top.Ordered := by
  obtain ⟨⟨hplace, -⟩, rfl⟩ := (writeText_eq_ok_iff hends hmakes hat).mp h
  obtain ⟨trail, -, hon, hisDir, rfl⟩ := dirAt_eq_some_iff.mp hat
  exact (Grown.putFile ordered hon.at_names hisDir hplace.free _ _).ordered

include hmakes in
/-- What is read once a text was written was read before, unless the path leads there. -/
theorem readText_of_writeText (hat : d.dirAt ps = some names) {other : Path}
    (rooted : other.isRooted = true) {text read : String}
    (h : d.writeText path text = (.ok (), d')) (hread : d'.readText other = .ok read) :
    d.readText other = .ok read ∨ d.LeadsTo other path := by
  obtain ⟨⟨hplace, -⟩, rfl⟩ := (writeText_eq_ok_iff hends hmakes hat).mp h
  obtain ⟨trail, -, hon, hisDir, rfl⟩ := dirAt_eq_some_iff.mp hat
  obtain ⟨bytes, hbytes, htext⟩ := readText_eq_ok_iff.mp hread
  rcases readBytes_putAt hplace.free hon.at_names hisDir rooted hbytes with hbefore | hany
  · exact .inl (readText_eq_ok_iff.mpr ⟨bytes, hbefore, htext⟩)
  · refine .inr fun text' d'' h' => ?_
    obtain ⟨-, rfl⟩ := (writeText_eq_ok_iff hends hmakes hat).mp h'
    exact readText_eq_ok_iff.mpr ⟨_, hany _, Text.ofBytes_bytes text'⟩

include hmakes hat'

/-- To write what is there leaves the disk alone. -/
theorem writeText_there (ordered : d'.top.Ordered) {dir : Node} (hdir : d'.top.at? names = some dir)
    {text : String}
    (hthere : d'.top.at? (names ++ [name]) =
      some (.file (Text.bytes text.toList) (d'.modeFor path))) :
    d'.writeText path text = (writing path name dir false, d') := by
  rw [writeText_eq hends hmakes hat' hdir, hthere]
  simp only [Option.any_some, Node.isDir]
  cases writing path name dir false with
  | error e => rfl
  | ok _ =>
    simp only
    rw [putAt, Node.alter_eq_self ordered hthere]

include hat

/-- A text that was written is there, and may be written again. -/
theorem writeText_self (ordered : d.top.Ordered) {text : String}
    (h : d.writeText path text = (.ok (), d')) :
    (∃ mode, d'.stat path = .ok (.file (Text.bytes text.toList) mode)) ∧
      d'.writeText path text = (.ok (), d') := by
  obtain ⟨⟨hmay, hspelled⟩, rfl⟩ := (writeText_eq_ok_iff hends hmakes hat).mp h
  obtain ⟨trail, -, hon, hisDir, rfl⟩ := dirAt_eq_some_iff.mp hat
  have hgrown := Grown.putFile ordered hon.at_names hisDir hmay.free (Text.bytes text.toList)
    (d.modeFor path)
  have hthere := at_putAt hon.at_names hisDir name
    (some (.file (Text.bytes text.toList) (d.modeFor path)))
  -- the file that was written stands in no way, and keeps its permission bits
  obtain ⟨dir', hdir', hisDir', hemptied⟩ := hgrown.at_dir hon.at_names hisDir
  have hok : writing path name dir' false = .ok () := by
    have hbefore := (writing_eq_ok_iff hon.at_names).mpr ⟨hmay, hspelled⟩
    have hfree : (d.top.at? (Trail.names trail ++ [name])).any Node.isDir = false := by
      cases hc : d.top.at? (Trail.names trail ++ [name]) with
      | none => rfl
      | some c => exact hmay.free c hc
    rwa [hfree, ← writing_congr hemptied] at hbefore
  have hmay' : (d.putAt (Trail.names trail) name
      (some (.file (Text.bytes text.toList) (d.modeFor path)))).MayPlace path
        (Trail.names trail) name := by
    refine ((writing_eq_ok_iff hdir').mp ?_).1
    rwa [hthere]
  have hstat := stat_of_mayPlace hends hmay' hat' hthere
  refine ⟨⟨_, hstat⟩, ?_⟩
  rw [← hok]
  exact writeText_there hends hmakes hat' hgrown.ordered hdir'
    (by rw [modeFor_idem hstat]; exact hthere)

/-- Where a text was written, any other may be written next, and only the same one leaves the disk
alone. -/
theorem writeText_over (ordered : d.top.Ordered) {text : String}
    (h : d.writeText path text = (.ok (), d')) (text' : String) :
    (d'.writeText path text').1 = .ok () ∧ ((d'.writeText path text').2 = d' → text' = text) := by
  obtain ⟨⟨mode, hstat⟩, hself⟩ := writeText_self hends hmakes hat hat' ordered h
  have ordered' := ordered_of_writeText hends hmakes hat ordered h
  have hok : (d'.writeText path text').1 = .ok () := by
    obtain ⟨hmay, -⟩ := (writeText_eq_ok_iff hends hmakes hat').mp hself
    rw [(writeText_eq_ok_iff hends hmakes hat').mpr ⟨hmay, rfl⟩]
  refine ⟨hok, fun hsame => ?_⟩
  -- both texts are what stands there
  have hwrite : d'.writeText path text' = (.ok (), d') := Prod.ext hok hsame
  obtain ⟨⟨mode', hstat'⟩, -⟩ := writeText_self hends hmakes hat' hat' ordered' hwrite
  rw [hstat] at hstat'
  have hbytes : Text.bytes text.toList = Text.bytes text'.toList :=
    (Node.file.inj (Except.ok.inj hstat')).1
  have hread : some text' = some text := by
    rw [← Text.ofBytes_bytes text, hbytes, Text.ofBytes_bytes]
  exact Option.some.inj hread

/-- Once the disk has grown elsewhere, a text that left the disk alone is answered as before and leaves
the disk alone. -/
theorem writeText_again {touched : List Name → Prop} (hgrown : Grown touched d d')
    (hentry : d'.top.outline (names ++ [name]) = d.top.outline (names ++ [name])) {text : String}
    (h : (d.writeText path text).2 = d) :
    d'.writeText path text = ((d.writeText path text).1, d') := by
  obtain ⟨trail, -, hon, hisDir, rfl⟩ := dirAt_eq_some_iff.mp hat
  obtain ⟨dir', hdir', -, hemptied⟩ := hgrown.at_dir hon.at_names hisDir
  have hisTaken : (d'.top.at? (Trail.names trail ++ [name])).any Node.isDir =
      (d.top.at? (Trail.names trail ++ [name])).any Node.isDir := by
    have hany (c : Option Node) : (c.map Node.emptied).any Node.isDir = c.any Node.isDir := by
      cases c <;> simp
    rw [← hany (d'.top.at? _), ← hany (d.top.at? _)]
    exact congrArg _ hentry
  have hwrite := writeText_eq hends hmakes hat hon.at_names text
  have hwrite' := writeText_eq hends hmakes hat' hdir' text
  rw [hisTaken, writing_congr hemptied] at hwrite'
  cases hwriting : writing path name (d.here trail)
      ((d.top.at? (Trail.names trail ++ [name])).any Node.isDir) with
  | error e =>
    rw [hwriting] at hwrite hwrite'
    rw [hwrite, hwrite']
  | ok _ =>
    rw [hwriting] at hwrite hwrite'
    replace h : d.putAt (Trail.names trail) name
        (some (.file (Text.bytes text.toList) (d.modeFor path))) = d := by rwa [hwrite] at h
    rw [hwrite]
    -- the file was there before, so it is there now
    have hthere := at_putAt hon.at_names hisDir name
      (some (.file (Text.bytes text.toList) (d.modeFor path)))
    rw [h] at hthere
    obtain ⟨hmay, -⟩ := (writing_eq_ok_iff hon.at_names).mp hwriting
    have hthere' : d'.top.at? (Trail.names trail ++ [name]) =
        some (.file (Text.bytes text.toList) (d.modeFor path)) := by
      have houtline : d.top.outline (Trail.names trail ++ [name]) =
          some (.file (Text.bytes text.toList) (d.modeFor path)) :=
        outline_eq_some_iff.mpr ⟨_, hthere, rfl⟩
      obtain ⟨node, hnode, hnodeEq⟩ := outline_eq_some_iff.mp (hentry.trans houtline)
      rw [hnode, Node.eq_of_emptied hnodeEq rfl]
    have hmay' : d'.MayPlace path (Trail.names trail) name := by
      refine ((writing_eq_ok_iff hdir').mp ?_).1
      rw [hisTaken, writing_congr hemptied, hwriting]
    have hmode : d'.modeFor path = d.modeFor path := modeFor_of_stat_eq (by
      rw [stat_of_mayPlace hends hmay' hat' hthere', stat_of_mayPlace hends hmay hat hthere])
    rw [hwrite', putAt, hmode, Node.alter_eq_self hgrown.ordered hthere']

end Write

end ArtifactSync.Disk
