import ArtifactSync.Proofs.Disk.Calls

/-!
# Disks on which only files were written

Writing puts files where no directories are, and makes directories where nothing is. On a disk that
has grown in this way (`Grown`) every directory is still there, and a link is still there or is a file
now. So a path that led to a directory leads there again, or ends at something that is no directory
(`Grown.solid`): it never leads to a name that is free, and no directories are made on the way.
-/

namespace ArtifactSync.Disk

open Path Artifact

/-- What may come under a row of names: a file where no directory was, or a directory without entries
where nothing was. -/
inductive Came : Option Node → Option Node → Prop
  | file {old : Option Node} (bytes : List UInt8) (mode : Nat)
      (free : ∀ c, old = some c → c.isDir = false) : Came old (some (.file bytes mode))
  | dir (mode : Nat) : Came none (some (.dir [] mode))

/-- A disk on which something came under touched rows of names, and nothing else has changed. -/
structure Grown (touched : List Name → Prop) (d d' : Disk) : Prop where
  ordered : d'.top.Ordered
  outline : ∀ names, d'.top.outline names = d.top.outline names ∨
    touched names ∧ Came (d.top.outline names) (d'.top.outline names)

/-- The row of names ends in one that is beside the sources. -/
def AsideRow (names : List Name) : Prop :=
  ∃ front name, names = front ++ [name] ∧ Node.IsAside name

/-- The row of a source is none. -/
theorem not_asideRow {front : List Name} {last : Name} (hs : isSource ⟨last⟩ = true) :
    ¬AsideRow (front ++ [last]) := by
  rintro ⟨front', name, heq, haside⟩
  obtain ⟨-, hname⟩ := List.append_inj' heq rfl
  rw [(List.cons.inj hname).1, haside.notSource] at hs
  cases hs

namespace Grown

variable {touched : List Name → Prop} {d d' d'' : Disk}

/-- Nothing came. -/
theorem refl (h : d.top.Ordered) : Grown touched d d :=
  ⟨h, fun _ => .inl rfl⟩

/-- A disk may grow twice. -/
theorem trans (h : Grown touched d d') (h' : Grown touched d' d'') : Grown touched d d'' := by
  refine ⟨h'.ordered, fun names => ?_⟩
  rcases h.outline names with heq | ⟨htouched, hcame⟩
  · rw [← heq]
    exact h'.outline names
  · refine .inr ⟨htouched, ?_⟩
    rcases h'.outline names with heq' | ⟨-, hcame'⟩
    · rwa [heq']
    · generalize d.top.outline names = first at hcame
      generalize d'.top.outline names = second at hcame hcame'
      generalize d''.top.outline names = third at hcame'
      -- what came is not free any more, and a directory that came stays
      cases hcame with
      | file bytes mode free => cases hcame' with
        | file bytes' mode' free' => exact .file bytes' mode' free
      | dir mode => cases hcame' with
        | file bytes' mode' free' => cases free' _ rfl

/-- More rows may be called touched. -/
theorem mono {touched' : List Name → Prop} (h : Grown touched d d')
    (hmore : ∀ names, touched names → touched' names) : Grown touched' d d' :=
  ⟨h.ordered, fun names => (h.outline names).imp_right fun hcame => ⟨hmore _ hcame.1, hcame.2⟩⟩

/-- What is not touched stays. -/
theorem outline_eq (h : Grown touched d d') {names : List Name} (hnames : ¬touched names) :
    d'.top.outline names = d.top.outline names :=
  (h.outline names).resolve_right fun hcame => hnames hcame.1

/-- Directories stay. -/
theorem outline_dir (h : Grown touched d d') {names : List Name} {c : Node}
    (hc : d.top.outline names = some c) (hdir : c.isDir = true) :
    d'.top.outline names = some c := by
  rcases h.outline names with heq | ⟨-, hcame⟩
  · rw [heq, hc]
  · rw [hc] at hcame
    generalize d'.top.outline names = new at hcame
    cases hcame with
    | file bytes mode free =>
      rw [free c rfl] at hdir
      cases hdir

/-- Nothing goes. -/
theorem at_ne_none (h : Grown touched d d') {names : List Name} (hthere : d.top.at? names ≠ none) :
    d'.top.at? names ≠ none := by
  intro hnone
  have houtline : d'.top.outline names = none := by rw [Node.outline, hnone]; rfl
  rcases h.outline names with heq | ⟨-, hcame⟩
  · rw [heq] at houtline
    exact hthere (Option.map_eq_none_iff.mp houtline)
  · rw [houtline] at hcame
    generalize d.top.outline names = old at hcame
    cases hcame

/-- A link stays, or is a file now. -/
theorem outline_link (h : Grown touched d d') {names : List Name} {target : List Char}
    (hc : d.top.outline names = some (.link target)) :
    d'.top.outline names = some (.link target) ∨
      ∃ bytes mode, d'.top.outline names = some (.file bytes mode) := by
  rcases h.outline names with heq | ⟨-, hcame⟩
  · exact .inl (heq.trans hc)
  · rw [hc] at hcame
    generalize d'.top.outline names = new at hcame
    cases hcame with
    | file bytes mode free => exact .inr ⟨bytes, mode, rfl⟩

section Put

variable (hd : d.top.Ordered) {names : List Name} {name : Name} {dir : Node}
  (hdir : d.top.at? names = some dir) (hisDir : dir.isDir = true)
include hd hdir hisDir

/-- A leaf may be put down where there is none but a leaf, as far as the leaf may come there. -/
theorem putLeaf {new : Node} (hold : ∀ c, d.top.at? (names ++ [name]) = some c → c.IsLeaf)
    (hnew : new.IsLeaf) (ordered : new.Ordered)
    (hcame : Came (d.top.outline (names ++ [name])) (some new.emptied)) :
    Grown (· = names ++ [name]) d (d.putAt names name (some new)) := by
  refine ⟨hd.alter (fun c hc => Option.some.inj hc ▸ ordered) _, fun other => ?_⟩
  by_cases hother : other = names ++ [name]
  · refine .inr ⟨hother, ?_⟩
    have hthere : (d.putAt names name (some new)).top.outline (names ++ [name]) =
        some new.emptied := by
      rw [Node.outline, at_putAt hdir hisDir]
      rfl
    rwa [hother, hthere]
  · exact .inl (Node.outline_alter hold (fun c hc => Option.some.inj hc ▸ hnew) hother)

/-- A file may be put down where no directory is. -/
theorem putFile (hold : ∀ c, d.top.at? (names ++ [name]) = some c → c.isDir = false)
    (bytes : List UInt8) (mode : Nat) :
    Grown (· = names ++ [name]) d (d.putAt names name (some (.file bytes mode))) := by
  refine putLeaf hd hdir hisDir (fun c hc => .of_not_isDir (hold c hc)) (.of_not_isDir rfl)
    (.file bytes mode) (.file bytes mode fun c hc => ?_)
  obtain ⟨n, hn, rfl⟩ := outline_eq_some_iff.mp hc
  rw [Node.isDir_emptied]
  exact hold n hn

/-- A directory may be made where nothing is. -/
theorem putDir (hfree : d.top.at? (names ++ [name]) = none) (mode : Nat) :
    Grown (· = names ++ [name]) d (d.putAt names name (some (.dir [] mode))) := by
  have houtline : d.top.outline (names ++ [name]) = none := by rw [Node.outline, hfree]; rfl
  refine putLeaf hd hdir hisDir (fun c hc => ?_) (.of_empty mode)
    (.dir List.Pairwise.nil (List.forall_mem_nil _)) ?_
  · rw [hfree] at hc
    cases hc
  · rw [houtline]
    exact .dir mode

/-- A directory that is made has only directories and links beside it that were there. -/
theorem within_putDir (hfree : d.top.at? (names ++ [name]) = none) (mode : Nat) :
    Within d (d.putAt names name (some (.dir [] mode))) := by
  intro other c hc _
  rcases (putDir hd hdir hisDir hfree mode).outline other with heq | ⟨rfl, -⟩
  · rwa [heq]
  · rw [Node.outline, hfree] at hc
    cases hc

end Put

/-! ## Ways over a disk that has grown -/

/-- A walk ends at something, or at a name behind something that is no directory. -/
inductive Ends : Except Errno Stop → Prop
  | at (trail : Trail) (node : Node) : Ends (.ok (.place (.node trail node)))
  | blocked : Ends (.error .notDirectory)

/-- From what is no directory there is no way on. -/
theorem ends_walk_file {trail : Trail} (hfile : (d.here trail).isDir = false) (followLast : Bool)
    (ps : List Name) : Ends (d.walk followLast trail ps) := by
  cases ps with
  | nil => exact .at _ _
  | cons piece rest =>
    rw [Disk.walk, hfile]
    exact .blocked

section Ways

variable (h : Grown touched d d')
include h

/-- Trails of the same names end at directories that are alike. -/
theorem here_eq {trail trail' : Trail} (ht : d.On trail) (ht' : d'.On trail')
    (hnames : Trail.names trail' = Trail.names trail) (hdir : (d.here trail).isDir = true) :
    (d'.here trail').emptied = (d.here trail).emptied := by
  have houtline := h.outline_dir (outline_eq_some_iff.mpr ⟨_, ht.at_names, rfl⟩)
    (by rwa [Node.isDir_emptied])
  rw [← hnames, Node.outline, ht'.at_names] at houtline
  exact Option.some.inj houtline

/-- So the same names may be looked for in them. -/
theorem mayEnter_eq {trail trail' : Trail} (ht : d.On trail) (ht' : d'.On trail')
    (hnames : Trail.names trail' = Trail.names trail) (hdir : (d.here trail).isDir = true) :
    (d'.here trail').isDir = true ∧ (d'.here trail').mayEnter = (d.here trail).mayEnter := by
  have hemptied := h.here_eq ht ht' hnames hdir
  constructor
  · rw [← Node.isDir_emptied, hemptied, Node.isDir_emptied, hdir]
  · rw [Node.mayEnter, Node.mayEnter, ← Node.mode_emptied, hemptied, Node.mode_emptied]

/-- A step to a directory is one to the same directory. -/
theorem step_go {trail trail' next : Trail} (ht : d.On trail) (ht' : d'.On trail')
    (hnames : Trail.names trail' = Trail.names trail) {piece : Name}
    (hstep : d.step trail piece = .ok (.go next)) (hnext : (d.here next).isDir = true) :
    ∃ next', d'.step trail' piece = .ok (.go next') ∧ Trail.names next' = Trail.names next := by
  obtain ⟨hdir, henter, hstepped⟩ := step_eq_ok_iff.mp hstep
  obtain ⟨hdir', henter'⟩ := h.mayEnter_eq ht ht' hnames hdir
  rw [henter] at henter'
  cases hstepped with
  | stay dot => exact ⟨trail', step_eq_ok_iff.mpr ⟨hdir', henter', .stay dot⟩, hnames⟩
  | back dots =>
    refine ⟨trail'.tail, step_eq_ok_iff.mpr ⟨hdir', henter', .back dots⟩, ?_⟩
    rw [names_tail, names_tail, hnames]
  | down child ordinary short there link =>
    have hisDir : child.isDir = true := hnext
    have hentry : d.top.outline (Trail.names trail' ++ [piece]) = some child.emptied := by
      rw [hnames, ht.outline_concat, there]
      rfl
    have hentry' := h.outline_dir hentry (by rwa [Node.isDir_emptied])
    rw [ht'.outline_concat] at hentry'
    obtain ⟨child', there', hemptied⟩ := Option.map_eq_some_iff.mp hentry'
    have hlink' : ∀ target, child' ≠ .link target := by
      rintro target rfl
      rw [← Node.isDir_emptied, ← hemptied] at hisDir
      cases hisDir
    refine ⟨(piece, child') :: trail',
      step_eq_ok_iff.mpr ⟨hdir', henter', .down child' ordinary short there' hlink'⟩, ?_⟩
    rw [names_cons, names_cons, hnames]

/-- A step to a link is one to the same link, or to a file that has come in its place. -/
theorem step_link {trail trail' : Trail} (ht : d.On trail) (ht' : d'.On trail')
    (hnames : Trail.names trail' = Trail.names trail) {piece : Name} {target : List Char}
    (hstep : d.step trail piece = .ok (.link target)) :
    d'.step trail' piece = .ok (.link target) ∨
      ∃ next', d'.step trail' piece = .ok (.go next') ∧ (d'.here next').isDir = false := by
  obtain ⟨hdir, henter, hstepped⟩ := step_eq_ok_iff.mp hstep
  obtain ⟨hdir', henter'⟩ := h.mayEnter_eq ht ht' hnames hdir
  rw [henter] at henter'
  cases hstepped with
  | link target ordinary short there =>
    have hentry : d.top.outline (Trail.names trail' ++ [piece]) = some (.link target) := by
      rw [hnames, ht.outline_concat, there]
      rfl
    rcases h.outline_link hentry with hentry' | ⟨bytes, mode, hentry'⟩ <;>
      rw [ht'.outline_concat] at hentry' <;>
      obtain ⟨child', there', hemptied⟩ := Option.map_eq_some_iff.mp hentry' <;>
      obtain rfl := Node.eq_of_emptied hemptied rfl
    · exact .inl (step_eq_ok_iff.mpr ⟨hdir', henter', .link target ordinary short there'⟩)
    · refine .inr ⟨(piece, .file bytes mode) :: trail', ?_, rfl⟩
      exact step_eq_ok_iff.mpr ⟨hdir', henter', .down _ ordinary short there' nofun⟩

/-- Where a walk led to a directory it ends at something, and where it stopped in front of a link it
does so again unless the link is gone. -/
theorem walk {trail trail' : Trail} (ht : d.On trail) (ht' : d'.On trail')
    (hnames : Trail.names trail' = Trail.names trail) (followLast : Bool) (ps : List Name) :
    (∀ next node, d.walk true trail ps = .ok (.place (.node next node)) → node.isDir = true →
      Ends (d'.walk followLast trail' ps)) ∧
    ∀ next target rest, d.walk true trail ps = .ok (.atLink next target rest) →
      Ends (d'.walk followLast trail' ps) ∨
        ∃ next', d'.walk followLast trail' ps = .ok (.atLink next' target rest) ∧ d'.On next' ∧
          Trail.names next' = Trail.names next := by
  induction ps generalizing trail trail' with
  | nil => exact ⟨fun _ _ _ _ => .at _ _, fun _ _ _ hwalk => by cases hwalk⟩
  | cons piece rest ih =>
    rw [walk_cons, walk_cons]
    rcases hstep : d.step trail piece with e | next | target | _
    · simp
    · by_cases hdir : (d.here next).isDir = true
      · obtain ⟨next', hstep', hnext⟩ := h.step_go ht ht' hnames hstep hdir
        rw [hstep']
        exact ih (ht.step hstep) (ht'.step hstep') hnext
      · -- a walk that led to a file did not lead to a directory
        cases rest with
        | nil =>
          refine ⟨fun at' node hwalk hnode => ?_, fun _ _ _ hwalk => by cases hwalk⟩
          cases hwalk
          exact absurd hnode hdir
        | cons second others =>
          have hnone : d.walk true next (second :: others) = .error .notDirectory := by
            rw [Disk.walk, if_pos (by simpa using hdir)]
          simp [hnone]
    · simp only [Bool.not_true, Bool.false_eq_true, and_false, if_false]
      refine ⟨by simp, fun next target' others hwalk => ?_⟩
      cases hwalk
      rcases h.step_link ht ht' hnames hstep with hstep' | ⟨next', hstep', hfile⟩ <;> rw [hstep']
      · by_cases hlast : rest = [] ∧ (!followLast) = true
        · exact .inl (by simpa only [if_pos hlast] using .at _ _)
        · exact .inr ⟨trail', by simp only [if_neg hlast], ht', hnames⟩
      · exact .inl (ends_walk_file hfile followLast rest)
    · by_cases hrest : rest = [] <;> simp [hrest]

/-- What pieces led to when it was a directory is something, or lies behind something that is no
directory. -/
theorem follow {trail trail' : Trail} (ht : d.On trail) (ht' : d'.On trail')
    (hnames : Trail.names trail' = Trail.names trail) (followLast : Bool) {links : Nat}
    {ps : List Name} {next : Trail} {node : Node}
    (hfollow : d.follow true links trail ps = .ok (.node next node)) (hdir : node.isDir = true) :
    (∃ next' node', d'.follow followLast links trail' ps = .ok (.node next' node')) ∨
      d'.follow followLast links trail' ps = .error .notDirectory := by
  have hends (hends : Ends (d'.walk followLast trail' ps)) :
      (∃ next' node', d'.follow followLast links trail' ps = .ok (.node next' node')) ∨
        d'.follow followLast links trail' ps = .error .notDirectory := by
    rw [Disk.follow]
    generalize d'.walk followLast trail' ps = stop at hends ⊢
    cases hends with
    | «at» trail node => exact .inl ⟨trail, node, rfl⟩
    | blocked => exact .inr rfl
  obtain ⟨hplace, hlink⟩ := h.walk ht ht' hnames followLast ps
  have hwalk := ht.walk true ps
  rw [Disk.follow] at hfollow
  split at hfollow
  · cases hfollow
  · next found heq =>
    cases hfollow
    exact hends (hplace next node heq hdir)
  · next t target rest heq =>
    rw [heq] at hwalk
    cases links with
    | zero => cases hfollow
    | succ links =>
      rcases hlink t target rest heq with hgone | ⟨t', heq', ht'', hnames'⟩
      · exact hends hgone
      · have hstart : d.On (if target.head? = some '/' then [] else t) := by
          split
          · exact .top
          · exact hwalk
        have hstart' : d'.On (if target.head? = some '/' then [] else t') := by
          split
          · exact .top
          · exact ht''
        have hstarts : Trail.names (if target.head? = some '/' then [] else t') =
            Trail.names (if target.head? = some '/' then [] else t) := by
          split
          · rfl
          · exact hnames'
        simp only [Bool.true_or] at hfollow
        split at hfollow
        · next u n hgo =>
          split at hfollow
          · cases hfollow
          · cases hfollow
            rw [Disk.follow, heq']
            simp only
            rcases follow hstart hstart' hstarts
              (followLast || decide (rest = []) && endsInSlash target) hgo hdir with
              ⟨u', n', hgo'⟩ | hgo' <;> rw [hgo']
            · by_cases hslash :
                (decide (rest = []) && endsInSlash target && !n'.isDir) = true
              · exact .inr (by simp only [hslash, if_true])
              · exact .inl ⟨u', n', by simp only [hslash]; rfl⟩
            · exact .inr rfl
        · next hother => exact absurd hfollow (hother _ _)
termination_by links

end Ways

end Grown

/-- Pieces lead to something, or lie behind something that is no directory. -/
def Solid (d : Disk) (ps : List Name) : Prop :=
  ∀ followLast, (∃ trail node, d.follow followLast 40 [] ps = .ok (.node trail node)) ∨
    d.follow followLast 40 [] ps = .error .notDirectory

/-- Pieces that led to a directory are solid. -/
theorem Grown.solid {touched : List Name → Prop} {d d' : Disk} (h : Grown touched d d')
    {ps names : List Name} (hat : d.dirAt ps = some names) : d'.Solid ps := by
  obtain ⟨trail, hfollow, -, hdir, -⟩ := dirAt_eq_some_iff.mp hat
  exact fun followLast => h.follow .top .top rfl followLast hfollow hdir

namespace Solid

variable {d : Disk} {ps : List Name} (h : d.Solid ps)
include h

/-- Behind what is no directory there is nothing. -/
theorem follow_append (hat : d.dirAt ps = none) {qs : List Name} (hqs : qs ≠ [])
    (followLast : Bool) : d.follow followLast 40 [] (ps ++ qs) = .error .notDirectory := by
  have happend := Disk.follow_append d followLast hqs 40 [] ps
  rcases h true with ⟨trail, node, hfollow⟩ | hfollow <;> rw [hfollow] at happend
  · obtain ⟨rfl, left, hleft⟩ := happend
    have hdir : (d.here trail).isDir = false := by
      by_contra hdir
      rw [Bool.not_eq_false] at hdir
      simp [dirAt, hfollow, hdir] at hat
    obtain ⟨q, rest, rfl⟩ := List.exists_cons_of_ne_nil hqs
    rw [hleft, follow, walk, hdir]
    rfl
  · exact happend

/-- So more pieces are solid, too. -/
theorem append (hat : d.dirAt ps = none) {qs : List Name} (hqs : qs ≠ []) : d.Solid (ps ++ qs) :=
  fun followLast => .inr (h.follow_append hat hqs followLast)

end Solid

/-- No directories are made along solid pieces. -/
theorem makeDirs_of_solid {d : Disk} {path : Path} (rooted : path.isRooted = true)
    (h : d.Solid (piecesOf path.chars)) : (d.makeDirs path).2 = d := by
  have hmake : ∃ e, d.makeDir path = .error e ∧ e ≠ .noEntry := by
    rcases h false with ⟨trail, node, hnode⟩ | hblocked
    · exact ⟨_, makeDir_of_node rooted hnode, taken_ne_noEntry path⟩
    · unfold makeDir
      by_cases hbare : (bare path).chars = []
      · exact ⟨.exists, by simp [rooted, hbare], by simp⟩
      · rw [if_neg (by simp [hbare]), resolve_eq (isRooted_bare rooted hbare) (endsInSlash_bare path),
          piecesOf_bare, hblocked]
        rcases spelling_cases hbare with h | h | h <;> simp [h, Except.bind]
  obtain ⟨e, hmake, he⟩ := hmake
  rw [makeDirs_of_makeDir rooted (by simp [hmake, he]), hmake, unlessThere]
  split <;> rfl

end ArtifactSync.Disk
