import ArtifactSync.Disk.Calls
import ArtifactSync.Proofs.Disk.Tree

/-!
# Disks on which outputs came and went

A disk is later than another if nothing but files beside the sources has come, and nothing but files
and links beside the sources has gone (`Later`). On a later disk a path may lead nowhere, where it
went through a link that is gone or replaced; but where it leads to a directory, it leads to the one
that it led to before (`Later.dirAt`), and there a walk finds the sources it found before. For what a
file holds no walk looks at, so it goes the same way on any disk that has the same nodes otherwise
(`Resembles.follow`).
-/

namespace ArtifactSync.Disk

open Path Artifact

/-- The node under a row of names is no source, and no directory: it may be there on one disk and not
on the other, but what comes is a file. -/
structure Swapped (d d' : Disk) (names : List Name) : Prop where
  aside : ∃ front name, names = front ++ [name] ∧ Node.IsAside name
  old : ∀ c, d.top.outline names = some c → c.isDir = false
  new : ∀ c, d'.top.outline names = some c → c.isFile = true

/-- A disk on which nothing but files beside the sources has come, and nothing has gone but files and
links beside the sources. -/
structure Later (d d' : Disk) : Prop where
  ordered : d'.top.Ordered
  outline : ∀ names, d'.top.outline names = d.top.outline names ∨ Swapped d d' names
  sources : ∀ names dir dir', d.top.at? names = some dir → dir.isDir = true →
    d'.top.at? names = some dir' → Node.SameSources dir dir'

/-- A file is no directory. -/
theorem not_isDir_of_isFile {node : Node} (h : node.isFile = true) : node.isDir = false := by
  cases node with
  | file bytes mode => rfl
  | dir entries mode => cases h
  | link target => cases h

/-- A directory is no file. -/
theorem not_isFile_of_isDir {node : Node} (h : node.isDir = true) : ¬node.isFile = true := by
  intro hfile
  rw [not_isDir_of_isFile hfile] at h
  cases h

/-- What a tree has in outline. -/
theorem outline_eq_some_iff {node c : Node} {names : List Name} :
    node.outline names = some c ↔ ∃ n, node.at? names = some n ∧ n.emptied = c :=
  Option.map_eq_some_iff

/-- The disk with another entry, or none, under a name in the directory under a row of names. -/
def putAt (d : Disk) (names : List Name) (name : Name) (new : Option Node) : Disk :=
  { d with top := Node.alter (fun _ => new) (names ++ [name]) d.top }

/-- What is put under a name is what is there. -/
theorem at_putAt {d : Disk} {names : List Name} {dir : Node} (hdir : d.top.at? names = some dir)
    (hisDir : dir.isDir = true) (name : Name) (new : Option Node) :
    (d.putAt names name new).top.at? (names ++ [name]) = new :=
  Node.at_alter (fun c hc => Option.some.inj (hdir.symm.trans hc) ▸ hisDir) (by rw [hdir]; simp)

namespace Later

variable {d d' d'' : Disk}

/-- Nothing has happened. -/
theorem refl (h : d.top.Ordered) : Later d d where
  ordered := h
  outline := fun _ => .inl rfl
  sources := by
    intro names dir dir' hdir _ hdir'
    rw [hdir] at hdir'
    cases hdir'
    exact .refl dir

/-- What is a directory was one, with the same permission bits. -/
theorem outline_dir (h : Later d d') {names : List Name} {c : Node}
    (hc : d'.top.outline names = some c) (hdir : c.isFile = false) :
    d.top.outline names = some c := by
  rcases h.outline names with heq | hswap
  · rw [← heq, hc]
  · rw [hswap.new c hc] at hdir
    cases hdir

/-- What was a directory is one, with the same permission bits. -/
theorem outline_of_dir (h : Later d d') {names : List Name} {c : Node}
    (hc : d.top.outline names = some c) (hdir : c.isDir = true) :
    d'.top.outline names = some c := by
  rcases h.outline names with heq | hswap
  · rw [heq, hc]
  · rw [hswap.old c hc] at hdir
    cases hdir

/-- What stands under the name of a source stays. -/
theorem outline_source (h : Later d d') {front : List Name} {name : Name}
    (hs : isSource ⟨name⟩ = true) :
    d'.top.outline (front ++ [name]) = d.top.outline (front ++ [name]) := by
  refine (h.outline _).resolve_right fun hswap => ?_
  obtain ⟨front', name', heq, haside⟩ := hswap.aside
  obtain ⟨-, hname⟩ := List.append_inj' heq rfl
  rw [(List.cons.inj hname).1, haside.notSource] at hs
  cases hs

/-- One disk may be later than another that is later than a third one. -/
theorem trans (h : Later d d') (h' : Later d' d'') : Later d d'' where
  ordered := h'.ordered
  outline := by
    intro names
    rcases h'.outline names with heq' | hswap'
    · rcases h.outline names with heq | hswap
      · exact .inl (heq'.trans heq)
      · exact .inr ⟨hswap.aside, hswap.old, fun c hc => hswap.new c (by rw [← heq', hc])⟩
    · refine .inr ⟨hswap'.aside, fun c hc => ?_, hswap'.new⟩
      rcases h.outline names with heq | hswap
      · exact hswap'.old c (by rw [heq, hc])
      · exact hswap.old c hc
  sources := by
    intro names dir dir'' hdir hisDir hdir''
    have houtline := h.outline_of_dir (outline_eq_some_iff.mpr ⟨dir, hdir, rfl⟩)
      (by rwa [Node.isDir_emptied])
    obtain ⟨dir', hdir', hemptied⟩ := outline_eq_some_iff.mp houtline
    have hisDir' : dir'.isDir = true := by
      rw [← Node.isDir_emptied, hemptied, Node.isDir_emptied, hisDir]
    exact (h.sources names dir dir' hdir hisDir hdir').trans
      (h'.sources names dir' dir'' hdir' hisDir' hdir'')

/-- A file may be put down or taken away in a directory, where no source and no directory is. -/
theorem putAt (hd : d.top.Ordered) {names : List Name} {name : Name} {new : Option Node}
    (haside : Node.IsAside name) {dir : Node} (hdir : d.top.at? names = some dir)
    (hisDir : dir.isDir = true)
    (hold : ∀ c, d.top.at? (names ++ [name]) = some c → c.isDir = false)
    (hnew : ∀ c, new = some c → c.isFile = true) : Later d (d.putAt names name new) := by
  have hnewDir : ∀ c, new = some c → c.isDir = false :=
    fun c hc => not_isDir_of_isFile (hnew c hc)
  refine ⟨hd.alter (fun c hc => ?_) _, fun other => ?_, fun other a a' ha hisDir' ha' => ?_⟩
  · cases c with
    | file bytes mode => exact .file bytes mode
    | dir entries mode => cases hnew _ hc
    | link target => exact .link target
  · by_cases hother : other = names ++ [name]
    · subst hother
      refine .inr ⟨⟨_, _, rfl, haside⟩, fun c hc => ?_, fun c hc => ?_⟩
      · obtain ⟨n, hn, rfl⟩ := outline_eq_some_iff.mp hc
        rw [Node.isDir_emptied]
        exact hold n hn
      · obtain ⟨n, hn, rfl⟩ := outline_eq_some_iff.mp hc
        have hfile := hnew n ((at_putAt hdir hisDir name new).symm.trans hn)
        cases n with
        | file bytes mode => rfl
        | dir entries mode => cases hfile
        | link target => cases hfile
    · exact .inl (Node.outline_alter (fun c hc => .of_not_isDir (hold c hc))
        (fun c hc => .of_not_isDir (hnewDir c hc)) hother)
  · exact Node.sameSources_at_alter hd haside hold hnewDir hisDir' ha ha'

end Later

/-! ## Trails -/

/-- A trail goes down a disk entry by entry. -/
inductive On (d : Disk) : Trail → Prop
  | top : On d []
  | entry {trail : Trail} {name : Name} {node : Node} (outer : On d trail)
      (child : (d.here trail).child? name = some node) : On d ((name, node) :: trail)

/-- One more entry makes one more name. -/
theorem names_cons (name : Name) (node : Node) (trail : Trail) :
    Trail.names ((name, node) :: trail) = Trail.names trail ++ [name] := by
  simp [Trail.names]

namespace On

variable {d : Disk} {trail : Trail}

/-- A trail ends at what stands under its names. -/
theorem at_names (h : d.On trail) : d.top.at? (Trail.names trail) = some (d.here trail) := by
  induction h with
  | top => rfl
  | entry outer child ih =>
    rw [names_cons, Node.at_concat, ih]
    exact child

/-- The entries at its end are what stands under one name more. -/
theorem outline_concat (h : d.On trail) (name : Name) :
    d.top.outline (Trail.names trail ++ [name]) =
      ((d.here trail).child? name).map Node.emptied := by
  rw [Node.outline, Node.at_concat, h.at_names]
  rfl

/-- A trail may be gone back. -/
theorem tail (h : d.On trail) : d.On trail.tail := by
  cases h with
  | top => exact .top
  | entry outer child => exact outer

/-- What one goes back to is a directory, if one was in a directory. -/
theorem isDir_tail (h : d.On trail) (hdir : (d.here trail).isDir = true) :
    (d.here trail.tail).isDir = true := by
  cases h with
  | top => exact hdir
  | @entry trail name node outer child =>
    have hchild : (d.here trail).child? name ≠ none := by simp [child]
    exact Node.isDir_of_child hchild

end On

/-- The names of a trail one goes back on are those of the trail without the last. -/
theorem names_tail (trail : Trail) : Trail.names trail.tail = (Trail.names trail).dropLast := by
  cases trail with
  | nil => rfl
  | cons e rest =>
    obtain ⟨name, node⟩ := e
    rw [names_cons, List.dropLast_concat]
    rfl

/-- A step leads from a trail to a trail. -/
theorem On.step {d : Disk} {trail next : Trail} {piece : Name} (h : d.On trail)
    (hstep : d.step trail piece = .ok (.go next)) : d.On next := by
  obtain ⟨-, -, hstepped⟩ := step_eq_ok_iff.mp hstep
  cases hstepped with
  | stay dot => exact h
  | back dots => exact h.tail
  | down child ordinary short there link => exact .entry h there

/-- What a walk over directories comes to: a place on the disk, a name that is free in a directory,
or a link that has to be followed. -/
theorem On.walk {d : Disk} {trail : Trail} (h : d.On trail) (followLast : Bool) (ps : List Name) :
    match d.walk followLast trail ps with
    | .ok (.place (.node trail' _)) => d.On trail'
    | .ok (.place (.missing trail' name)) =>
      d.On trail' ∧ (d.here trail').isDir = true ∧ (d.here trail').child? name = none
    | .ok (.atLink trail' _ _) => d.On trail'
    | .error _ => True := by
  induction ps generalizing trail with
  | nil => exact h
  | cons piece rest ih =>
    rw [walk_cons]
    rcases hstep : d.step trail piece with e | next | target | _
    · trivial
    · exact ih (h.step hstep)
    · obtain ⟨-, -, hstepped⟩ := step_eq_ok_iff.mp hstep
      cases hstepped with
      | link target ordinary short there =>
        by_cases hlast : rest = [] ∧ (!followLast) = true
        · simp only [hlast, and_self, if_true]
          exact .entry h there
        · simp only [hlast, if_false]
          exact h
    · obtain ⟨hdir, -, hstepped⟩ := step_eq_ok_iff.mp hstep
      cases hstepped with
      | missing ordinary short free =>
        by_cases hrest : rest = []
        · simp only [hrest, if_true]
          exact ⟨h, hdir, free⟩
        · simp only [hrest, if_false]

/-- Where pieces lead, links followed, is a place on the disk. -/
theorem On.follow {d : Disk} {links : Nat} {trail trail' : Trail} {node : Node} (h : d.On trail)
    {ps : List Name} (hfollow : d.follow true links trail ps = .ok (.node trail' node)) :
    d.On trail' ∧ node = d.here trail' := by
  induction links generalizing trail ps with
  | zero =>
    have hwalk := h.walk true ps
    rw [Disk.follow] at hfollow
    split at hfollow
    · cases hfollow
    · next found heq =>
      cases hfollow
      rw [heq] at hwalk
      exact ⟨hwalk, node_of_walk heq⟩
    · cases hfollow
  | succ links ih =>
    have hwalk := h.walk true ps
    rw [Disk.follow] at hfollow
    split at hfollow
    · cases hfollow
    · next found heq =>
      cases hfollow
      rw [heq] at hwalk
      exact ⟨hwalk, node_of_walk heq⟩
    · next t target rest heq =>
      rw [heq] at hwalk
      simp only [Bool.true_or] at hfollow
      have hstart : d.On (if target.head? = some '/' then [] else t) := by
        split
        · exact .top
        · exact hwalk
      split at hfollow
      · next t' n hgo =>
        split at hfollow
        · cases hfollow
        · cases hfollow
          exact ih hstart hgo
      · next hother => exact absurd hfollow (hother _ _)

/-- Where nothing is under the name that pieces lead to, there is a directory that could have it. -/
theorem On.free_of_follow {d : Disk} {followLast : Bool} {links : Nat} {trail trail' : Trail}
    {name : Name} (h : d.On trail) {ps : List Name}
    (hfollow : d.follow followLast links trail ps = .ok (.missing trail' name)) :
    d.On trail' ∧ (d.here trail').isDir = true ∧ (d.here trail').child? name = none := by
  -- on the links that may still be followed
  induction links generalizing trail ps followLast with
  | zero =>
    have hwalk := h.walk followLast ps
    rw [Disk.follow] at hfollow
    split at hfollow
    · cases hfollow
    · next found heq =>
      cases hfollow
      rwa [heq] at hwalk
    · cases hfollow
  | succ links ih =>
    have hwalk := h.walk followLast ps
    rw [Disk.follow] at hfollow
    split at hfollow
    · cases hfollow
    · next found heq =>
      cases hfollow
      rwa [heq] at hwalk
    · next t target rest heq =>
      rw [heq] at hwalk
      have hstart : d.On (if target.head? = some '/' then [] else t) := by
        split
        · exact .top
        · exact hwalk
      simp only at hfollow
      split at hfollow
      · split at hfollow <;> cases hfollow
      · exact ih hstart hfollow

/-- The trail along names goes down the disk. -/
theorem On.trailTo (d : Disk) (names : List Name) : d.On (d.trailTo names) := by
  unfold Disk.trailTo
  refine List.foldlRecOn names _ .top fun trail h name _ => ?_
  split
  · next child hchild => exact .entry h hchild
  · exact h

/-- A path leads where its pieces lead from a place on the disk. -/
theorem exists_follow_of_resolve {d : Disk} {path : Path} {followLast : Bool} {found : Found}
    (h : d.resolve path followLast = .ok found) :
    ∃ start, d.On start ∧ d.follow (followLast || endsInSlash path.chars) 40 start
      (piecesOf path.chars) = .ok found := by
  have hstart : d.On (if path.isRooted then [] else d.trailTo d.cwd) := by
    split
    · exact .top
    · exact .trailTo d d.cwd
  refine ⟨_, hstart, ?_⟩
  unfold resolve at h
  split at h
  · cases h
  · split at h
    · cases h
    · split at h
      · cases h
      · simp only at h
        split at h
        · next hfollow =>
          split at h
          · cases h
          · cases h
            exact hfollow
        · exact h

/-- What a path leads to stands somewhere on the disk. -/
theorem exists_at_of_stat {d : Disk} {path : Path} {node : Node} (h : d.stat path = .ok node) :
    ∃ names, d.top.at? names = some node := by
  unfold stat at h
  split at h
  · cases h
  · cases h
  · next trail found hfound =>
    cases h
    obtain ⟨start, hstart, hfollow⟩ := exists_follow_of_resolve hfound
    obtain ⟨hon, rfl⟩ := hstart.follow hfollow
    exact ⟨_, hon.at_names⟩

/-! ## Directories on two disks -/

/-- The names under which a row of pieces leads to a directory, links followed. -/
def dirAt (d : Disk) (ps : List Name) : Option (List Name) :=
  match d.follow true 40 [] ps with
  | .ok (.node trail node) => if node.isDir then some (Trail.names trail) else none
  | _ => none

/-- Where it leads to one, there is the trail to it. -/
theorem dirAt_eq_some_iff {d : Disk} {ps names : List Name} : d.dirAt ps = some names ↔
    ∃ trail, d.follow true 40 [] ps = .ok (.node trail (d.here trail)) ∧ d.On trail ∧
      (d.here trail).isDir = true ∧ Trail.names trail = names := by
  unfold dirAt
  constructor
  · intro h
    split at h
    · next trail node hfollow =>
      obtain ⟨hon, rfl⟩ := On.top.follow hfollow
      split at h
      · next hdir => exact ⟨trail, hfollow, hon, hdir, Option.some.inj h⟩
      · cases h
    · cases h
  · rintro ⟨trail, hfollow, -, hdir, rfl⟩
    rw [hfollow]
    simp [hdir]

/-- Nodes that no walk tells apart: files, or nodes that are the same but for what is in a
directory. -/
inductive Like : Node → Node → Prop
  | files (bytes bytes' : List UInt8) (mode mode' : Nat) : Like (.file bytes mode) (.file bytes' mode')
  | emptied {node node' : Node} (h : node.emptied = node'.emptied) : Like node node'

namespace Like

variable {node node' : Node} (h : Like node node')
include h

/-- Both are directories, or none is. -/
theorem isDir_eq : node.isDir = node'.isDir := by
  cases h with
  | files => rfl
  | emptied h => rw [← Node.isDir_emptied, h, Node.isDir_emptied]

/-- The same names may be looked for in both. -/
theorem mayEnter_eq (hdir : node'.isDir = true) : node.mayEnter = node'.mayEnter := by
  cases h with
  | files => cases hdir
  | emptied h => rw [Node.mayEnter, Node.mayEnter, ← Node.mode_emptied, h, Node.mode_emptied]

/-- Both are the same link, or none is one. -/
theorem eq_link_iff {target : List Char} : node = .link target ↔ node' = .link target := by
  cases h with
  | files => simp
  | emptied h =>
    constructor
    · rintro rfl
      exact Node.eq_of_emptied h.symm rfl
    · rintro rfl
      exact Node.eq_of_emptied h rfl

end Like

/-- Where two disks are the same in outline, they have nodes that are alike. -/
theorem exists_like {d d' : Disk} {names : List Name} {c : Node} (hc : d'.top.at? names = some c)
    (h : d'.top.outline names = d.top.outline names) : ∃ b, d.top.at? names = some b ∧ Like b c := by
  rw [outline_eq_some_iff.mpr ⟨c, hc, rfl⟩] at h
  obtain ⟨b, hb, heq⟩ := outline_eq_some_iff.mp h.symm
  exact ⟨b, hb, .emptied heq⟩

/-- Under every row of names the outer disk has a node like that of the inner one, unless that is a
file which the inner disk has for its own. -/
def Resembles (own : List Name → Prop) (inner outer : Disk) : Prop :=
  ∀ names c, inner.top.at? names = some c → (c.isFile = true → ¬own names) →
    ∃ b, outer.top.at? names = some b ∧ Like b c

namespace Resembles

variable {own : List Name → Prop} {d d' : Disk} (h : Resembles own d' d)
include h

/-- Trails of the same names end at nodes that are alike. -/
theorem here_like {trail trail' : Trail} (ht : d.On trail) (ht' : d'.On trail')
    (hnames : Trail.names trail' = Trail.names trail)
    (hown : (d'.here trail').isFile = true → ¬own (Trail.names trail')) :
    Like (d.here trail) (d'.here trail') := by
  obtain ⟨node, hnode, hlike⟩ := h _ _ ht'.at_names hown
  rw [hnames, ht.at_names, Option.some.injEq] at hnode
  rwa [hnode]

/-- Where the one ends at a directory, so does the other, and the same names may be looked for. -/
theorem mayEnter_eq {trail trail' : Trail} (ht : d.On trail) (ht' : d'.On trail')
    (hnames : Trail.names trail' = Trail.names trail) (hdir : (d'.here trail').isDir = true) :
    (d.here trail).isDir = true ∧ (d.here trail).mayEnter = (d'.here trail').mayEnter := by
  have hlike := h.here_like ht ht' hnames fun hfile => absurd hfile (not_isFile_of_isDir hdir)
  exact ⟨by rw [hlike.isDir_eq, hdir], hlike.mayEnter_eq hdir⟩

/-- An entry of the inner disk is like the one on the outer disk. -/
theorem exists_child {trail trail' : Trail} (ht : d.On trail) (ht' : d'.On trail')
    (hnames : Trail.names trail' = Trail.names trail) {piece : Name} {c : Node}
    (hc : (d'.here trail').child? piece = some c)
    (hown : c.isFile = true → ¬own (Trail.names trail' ++ [piece])) :
    ∃ b, (d.here trail).child? piece = some b ∧ Like b c := by
  have hc' : d'.top.at? (Trail.names trail' ++ [piece]) = some c := by
    rw [Node.at_concat, ht'.at_names]
    exact hc
  obtain ⟨b, hb, hlike⟩ := h _ _ hc' hown
  rw [hnames, Node.at_concat, ht.at_names] at hb
  exact ⟨b, hb, hlike⟩

/-- A step on the inner disk is one on the outer disk. -/
theorem step_go {trail trail' next' : Trail} (ht : d.On trail) (ht' : d'.On trail')
    (hnames : Trail.names trail' = Trail.names trail) {piece : Name}
    (hstep : d'.step trail' piece = .ok (.go next'))
    (hown : (d'.here next').isFile = true → ¬own (Trail.names next')) :
    ∃ next, d.step trail piece = .ok (.go next) ∧ Trail.names next' = Trail.names next := by
  obtain ⟨hdir', henter', hstepped⟩ := step_eq_ok_iff.mp hstep
  obtain ⟨hdir, henter⟩ := h.mayEnter_eq ht ht' hnames hdir'
  rw [henter'] at henter
  cases hstepped with
  | stay dot => exact ⟨trail, step_eq_ok_iff.mpr ⟨hdir, henter, .stay dot⟩, hnames⟩
  | back dots =>
    refine ⟨trail.tail, step_eq_ok_iff.mpr ⟨hdir, henter, .back dots⟩, ?_⟩
    rw [names_tail, names_tail, hnames]
  | down child ordinary short there link =>
    rw [names_cons] at hown
    obtain ⟨b, hb, hlike⟩ := h.exists_child ht ht' hnames there hown
    have hlink (target : List Char) (hb : b = .link target) : False :=
      link target (hlike.eq_link_iff.mp hb)
    refine ⟨(piece, b) :: trail,
      step_eq_ok_iff.mpr ⟨hdir, henter, .down b ordinary short hb hlink⟩, ?_⟩
    rw [names_cons, names_cons, hnames]

/-- A step to a link on the inner disk is one on the outer disk. -/
theorem step_link {trail trail' : Trail} (ht : d.On trail) (ht' : d'.On trail')
    (hnames : Trail.names trail' = Trail.names trail) {piece : Name} {target : List Char}
    (hstep : d'.step trail' piece = .ok (.link target)) :
    d.step trail piece = .ok (.link target) := by
  obtain ⟨hdir', henter', hstepped⟩ := step_eq_ok_iff.mp hstep
  obtain ⟨hdir, henter⟩ := h.mayEnter_eq ht ht' hnames hdir'
  rw [henter'] at henter
  cases hstepped with
  | link target ordinary short there =>
    obtain ⟨b, hb, hlike⟩ := h.exists_child ht ht' hnames there nofun
    obtain rfl := hlike.eq_link_iff.mpr rfl
    exact step_eq_ok_iff.mpr ⟨hdir, henter, .link target ordinary short hb⟩

/-- So is a walk, unless it leads to an own file. -/
theorem walk {trail trail' : Trail} (ht : d.On trail) (ht' : d'.On trail')
    (hnames : Trail.names trail' = Trail.names trail) (ps : List Name) :
    (∀ next' node, d'.walk true trail' ps = .ok (.place (.node next' node)) →
      (node.isFile = true → ¬own (Trail.names next')) →
        ∃ next, d.walk true trail ps = .ok (.place (.node next (d.here next))) ∧
          Trail.names next' = Trail.names next) ∧
    ∀ next' target rest, d'.walk true trail' ps = .ok (.atLink next' target rest) →
      ∃ next, d.walk true trail ps = .ok (.atLink next target rest) ∧
        Trail.names next' = Trail.names next := by
  induction ps generalizing trail trail' with
  | nil =>
    refine ⟨fun next' node hwalk _ => ⟨trail, rfl, ?_⟩, fun _ _ _ hwalk => by cases hwalk⟩
    cases hwalk
    exact hnames
  | cons piece rest ih =>
    rw [walk_cons, walk_cons]
    rcases hstep : d'.step trail' piece with e | next' | target | _
    · simp
    · by_cases hown : (d'.here next').isFile = true → ¬own (Trail.names next')
      · obtain ⟨next, hnext, hnext'⟩ := h.step_go ht ht' hnames hstep hown
        rw [hnext]
        exact ih (ht.step hnext) (ht'.step hstep) hnext'
      · -- from a file there is no way on
        cases rest with
        | nil =>
          refine ⟨fun at' node hwalk hnode => ?_, fun _ _ _ hwalk => by cases hwalk⟩
          cases hwalk
          exact absurd hnode hown
        | cons second others =>
          have hfile : (d'.here next').isFile = true := (Classical.not_imp.mp hown).1
          have hnone : d'.walk true next' (second :: others) = .error .notDirectory := by
            rw [Disk.walk, not_isDir_of_isFile hfile]
            rfl
          simp [hnone]
    · rw [h.step_link ht ht' hnames hstep]
      simp only [Bool.not_true, Bool.false_eq_true, and_false, if_false]
      refine ⟨by simp, fun next' t others hwalk => ⟨trail, ?_, ?_⟩⟩
      · cases hwalk
        rfl
      · cases hwalk
        exact hnames
    · by_cases hrest : rest = [] <;> simp [hrest]

/-- Where pieces lead on the inner disk, they lead on the outer one, unless that is an own file. -/
theorem follow {trail trail' : Trail} (ht : d.On trail) (ht' : d'.On trail')
    (hnames : Trail.names trail' = Trail.names trail) {links : Nat} {ps : List Name}
    {next' : Trail} {node : Node} (hfollow : d'.follow true links trail' ps = .ok (.node next' node))
    (hown : node.isFile = true → ¬own (Trail.names next')) :
    ∃ next, d.follow true links trail ps = .ok (.node next (d.here next)) ∧
      Trail.names next' = Trail.names next := by
  obtain ⟨hplace, hlink⟩ := h.walk ht ht' hnames ps
  have hwalk := ht.walk true ps
  have hwalk' := ht'.walk true ps
  rw [Disk.follow] at hfollow
  split at hfollow
  · cases hfollow
  · next found heq =>
    cases hfollow
    obtain ⟨next, hnext, hn⟩ := hplace next' node heq hown
    exact ⟨next, by rw [Disk.follow, hnext], hn⟩
  · next t' target rest heq' =>
    obtain ⟨t, heq, hn⟩ := hlink t' target rest heq'
    rw [heq] at hwalk
    rw [heq'] at hwalk'
    cases links with
    | zero => cases hfollow
    | succ links =>
      have hstart : d.On (if target.head? = some '/' then [] else t) := by
        split
        · exact .top
        · exact hwalk
      have hstart' : d'.On (if target.head? = some '/' then [] else t') := by
        split
        · exact .top
        · exact hwalk'
      have hstarts : Trail.names (if target.head? = some '/' then [] else t') =
          Trail.names (if target.head? = some '/' then [] else t) := by
        split
        · rfl
        · exact hn
      simp only [Bool.true_or] at hfollow
      split at hfollow
      · next u n hgo' =>
        split at hfollow
        · cases hfollow
        · next hdir =>
          cases hfollow
          obtain ⟨next, hgo, hnext⟩ := follow hstart hstart' hstarts hgo' hown
          obtain ⟨hon', rfl⟩ := hstart'.follow hgo'
          have hlike := h.here_like (hstart.follow hgo).1 hon' hnext hown
          refine ⟨next, ?_, hnext⟩
          rw [Disk.follow, heq]
          simp [hgo, hlike.isDir_eq, hdir]
      · next hother => exact absurd hfollow (hother _ _)
termination_by links

end Resembles

/-- The inner disk has only directories and links that the outer one has, with the same permission
bits. -/
def Within (inner outer : Disk) : Prop :=
  ∀ names c, inner.top.outline names = some c → c.isFile = false →
    outer.top.outline names = some c

namespace Within

variable {d d' : Disk} (h : Within d' d)
include h

/-- It resembles the outer one then, apart from files. -/
theorem resembles : Resembles (fun _ => True) d' d := by
  intro names c hc hfile
  have hemptied : c.emptied.isFile = false := by
    cases c with
    | file bytes mode => exact absurd trivial (hfile rfl)
    | dir entries mode => rfl
    | link target => rfl
  obtain ⟨b, hb, heq⟩ :=
    outline_eq_some_iff.mp (h _ _ (outline_eq_some_iff.mpr ⟨c, hc, rfl⟩) hemptied)
  exact ⟨b, hb, .emptied heq⟩

/-- Trails of the same names end at nodes that are alike if that of the inner disk is a directory. -/
theorem here_eq {trail trail' : Trail} (ht : d.On trail) (ht' : d'.On trail')
    (hnames : Trail.names trail' = Trail.names trail) (hdir : (d'.here trail').isDir = true) :
    (d'.here trail').emptied = (d.here trail).emptied := by
  have hlike := h.resembles.here_like ht ht' hnames fun hfile =>
    absurd hfile (not_isFile_of_isDir hdir)
  generalize d.here trail = node, d'.here trail' = node' at hlike hdir
  cases hlike with
  | files => cases hdir
  | emptied heq => exact heq.symm

/-- A directory that pieces lead to on the inner disk is the one that they lead to on the outer
one. -/
theorem dirAt {ps names : List Name} (hat : d'.dirAt ps = some names) : d.dirAt ps = some names := by
  obtain ⟨trail', hfollow', hon', hdir', rfl⟩ := dirAt_eq_some_iff.mp hat
  obtain ⟨trail, hfollow, hnames⟩ := h.resembles.follow .top .top rfl hfollow' fun hfile =>
    absurd hfile (not_isFile_of_isDir hdir')
  have hon := (On.top.follow hfollow).1
  obtain ⟨hdir, -⟩ := h.resembles.mayEnter_eq hon hon' hnames hdir'
  exact dirAt_eq_some_iff.mpr ⟨trail, hfollow, hon, hdir, hnames.symm⟩

end Within

namespace Later

variable {d d' : Disk} (h : Later d d')
include h

/-- A later disk has only directories and links that the other one has. -/
theorem within : Within d' d := fun _ _ hc hfile => h.outline_dir hc hfile

/-- A directory that pieces lead to on the later disk is the one that they led to. -/
theorem dirAt {ps names : List Name} (hat : d'.dirAt ps = some names) : d.dirAt ps = some names :=
  h.within.dirAt hat

end Later

end ArtifactSync.Disk
