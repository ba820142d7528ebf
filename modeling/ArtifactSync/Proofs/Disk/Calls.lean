import ArtifactSync.Proofs.Disk.Later

/-!
# Calls in the directory that a path leads to

What a call on a rooted path does is said in three steps: what is wrong with the path's text
(`spelling`), where the pieces in front of the last one lead (`dirAt`), and what the last name comes
to in that directory. Where the pieces in front lead to no directory, no call succeeds. A reading
depends on the entry (`stat_entry`), a writing puts a file in its place (`writeText_cases`), and a
removal takes it away (`unlink_cases`).
-/

namespace ArtifactSync.Disk

open Path Artifact

/-- What is wrong with the text of a path, before the disk is looked at. -/
def spelling (path : Path) : Except Errno Unit :=
  if holdsNul path.chars then .error .nulInPath
  else if path.chars = [] then .error .noEntry
  else if (Text.bytes path.chars).length > maxPath then .error .nameTooLong
  else .ok ()

/-- What can be wrong with a text. -/
theorem spelling_cases {path : Path} (h : path.chars ≠ []) : spelling path = .ok () ∨
    spelling path = .error .nulInPath ∨ spelling path = .error .nameTooLong := by
  rw [spelling, if_neg h]
  split
  · exact .inr (.inl rfl)
  · split
    · exact .inr (.inr rfl)
    · exact .inl rfl

/-- Why a name cannot be looked for in a directory. -/
def entering (dir : Node) (name : Name) : Except Errno Unit :=
  if !dir.mayEnter then .error .access
  else if (Text.bytes name).length > maxName then .error .nameTooLong
  else .ok ()

/-- A directory that is not there is no reason. -/
theorem entering_ne_noEntry {dir : Node} {name : Name} {e : Errno}
    (h : entering dir name = .error e) : e ≠ .noEntry := by
  rintro rfl
  unfold entering at h
  split at h
  · cases h
  · split at h <;> cases h

/-- The path goes from the top over some pieces to a last one, with nothing behind it. -/
structure EndsIn (path : Path) (ps : List Name) (name : Name) : Prop where
  rooted : path.isRooted = true
  pieces : piecesOf path.chars = ps ++ [name]
  slash : endsInSlash path.chars = false

/-- A name that a directory can have an entry under is looked for as a name. -/
theorem isName_of_isName {name : Name} (h : IsName name) : isName name = true := by
  have hdot : name ≠ ['.'] := by
    rintro rfl
    cases h.makes
  simp [isName, hdot, h.notUp]

section Resolve

variable {d : Disk} {path : Path}

/-- What a rooted path leads to is what its pieces lead to from the top. -/
theorem resolve_of_isRooted (rooted : path.isRooted = true) (followLast : Bool) :
    d.resolve path followLast = (spelling path).bind fun _ =>
      match d.follow (followLast || endsInSlash path.chars) 40 [] (piecesOf path.chars) with
      | .ok (.node trail node) =>
        if endsInSlash path.chars && !node.isDir then .error .notDirectory
        else .ok (.node trail node)
      | answer => answer := by
  unfold resolve spelling
  simp only [rooted, if_true]
  by_cases hnul : holdsNul path.chars = true
  · simp [hnul, Except.bind]
  · by_cases hlong : (Text.bytes path.chars).length > maxPath
    · simp [hnul, hlong, chars_ne_nil_of_isRooted rooted, Except.bind]
    · rcases d.follow (followLast || endsInSlash path.chars) 40 [] (piecesOf path.chars) with
        e | ⟨t, n⟩ | ⟨t, name⟩ <;>
      simp [hnul, hlong, chars_ne_nil_of_isRooted rooted, Except.bind]

/-- What a path without a separator at its end leads to. -/
theorem resolve_eq (rooted : path.isRooted = true) (slash : endsInSlash path.chars = false)
    (followLast : Bool) : d.resolve path followLast =
      (spelling path).bind fun _ => d.follow followLast 40 [] (piecesOf path.chars) := by
  rw [resolve_of_isRooted rooted, slash, Bool.or_false]
  rcases d.follow followLast 40 [] (piecesOf path.chars) with e | ⟨t, n⟩ | ⟨t, name⟩ <;> rfl

/-- Nothing is wrong with the text of a path that leads somewhere, and its pieces lead there. -/
theorem follow_of_resolve (rooted : path.isRooted = true) (slash : endsInSlash path.chars = false)
    {followLast : Bool} {found : Found} (h : d.resolve path followLast = .ok found) :
    spelling path = .ok () ∧ d.follow followLast 40 [] (piecesOf path.chars) = .ok found := by
  rw [resolve_eq rooted slash] at h
  cases hspelled : spelling path with
  | error e =>
    rw [hspelled] at h
    cases h
  | ok _ =>
    rw [hspelled] at h
    exact ⟨rfl, h⟩

/-- When a rooted path leads to something: nothing is wrong with its text, its pieces lead there, and
it is a directory if a separator stands at the end. -/
theorem resolve_eq_node_iff (rooted : path.isRooted = true) {trail : Trail} {node : Node} :
    d.resolve path true = .ok (.node trail node) ↔ spelling path = .ok () ∧
      (endsInSlash path.chars = true → node.isDir = true) ∧
        d.follow true 40 [] (piecesOf path.chars) = .ok (.node trail node) := by
  rw [resolve_of_isRooted rooted, Bool.true_or]
  cases spelling path with
  | error e => simp [Except.bind]
  | ok _ =>
    rcases d.follow true 40 [] (piecesOf path.chars) with e | ⟨t, n⟩ | ⟨t, name⟩
    · simp [Except.bind]
    · have hslash : (endsInSlash path.chars && !n.isDir) = true ↔
          ¬(endsInSlash path.chars = true → n.isDir = true) := by simp
      simp only [Except.bind, hslash]
      split
      · next hdir =>
        refine ⟨nofun, fun ⟨_, hnode, hfound⟩ => ?_⟩
        cases hfound
        exact absurd hnode hdir
      · next hdir =>
        refine ⟨fun hfound => ?_, fun ⟨_, _, hfound⟩ => hfound⟩
        cases hfound
        exact ⟨trivial, not_not.mp hdir, rfl⟩
    · simp [Except.bind]

/-- What a path leads to stands under the names of its trail. -/
theorem at_of_resolve (rooted : path.isRooted = true) {trail : Trail} {node : Node}
    (h : d.resolve path true = .ok (.node trail node)) :
    d.top.at? (Trail.names trail) = some node := by
  obtain ⟨-, -, hfollow⟩ := (resolve_eq_node_iff rooted).mp h
  obtain ⟨hon, rfl⟩ := On.top.follow hfollow
  exact hon.at_names

/-- A path leads to the same place on a disk that has the same nodes, apart from what files hold. -/
theorem Resembles.resolve {own : List Name → Prop} {d' : Disk} (h : Resembles own d' d)
    (rooted : path.isRooted = true) {trail' : Trail} {node' : Node}
    (hresolve : d'.resolve path true = .ok (.node trail' node'))
    (hown : node'.isFile = true → ¬own (Trail.names trail')) :
    ∃ trail node, d.resolve path true = .ok (.node trail node) ∧
      Trail.names trail = Trail.names trail' := by
  obtain ⟨hspelled, hslash, hfollow'⟩ := (resolve_eq_node_iff rooted).mp hresolve
  obtain ⟨trail, hfollow, hnames⟩ := h.follow .top .top rfl hfollow' hown
  obtain ⟨hon', rfl⟩ := On.top.follow hfollow'
  have hlike := h.here_like (On.top.follow hfollow).1 hon' hnames hown
  rw [← hlike.isDir_eq] at hslash
  exact ⟨trail, _, (resolve_eq_node_iff rooted).mpr ⟨hspelled, hslash, hfollow⟩, hnames.symm⟩

/-- A path that leads to a directory leads to it whatever stands at its end. -/
theorem stat_of_dirAt (rooted : path.isRooted = true) {names : List Name}
    (hat : d.dirAt (piecesOf path.chars) = some names) :
    ∃ dir, d.top.at? names = some dir ∧ dir.isDir = true ∧
      d.stat path = (spelling path).map fun _ => dir := by
  obtain ⟨trail, hfollow, hon, hdir, rfl⟩ := dirAt_eq_some_iff.mp hat
  refine ⟨d.here trail, hon.at_names, hdir, ?_⟩
  rw [stat, resolve_of_isRooted rooted, Bool.true_or, hfollow]
  cases spelling path with
  | error e => rfl
  | ok _ => simp [Except.bind, Except.map, hdir]

/-- A path leads to a directory if nothing is wrong with its text and its pieces do. -/
theorem isDir_iff (rooted : path.isRooted = true) : d.isDir path = true ↔
    spelling path = .ok () ∧ ∃ names, d.dirAt (piecesOf path.chars) = some names := by
  constructor
  · intro h
    cases hstat : d.stat path with
    | error e =>
      rw [isDir, hstat] at h
      cases h
    | ok node =>
      rw [isDir, hstat] at h
      obtain ⟨trail, hfollow⟩ := follow_of_stat rooted hstat
      obtain ⟨hon, rfl⟩ := On.top.follow hfollow
      have hat := dirAt_eq_some_iff.mpr ⟨trail, hfollow, hon, h, rfl⟩
      obtain ⟨dir, -, -, hspelled⟩ := stat_of_dirAt rooted hat
      refine ⟨?_, _, hat⟩
      rw [hstat] at hspelled
      cases hspelling : spelling path with
      | error e =>
        rw [hspelling] at hspelled
        cases hspelled
      | ok _ => rfl
  · rintro ⟨hspelled, names, hat⟩
    obtain ⟨dir, -, hisDir, hstat⟩ := stat_of_dirAt rooted hat
    rw [isDir, hstat, hspelled]
    exact hisDir

/-- Where the pieces in front lead to no directory, nothing leads anywhere. -/
theorem follow_of_dirAt_none {ps qs : List Name} (hat : d.dirAt ps = none) (hqs : qs ≠ [])
    (followLast : Bool) : ∃ e, d.follow followLast 40 [] (ps ++ qs) = .error e := by
  have happend := follow_append d followLast hqs 40 [] ps
  split at happend
  · exact ⟨_, happend⟩
  · exact ⟨_, happend⟩
  · next trail node hfollow =>
    obtain ⟨rfl, left, hleft⟩ := happend
    have hdir : (d.here trail).isDir = false := by
      by_contra hdir
      rw [Bool.not_eq_false] at hdir
      simp [dirAt, hfollow, hdir] at hat
    obtain ⟨q, rest, rfl⟩ := List.exists_cons_of_ne_nil hqs
    exact ⟨.notDirectory, by rw [hleft, follow, walk, hdir]; rfl⟩

/-- So nothing is there. -/
theorem stat_of_dirAt_none (rooted : path.isRooted = true) (slash : endsInSlash path.chars = false)
    {ps qs : List Name} (hpieces : piecesOf path.chars = ps ++ qs) (hqs : qs ≠ [])
    (hat : d.dirAt ps = none) : ∃ e, d.stat path = .error e := by
  obtain ⟨e, he⟩ := follow_of_dirAt_none hat hqs true
  rw [stat, resolve_eq rooted slash, hpieces, he]
  cases spelling path with
  | error e => exact ⟨e, rfl⟩
  | ok _ => exact ⟨e, rfl⟩

end Resolve

/-! ## The last name -/

section Last

variable {d : Disk} {path : Path} {ps names : List Name} {name : Name}

/-- The last name is looked for in the directory that the pieces in front lead to. A link there is
the end only if it is not to be followed. -/
theorem follow_last (hat : d.dirAt ps = some names) (hname : isName name = true) :
    ∃ trail, d.On trail ∧ (d.here trail).isDir = true ∧ Trail.names trail = names ∧
      ∀ followLast, (followLast = true →
          ∀ target, (d.here trail).child? name ≠ some (.link target)) →
        d.follow followLast 40 [] (ps ++ [name]) = (entering (d.here trail) name).map fun _ =>
          match (d.here trail).child? name with
          | none => .missing trail name
          | some node => .node ((name, node) :: trail) node := by
  obtain ⟨trail, hfollow, hon, hdir, rfl⟩ := dirAt_eq_some_iff.mp hat
  refine ⟨trail, hon, hdir, rfl, fun followLast hlink => ?_⟩
  have happend := follow_append d followLast (List.cons_ne_nil name []) 40 [] ps
  rw [hfollow] at happend
  obtain ⟨-, left, hleft⟩ := happend
  have hdots : name ≠ ['.'] ∧ name ≠ ['.', '.'] := by simpa [isName] using hname
  have hentered (node : Node) : d.here ((name, node) :: trail) = node := rfl
  rw [hleft, follow, walk_cons, step, entering, hdir, if_neg hdots.1, if_neg hdots.2]
  by_cases henter : (d.here trail).mayEnter = true
  · by_cases hlong : (Text.bytes name).length > maxName
    · simp [henter, hlong, Except.map]
    · rcases hchild : (d.here trail).child? name with _ | ⟨bytes, mode⟩ | ⟨entries, mode⟩ | target
      · simp [henter, hlong, Except.map]
      · simp [henter, hlong, Except.map, walk, hentered]
      · simp [henter, hlong, Except.map, walk, hentered]
      · have hfollow : followLast = false := by
          by_contra hfollow
          exact hlink (by simpa using hfollow) target hchild
        simp [henter, hlong, hfollow, Except.map]
  · simp [henter, Except.map]

/-- What pieces lead to is the entry under the last of them, in the directory that the others lead
to. -/
theorem entry_of_follow (hname : isName name = true) {trail : Trail} {node : Node}
    (h : d.follow false 40 [] (ps ++ [name]) = .ok (.node trail node)) :
    ∃ names dir, d.dirAt ps = some names ∧ d.top.at? names = some dir ∧
      entering dir name = .ok () ∧ d.top.at? (names ++ [name]) = some node := by
  cases hat : d.dirAt ps with
  | none =>
    obtain ⟨e, he⟩ := follow_of_dirAt_none hat (List.cons_ne_nil name []) false
    rw [he] at h
    cases h
  | some names =>
    obtain ⟨trail', hon, -, rfl, hlast⟩ := follow_last hat hname
    rw [hlast false nofun] at h
    cases hentering : entering (d.here trail') name with
    | error e =>
      rw [hentering] at h
      cases h
    | ok _ =>
      rw [hentering] at h
      cases hchild : (d.here trail').child? name with
      | none =>
        rw [hchild] at h
        cases h
      | some child =>
        rw [hchild] at h
        cases h
        refine ⟨_, _, rfl, hon.at_names, hentering, ?_⟩
        rw [Node.at_concat, hon.at_names]
        exact hchild

/-- A path leads to the entry under its last name, unless that is a link. -/
theorem stat_entry (hends : EndsIn path ps name) (hat : d.dirAt ps = some names)
    (hname : isName name = true) {dir node : Node} (hdir : d.top.at? names = some dir)
    (hnode : d.top.at? (names ++ [name]) = some node) (hlink : ∀ target, node ≠ .link target) :
    d.stat path = (spelling path).bind fun _ => (entering dir name).map fun _ => node := by
  obtain ⟨trail, hon, hisDir, rfl, hfollow⟩ := follow_last hat hname
  obtain rfl : d.here trail = dir := Option.some.inj (hon.at_names.symm.trans hdir)
  have hchild : (d.here trail).child? name = some node := by
    rw [Node.at_concat, hon.at_names] at hnode
    exact hnode
  rw [stat, resolve_eq hends.rooted hends.slash, hends.pieces, hfollow true fun _ target h => by
    rw [hchild] at h
    exact hlink target (Option.some.inj h)]
  cases spelling path with
  | error e => rfl
  | ok _ =>
    cases entering (d.here trail) name with
    | error e => rfl
    | ok _ => simp [Except.bind, Except.map, hchild]

/-- Where pieces lead to a directory, there is something under a last name that leads to one. -/
theorem at_ne_none_of_dirAt (hat : d.dirAt ps = some names) (hname : isName name = true)
    {names' : List Name} (h : d.dirAt (ps ++ [name]) = some names') :
    d.top.at? (names ++ [name]) ≠ none := by
  intro hnone
  obtain ⟨trail, hon, -, rfl, hfollow⟩ := follow_last hat hname
  have hchild : (d.here trail).child? name = none := by
    rw [Node.at_concat, hon.at_names] at hnone
    exact hnone
  obtain ⟨trail', hfollow', -⟩ := dirAt_eq_some_iff.mp h
  rw [hfollow true fun _ target => by simp [hchild], hchild] at hfollow'
  cases hentering : entering (d.here trail) name <;> rw [hentering] at hfollow' <;> cases hfollow'

/-- Where pieces lead to a directory, one name more leads to the directory of that name. -/
theorem dirAt_concat {names' : List Name} (hat : d.dirAt ps = some names)
    (hname : isName name = true) {dir : Node} (hdir : d.top.at? (names ++ [name]) = some dir)
    (hisDir : dir.isDir = true) (h : d.dirAt (ps ++ [name]) = some names') :
    names' = names ++ [name] := by
  obtain ⟨trail, hon, -, rfl, hfollow⟩ := follow_last hat hname
  have hchild : (d.here trail).child? name = some dir := by
    rw [Node.at_concat, hon.at_names] at hdir
    exact hdir
  have hlink : ∀ target, (d.here trail).child? name ≠ some (.link target) := by
    intro target hlink
    rw [hchild] at hlink
    cases hlink
    cases hisDir
  obtain ⟨trail', hfollow', -, -, rfl⟩ := dirAt_eq_some_iff.mp h
  rw [hfollow true fun _ => hlink, hchild] at hfollow'
  cases hentering : entering (d.here trail) name with
  | error e =>
    rw [hentering] at hfollow'
    cases hfollow'
  | ok _ =>
    rw [hentering] at hfollow'
    cases hfollow'
    exact names_cons name dir trail

/-- So do several. -/
theorem dirAt_append {dirs names' : List Name} (hat : d.dirAt ps = some names)
    (hnames : ∀ n ∈ dirs, IsName n) {below : List Name} (hne : below ≠ []) {c : Node}
    (hc : d.top.at? (names ++ dirs ++ below) = some c)
    (h : d.dirAt (ps ++ dirs) = some names') : names' = names ++ dirs := by
  induction dirs generalizing ps names with
  | nil =>
    rw [List.append_nil] at h ⊢
    exact Option.some.inj (h.symm.trans hat)
  | cons name rest ih =>
    obtain ⟨hname, hrest⟩ := List.forall_mem_cons.mp hnames
    rw [List.append_cons] at h ⊢
    rw [List.append_cons, List.append_assoc] at hc
    -- there is something below the first name, so it leads to a directory
    have hmore : rest ++ below ≠ [] := by simp [hne]
    obtain ⟨dir, hdir, hisDir⟩ := Node.isDir_of_at hmore hc
    cases hfirst : d.dirAt (ps ++ [name]) with
    | none =>
      by_cases hrest : rest = []
      · rw [hrest, List.append_nil, hfirst] at h
        cases h
      · obtain ⟨e, he⟩ := follow_of_dirAt_none hfirst hrest true
        rw [dirAt, he] at h
        cases h
    | some inner =>
      obtain rfl := dirAt_concat hat (isName_of_isName hname) hdir hisDir hfirst
      exact ih hfirst hrest (by rwa [List.append_assoc]) h

end Last

/-! ## Readings -/

/-- What is read is what stands there. -/
theorem readText_congr {d d' : Disk} {path : Path} (h : d.stat path = d'.stat path) :
    d.readText path = d'.readText path := by
  rw [readText, readText, readBytes, readBytes, h]

/-- Bytes are read from a file. -/
theorem readBytes_eq_ok_iff {d : Disk} {path : Path} {bytes : List UInt8} :
    d.readBytes path = .ok bytes ↔ ∃ trail mode,
      d.resolve path true = .ok (.node trail (.file bytes mode)) ∧
        (Node.file bytes mode).mayRead = true := by
  rw [readBytes, stat]
  rcases d.resolve path true with e | ⟨trail, node⟩ | ⟨trail, name⟩
  · simp
  · cases node with
    | file other mode =>
      have hsame : (Node.file bytes mode).mayRead = (Node.file other mode).mayRead := rfl
      cases hread : (Node.file other mode).mayRead <;> simp [hread, hsame]
    | dir entries mode => cases hread : (Node.dir entries mode).mayRead <;> simp [hread]
    | link target => cases hread : (Node.link target).mayRead <;> simp [hread]
  · simp

/-- A text is what its bytes stand for. -/
theorem readText_eq_ok_iff {d : Disk} {path : Path} {text : String} :
    d.readText path = .ok text ↔
      ∃ bytes, d.readBytes path = .ok bytes ∧ Text.ofBytes? bytes = some text := by
  rw [readText]
  cases d.readBytes path with
  | error e => simp
  | ok bytes => cases htext : Text.ofBytes? bytes <;> simp [htext]

/-- Where nothing is, nothing is read. -/
theorem readText_of_stat {d : Disk} {path : Path} (h : ∃ e, d.stat path = .error e) :
    ∃ e, d.readText path = .error e := by
  obtain ⟨e, he⟩ := h
  exact ⟨_, by rw [readText, readBytes, he]⟩

/-- Where a directory is, no text is read. -/
theorem readText_of_isDir {d : Disk} {path : Path}
    (h : ∀ node, d.stat path = .ok node → node.isDir = true) : ∃ e, d.readText path = .error e := by
  cases hstat : d.stat path with
  | error e => exact readText_of_stat ⟨e, hstat⟩
  | ok node =>
    have hbytes : ∃ e, d.readBytes path = .error e := by
      have hdir := h node hstat
      rw [readBytes, hstat]
      cases node with
      | dir entries mode =>
        by_cases hread : (Node.dir entries mode).mayRead = true
        · exact ⟨.isDirectory, by simp [hread]⟩
        · exact ⟨.access, by simp [hread]⟩
      | file bytes mode => cases hdir
      | link target => cases hdir
    obtain ⟨e, he⟩ := hbytes
    exact ⟨_, by rw [readText, he]⟩

/-- A path with a separator or `.` at its end leads to no file. -/
theorem readText_of_behind {d : Disk} {path : Path} (rooted : path.isRooted = true)
    (h : endsInSlash path.chars = true ∨ ∃ ps, piecesOf path.chars = ps ++ [['.']]) :
    ∃ e, d.readText path = .error e := by
  refine readText_of_isDir fun node hstat => ?_
  obtain ⟨trail, hfollow⟩ := follow_of_stat rooted hstat
  rcases h with hslash | ⟨ps, hpieces⟩
  · by_contra hdir
    rw [stat, resolve_of_isRooted rooted, Bool.true_or, hfollow] at hstat
    cases hspelled : spelling path <;> simp [hspelled, hslash, hdir, Except.bind] at hstat
  · -- the last step stays in a directory
    rw [hpieces] at hfollow
    have happend := follow_append d true (List.cons_ne_nil ['.'] []) 40 [] ps
    split at happend
    · rw [happend] at hfollow
      cases hfollow
    · rw [happend] at hfollow
      cases hfollow
    · next t n hfront =>
      obtain ⟨rfl, left, hleft⟩ := happend
      rw [hleft, follow, walk, if_pos rfl] at hfollow
      cases hdir : (d.here t).isDir with
      | false => simp [hdir] at hfollow
      | true =>
        cases henter : (d.here t).mayEnter with
        | false => simp [hdir, henter] at hfollow
        | true =>
          simp only [hdir, henter, walk, Bool.not_true, Bool.false_eq_true, if_false,
            Except.ok.injEq, Found.node.injEq] at hfollow
          rwa [← hfollow.2]

/-- Permission bits decide alone whether a name may be looked for. -/
theorem entering_congr {dir dir' : Node} (h : dir'.emptied = dir.emptied) (name : Name) :
    entering dir' name = entering dir name := by
  rw [entering, entering, Node.mayEnter, Node.mayEnter, ← Node.mode_emptied, h, Node.mode_emptied]

/-- Directories that are alike in outline. -/
theorem Later.dir {d d' : Disk} (h : Later d d') {ps names : List Name}
    (hat : d'.dirAt ps = some names) : ∃ dir dir', d.top.at? names = some dir ∧
      d'.top.at? names = some dir' ∧ dir.isDir = true ∧ dir'.emptied = dir.emptied := by
  obtain ⟨trail', -, hon', hdir', rfl⟩ := dirAt_eq_some_iff.mp hat
  obtain ⟨trail, -, hon, hdir, hnames⟩ := dirAt_eq_some_iff.mp (h.dirAt hat)
  refine ⟨_, _, by rw [← hnames]; exact hon.at_names, hon'.at_names, hdir, ?_⟩
  exact h.within.here_eq hon hon' hnames.symm hdir'

/-- On a later disk a source is read as before, or cannot be reached any more. -/
theorem Later.stat_source {d d' : Disk} (h : Later d d') {path : Path} {ps : List Name}
    {name : Name} (hends : EndsIn path ps name) (hname : isName name = true)
    (hs : isSource ⟨name⟩ = true) (hreal : ∀ names, d.dirAt ps = some names →
      ∃ bytes mode, d.top.at? (names ++ [name]) = some (.file bytes mode)) :
    (∃ e, d'.stat path = .error e) ∨
      ∃ names, d'.dirAt ps = some names ∧ d'.stat path = d.stat path := by
  cases hat' : d'.dirAt ps with
  | none =>
    exact .inl (stat_of_dirAt_none hends.rooted hends.slash hends.pieces (by simp) hat')
  | some names =>
    have hat := h.dirAt hat'
    obtain ⟨dir, dir', hdir, hdir', -, hemptied⟩ := h.dir hat'
    obtain ⟨bytes, mode, hfile⟩ := hreal names hat
    -- the file itself is the same, since no source is swapped
    have hfile' : d'.top.at? (names ++ [name]) = some (.file bytes mode) := by
      have houtline : d'.top.outline (names ++ [name]) = some (.file bytes mode) := by
        rw [h.outline_source hs, outline_eq_some_iff]
        exact ⟨_, hfile, rfl⟩
      obtain ⟨node, hnode, hemptied⟩ := outline_eq_some_iff.mp houtline
      rw [hnode, Node.eq_of_emptied hemptied rfl]
    refine .inr ⟨names, rfl, ?_⟩
    rw [stat_entry hends hat' hname hdir' hfile' nofun, stat_entry hends hat hname hdir hfile nofun,
      entering_congr hemptied]

/-! ## Directories that are there -/

/-- The pieces of two texts with a separator between them. -/
theorem piecesOf_append (a b : List Char) : piecesOf (a ++ '/' :: b) = piecesOf a ++ piecesOf b := by
  have hpieces (cs : List Char) :
      piecesOf cs = (Path.mk cs).allPieces.filter fun piece => piece ≠ [] := rfl
  rw [hpieces, hpieces, hpieces, allPieces_append, List.filter_append]

/-- A path without the separators at its end is a path with them. -/
theorem exists_slashes (path : Path) :
    ∃ slashes, (∀ c ∈ slashes, c = '/') ∧ path.chars = (bare path).chars ++ slashes := by
  refine ⟨(path.chars.reverse.takeWhile (· == '/')).reverse, fun c hc => ?_, ?_⟩
  · simpa using List.mem_takeWhile_imp (List.mem_reverse.mp hc)
  · have hsplit := congrArg List.reverse
      (List.takeWhile_append_dropWhile (p := (· == '/')) (l := path.chars.reverse))
    rw [List.reverse_append, List.reverse_reverse] at hsplit
    exact hsplit.symm

/-- The separators at the end of a path make no pieces. -/
theorem piecesOf_bare (path : Path) : piecesOf (bare path).chars = piecesOf path.chars := by
  have hslashes (slashes : List Char) (h : ∀ c ∈ slashes, c = '/') (a : List Char) :
      piecesOf (a ++ slashes) = piecesOf a := by
    induction slashes generalizing a with
    | nil => rw [List.append_nil]
    | cons c rest ih =>
      obtain ⟨rfl, hrest⟩ := List.forall_mem_cons.mp h
      have hnone : piecesOf rest = [] := ih hrest []
      rw [piecesOf_append, hnone, List.append_nil]
  obtain ⟨slashes, hall, hchars⟩ := exists_slashes path
  rw [hchars, hslashes slashes hall]

/-- There are none in front of those. -/
theorem endsInSlash_bare (path : Path) : endsInSlash (bare path).chars = false := by
  unfold endsInSlash bare Text.dropEndWhile
  rw [List.getLast?_reverse]
  cases hdrop : path.chars.reverse.dropWhile (· == '/') with
  | nil => rfl
  | cons c rest =>
    have hhead := List.head_dropWhile_not (p := (· == '/')) (l := path.chars.reverse) (by simp [hdrop])
    simpa [hdrop] using hhead

/-- What is left of a rooted path is rooted. -/
theorem isRooted_bare {path : Path} (h : path.isRooted = true) (hne : (bare path).chars ≠ []) :
    (bare path).isRooted = true := by
  obtain ⟨slashes, -, hchars⟩ := exists_slashes path
  rw [isRooted, hchars] at h
  rw [isRooted]
  cases hbare : (bare path).chars with
  | nil => exact absurd hbare hne
  | cons c cs => simpa [hbare] using h

/-- Something stands where pieces lead to a directory, also if a link at the end is not followed. -/
theorem exists_node_of_dirAt {d : Disk} {ps names : List Name} (hat : d.dirAt ps = some names) :
    ∃ trail node, d.follow false 40 [] ps = .ok (.node trail node) := by
  obtain ⟨trail, hfollow, -⟩ := dirAt_eq_some_iff.mp hat
  rcases List.eq_nil_or_concat ps with rfl | ⟨qs, last, rfl⟩
  · exact ⟨[], d.here [], by rw [follow, walk]⟩
  · have happend (followLast : Bool) := follow_append d followLast (List.cons_ne_nil last []) 40 [] qs
    have htrue := happend true
    have hfalse := happend false
    rw [List.concat_eq_append] at hfollow ⊢
    rcases hfront : d.follow true 40 [] qs with e | ⟨t, n⟩ | ⟨t, name⟩ <;>
      rw [hfront] at htrue hfalse
    · rw [htrue] at hfollow
      cases hfollow
    · obtain ⟨-, left, hleft⟩ := htrue
      obtain ⟨-, left', hleft'⟩ := hfalse
      rw [hleft, follow, walk_cons] at hfollow
      rw [hleft', follow, walk_cons]
      -- the last step is the same, and what it comes to is there
      generalize d.step t last = step at hfollow ⊢
      rcases step with e | next | target | _
      · cases hfollow
      · exact ⟨next, d.here next, rfl⟩
      · exact ⟨(last, .link target) :: t, .link target, rfl⟩
      · cases hfollow
    · rw [htrue] at hfollow
      cases hfollow

/-- Why a directory cannot be made where something stands, unless something is wrong with the text of
the path. -/
def taken (path : Path) : Errno :=
  if (bare path).chars = [] then .exists
  else match spelling (bare path) with
    | .error e => e
    | .ok _ => .exists

/-- That is no reason to make the directories in front. -/
theorem taken_ne_noEntry (path : Path) : taken path ≠ .noEntry := by
  unfold taken
  split
  · simp
  · next hbare => rcases spelling_cases hbare with h | h | h <;> simp [h]

section MakeDirs

variable {d : Disk} {path : Path} (rooted : path.isRooted = true)
include rooted

/-- No directory is made where something stands. -/
theorem makeDir_of_node {trail : Trail} {node : Node}
    (h : d.follow false 40 [] (piecesOf path.chars) = .ok (.node trail node)) :
    d.makeDir path = .error (taken path) := by
  unfold makeDir taken
  by_cases hbare : (bare path).chars = []
  · simp [rooted, hbare]
  · rw [if_neg (by simp [hbare]), if_neg hbare,
      resolve_eq (isRooted_bare rooted hbare) (endsInSlash_bare path), piecesOf_bare, h]
    cases spelling (bare path) <;> rfl

/-- Directories in front are made only where there are none. -/
theorem makeDirs_of_makeDir (h : d.makeDir path ≠ .error .noEntry) :
    d.makeDirs path = d.unlessThere path (d.makeDir path) := by
  have hcomponents : path.components ≠ [] := by
    rw [(components_of_isRooted rooted).2]
    simp
  rw [makeDirs, makeDirsWithin, if_neg hcomponents]
  split
  · next hnone => exact absurd hnone h
  · rfl

/-- To make a directory that is there leaves the disk alone, and succeeds unless something is wrong
with the text of the path. -/
theorem makeDirs_of_dirAt {names : List Name} (hat : d.dirAt (piecesOf path.chars) = some names) :
    d.makeDirs path =
      (match spelling path with
        | .error _ => .error (taken path)
        | .ok _ => .ok (), d) := by
  obtain ⟨trail, node, hnode⟩ := exists_node_of_dirAt hat
  have hmake := makeDir_of_node rooted hnode
  obtain ⟨dir, -, hdir, hstat⟩ := stat_of_dirAt rooted hat
  rw [makeDirs_of_makeDir rooted (by simp [hmake, taken_ne_noEntry]), hmake, unlessThere, isDir,
    hstat]
  cases spelling path with
  | error _ => rfl
  | ok _ => simp [Except.map, hdir]

section Make

variable {ps names : List Name} {name : Name} (hpieces : piecesOf path.chars = ps ++ [name])
  (hname : isName name = true) (hat : d.dirAt ps = some names)
include hpieces

omit rooted in
/-- A path over a name is not made of separators alone. -/
theorem bare_ne_nil : (bare path).chars ≠ [] := by
  intro hbare
  rw [← piecesOf_bare, hbare] at hpieces
  simp [piecesOf, Text.split] at hpieces

include hname hat

/-- What is done to make a directory under a name in a directory. -/
theorem makeDir_eq {dir : Node} (hdir : d.top.at? names = some dir) : d.makeDir path =
    (spelling (bare path)).bind fun _ => (entering dir name).bind fun _ =>
      if (d.top.at? (names ++ [name])).isSome then .error .exists
      else if dir.mayWrite then .ok (d.putAt names name (some (.dir [] 0o755)))
      else .error .access := by
  have hbare := bare_ne_nil hpieces
  obtain ⟨trail, hon, -, rfl, hfollow⟩ := follow_last hat hname
  obtain rfl : d.here trail = dir := Option.some.inj (hon.at_names.symm.trans hdir)
  have hchild : d.top.at? (Trail.names trail ++ [name]) = (d.here trail).child? name := by
    rw [Node.at_concat, hon.at_names]
    rfl
  unfold makeDir
  rw [if_neg (by simp [hbare]), resolve_eq (isRooted_bare rooted hbare) (endsInSlash_bare path),
    piecesOf_bare, hpieces, hfollow false nofun, hchild]
  cases spelling (bare path) with
  | error e => rfl
  | ok _ =>
    cases entering (d.here trail) name with
    | error e => rfl
    | ok _ => cases (d.here trail).child? name <;> rfl

/-- In a directory a directory is made if the name is free, and nothing is made otherwise. -/
theorem makeDirs_cases (hnone : d.dirAt (ps ++ [name]) = none) :
    (∃ e, d.makeDirs path = (.error e, d)) ∨
      ∃ dir, d.top.at? names = some dir ∧ entering dir name = .ok () ∧
        d.top.at? (names ++ [name]) = none ∧
        d.makeDirs path = (.ok (), d.putAt names name (some (.dir [] 0o755))) := by
  have hbare := bare_ne_nil hpieces
  -- no directory is there, so an error stays an error
  have hisDir : d.isDir path = false := by
    by_contra hisDir
    rw [Bool.not_eq_false] at hisDir
    obtain ⟨-, names', hat'⟩ := (isDir_iff rooted).mp hisDir
    rw [hpieces, hnone] at hat'
    cases hat'
  have herror {e : Errno} (hmake : d.makeDir path = .error e) (he : e ≠ .noEntry) :
      d.makeDirs path = (.error e, d) := by
    rw [makeDirs_of_makeDir rooted (by simp [hmake, he]), hmake, unlessThere, hisDir]
    rfl
  obtain ⟨trail, -, hon, -, rfl⟩ := dirAt_eq_some_iff.mp hat
  have hmake := makeDir_eq rooted hpieces hname hat hon.at_names
  rcases spelling_cases hbare with hspelled | hspelled | hspelled <;> rw [hspelled] at hmake
  · cases hentering : entering (d.here trail) name with
    | error e =>
      rw [hentering] at hmake
      exact .inl ⟨e, herror hmake (entering_ne_noEntry hentering)⟩
    | ok _ =>
      rw [hentering] at hmake
      cases hchild : d.top.at? (Trail.names trail ++ [name]) with
      | some c => exact .inl ⟨.exists, herror (by rw [hmake, hchild]; rfl) (by simp)⟩
      | none =>
        by_cases hwrite : (d.here trail).mayWrite = true
        · have hmade : d.makeDir path =
              .ok (d.putAt (Trail.names trail) name (some (.dir [] 0o755))) := by
            simp [hmake, hchild, hwrite, Except.bind]
          refine .inr ⟨_, hon.at_names, hentering, rfl, ?_⟩
          rw [makeDirs_of_makeDir rooted (by simp [hmade]), hmade, unlessThere]
        · exact .inl ⟨.access, herror (by simp [hmake, hchild, hwrite, Except.bind]) (by simp)⟩
  · exact .inl ⟨_, herror hmake (by simp)⟩
  · exact .inl ⟨_, herror hmake (by simp)⟩

end Make

end MakeDirs

/-! ## The directory of a path -/

/-- A walk over pieces that stay where one is goes nowhere else. -/
theorem walk_dots {d : Disk} {dots : List Name} (h : ∀ e ∈ dots, e = ['.']) (trail : Trail) :
    (∃ e, d.walk true trail dots = .error e) ∨
      d.walk true trail dots = .ok (.place (.node trail (d.here trail))) := by
  induction dots with
  | nil => exact .inr rfl
  | cons e rest ih =>
    obtain ⟨rfl, hrest⟩ := List.forall_mem_cons.mp h
    rw [walk]
    split
    · exact .inl ⟨_, rfl⟩
    · split
      · exact .inl ⟨_, rfl⟩
      · rw [if_pos rfl]
        exact ih hrest

/-- So where such pieces end at a directory, one was there in front of them. -/
theorem dirAt_of_dots {d : Disk} {ps dots names : List Name} (h : ∀ e ∈ dots, e = ['.'])
    (hat : d.dirAt (ps ++ dots) = some names) : d.dirAt ps = some names := by
  by_cases hdots : dots = []
  · rwa [hdots, List.append_nil] at hat
  · obtain ⟨trail, hfollow, hon, hdir, rfl⟩ := dirAt_eq_some_iff.mp hat
    have happend := follow_append d true hdots 40 [] ps
    split at happend
    · rw [happend] at hfollow
      cases hfollow
    · rw [happend] at hfollow
      cases hfollow
    · next t n hfront =>
      obtain ⟨rfl, left, hleft⟩ := happend
      rw [hleft, follow] at hfollow
      rcases walk_dots h t with ⟨e, he⟩ | hstay
      · rw [he] at hfollow
        cases hfollow
      · rw [hstay] at hfollow
        cases hfollow
        exact dirAt_eq_some_iff.mpr ⟨_, hfront, hon, hdir, rfl⟩

/-- Behind the first separator of a path that ends in a name, the name is the last piece. -/
theorem EndsIn.exists_pieces {path : Path} {ps : List Name} {name : Name} (h : EndsIn path ps name) :
    ∃ before, path.pieces = ([], before ++ [name]) ∧
      before.filter (fun piece => piece ≠ []) = ps := by
  obtain ⟨later, hpieces⟩ : ∃ later, path.pieces = ([], later) :=
    ⟨path.pieces.2, Prod.ext (components_of_isRooted h.rooted).1 rfl⟩
  have hfilter : later.filter (fun piece => piece ≠ []) = ps ++ [name] := by
    have heq : piecesOf path.chars = path.allPieces.filter fun piece => piece ≠ [] := rfl
    rw [← h.pieces, heq, allPieces, hpieces]
    simp
  have hchars : path.chars = later.flatMap ('/' :: ·) := by
    have heq := congrArg Path.chars (ofPieces_pieces path)
    rw [hpieces] at heq
    simpa [ofPieces] using heq.symm
  rcases List.eq_nil_or_concat later with rfl | ⟨before, last, rfl⟩
  · simp at hfilter
  · rw [List.concat_eq_append] at hfilter hchars hpieces
    -- no separator stands at the end, so the last piece is not empty
    have hlast : last ≠ [] := by
      rintro rfl
      have hslash := h.slash
      simp [endsInSlash, hchars] at hslash
    rw [List.filter_append, List.filter_cons_of_pos (by simpa using hlast), List.filter_nil]
      at hfilter
    obtain ⟨hps, heq⟩ := List.append_inj' hfilter rfl
    exact ⟨before, by rw [hpieces, (List.cons.inj heq).1], hps⟩

/-- Pieces are trimmed of some at the end that make no component. -/
theorem exists_trimLater (later : List Name) :
    ∃ tail, later = trimLater later ++ tail ∧ ∀ e ∈ tail, isEmptyPiece e = true := by
  refine ⟨(later.reverse.takeWhile isEmptyPiece).reverse, ?_, fun e he => ?_⟩
  · have hsplit := congrArg List.reverse
      (List.takeWhile_append_dropWhile (p := isEmptyPiece) (l := later.reverse))
    rw [List.reverse_append, List.reverse_reverse] at hsplit
    exact hsplit.symm
  · exact List.mem_takeWhile_imp (List.mem_reverse.mp he)

/-- The directory of a path goes from the top over the pieces in front of the last one, trimmed. -/
theorem directoryOf_of_pieces {path : Path} {before : List Name} {name : Name}
    (hpieces : path.pieces = ([], before ++ [name])) (hmakes : isEmptyPiece name = false) :
    path.parent? = some (directoryOf path) ∧ (directoryOf path).isRooted = true ∧
      piecesOf (directoryOf path).chars = (trimLater before).filter fun piece => piece ≠ [] := by
  have hdrop : (before ++ [name]).reverse.dropWhile isEmptyPiece = name :: before.reverse := by
    rw [List.reverse_append, List.reverse_singleton, List.singleton_append,
      List.dropWhile_cons_of_neg (by simp [hmakes])]
  have hparent : path.parent? =
      if (ofTrimmed [] before).chars = [] then some ⟨['/']⟩ else some (ofTrimmed [] before) := by
    rw [parent?, hpieces]
    simp only [hdrop, List.reverse_reverse]
  cases htrim : trimLater before with
  | nil =>
    have hfront : (ofTrimmed [] before).chars = [] := by simp [ofTrimmed, ofPieces, htrim]
    have hdirectory : directoryOf path = ⟨['/']⟩ := by
      rw [directoryOf, hparent, if_pos hfront]
      rfl
    rw [hdirectory]
    exact ⟨by rw [hparent, if_pos hfront], rfl, rfl⟩
  | cons piece rest =>
    have hfront : (ofTrimmed [] before).chars ≠ [] := by simp [ofTrimmed, ofPieces, htrim]
    have hdirectory : directoryOf path = ofTrimmed [] before := by
      rw [directoryOf, hparent, if_neg hfront]
      simp only [if_neg hfront]
    have hfree : ∀ p ∈ piece :: rest, '/' ∉ p := by
      obtain ⟨tail, hbefore, -⟩ := exists_trimLater before
      rw [htrim] at hbefore
      intro p hp
      refine slash_not_mem_of_mem_allPieces (p := path) ?_
      rw [allPieces, hpieces]
      exact List.mem_cons_of_mem _ (List.mem_append_left _
        (by rw [hbefore]; exact List.mem_append_left _ hp))
    have heq : piecesOf (ofTrimmed [] before).chars =
        (ofTrimmed [] before).allPieces.filter fun piece => piece ≠ [] := rfl
    rw [hdirectory]
    refine ⟨by rw [hparent, if_neg hfront], by simp [isRooted, ofTrimmed, ofPieces, htrim], ?_⟩
    rw [heq, ofTrimmed, htrim, allPieces, pieces_ofPieces (by simp) hfree]
    simp

/-- The directory of a path is what stands in front of its last name. -/
theorem EndsIn.parent {path : Path} {ps : List Name} {name : Name} (h : EndsIn path ps name)
    (hmakes : isEmptyPiece name = false) : path.parent? = some (Disk.directoryOf path) := by
  obtain ⟨before, hpieces, -⟩ := h.exists_pieces
  exact (directoryOf_of_pieces hpieces hmakes).1

/-- The directory of a path is reached over the pieces in front of the last one. -/
theorem EndsIn.directoryOf {path : Path} {ps : List Name} {name : Name}
    (h : EndsIn path ps name) (hmakes : isEmptyPiece name = false) :
    (directoryOf path).isRooted = true ∧ ∃ dots, (∀ e ∈ dots, e = ['.']) ∧
      ps = piecesOf (Disk.directoryOf path).chars ++ dots := by
  obtain ⟨before, hpieces, rfl⟩ := h.exists_pieces
  obtain ⟨-, hrooted, hdirectory⟩ := directoryOf_of_pieces hpieces hmakes
  obtain ⟨tail, hbefore, htail⟩ := exists_trimLater before
  refine ⟨hrooted, tail.filter (fun piece => piece ≠ []), fun e he => ?_, ?_⟩
  · -- a piece that makes no component and is not empty is a dot
    obtain ⟨he, hne⟩ := List.mem_filter.mp he
    have hempty := htail e he
    simp only [isEmptyPiece, Bool.or_eq_true, decide_eq_true_eq] at hempty
    exact hempty.resolve_left (by simpa using hne)
  · rw [hdirectory, ← List.filter_append, ← hbefore]

/-- These are all the pieces in front, if the last of them is a name. -/
theorem EndsIn.directoryOf_eq {path : Path} {ps : List Name} {name last : Name}
    (h : EndsIn path (ps ++ [last]) name) (hmakes : isEmptyPiece name = false)
    (hlast : isName last = true) :
    (Disk.directoryOf path).isRooted = true ∧
      piecesOf (Disk.directoryOf path).chars = ps ++ [last] := by
  obtain ⟨hrooted, dots, hdots, hps⟩ := h.directoryOf hmakes
  refine ⟨hrooted, ?_⟩
  rcases List.eq_nil_or_concat dots with rfl | ⟨front, e, rfl⟩
  · rw [hps, List.append_nil]
  · rw [List.concat_eq_append, ← List.append_assoc] at hps
    obtain ⟨-, heq⟩ := List.append_inj' hps rfl
    rw [(List.cons.inj heq).1, hdots e (by simp)] at hlast
    cases hlast

/-! ## Writing and deleting -/

section Change

variable {d : Disk} {path : Path} {ps names : List Name} {name : Name}

/-- Nothing stands in the way of a file under a name in a directory. -/
structure MayPlace (d : Disk) (path : Path) (names : List Name) (name : Name) : Prop where
  spelled : spelling path = .ok ()
  isName : isName name = true
  room : ∃ dir, d.top.at? names = some dir ∧ dir.mayWrite = true ∧ entering dir name = .ok ()
  free : ∀ c, d.top.at? (names ++ [name]) = some c → c.isDir = false

/-- In front of the last piece there is a directory. -/
theorem checkFront_of_dirAt (h : EndsIn path ps name) (hat : d.dirAt ps = some names) :
    d.checkFront path = .ok () := by
  obtain ⟨trail, hfollow, -, hdir, -⟩ := dirAt_eq_some_iff.mp hat
  rw [checkFront, h.pieces, List.dropLast_concat]
  simp [h.rooted, hfollow, hdir]

/-- What is wrong with putting a file under a name in a directory, where there is one already or
not. -/
def placing (path : Path) (name : Name) (dir : Node) (isTaken : Bool) : Except Errno Unit :=
  if holdsNul path.chars then .error .invalid
  else if !isName name then .error .busy
  else (spelling path).bind fun _ => (entering dir name).bind fun _ =>
    if isTaken then .error .isDirectory
    else if dir.mayWrite then .ok ()
    else .error .access

/-- Nothing is wrong with it exactly if nothing stands in the way. -/
theorem placing_eq_ok_iff {dir : Node} (hdir : d.top.at? names = some dir) :
    placing path name dir ((d.top.at? (names ++ [name])).any Node.isDir) = .ok () ↔
      d.MayPlace path names name := by
  constructor
  · intro h
    unfold placing at h
    split at h
    · cases h
    split at h
    · cases h
    next hname =>
    cases hspelled : spelling path with
    | error e => rw [hspelled] at h; cases h
    | ok _ =>
    cases hentering : entering dir name with
    | error e => rw [hspelled, hentering] at h; cases h
    | ok _ =>
    rw [hspelled, hentering] at h
    simp only [Except.bind] at h
    split at h
    · cases h
    split at h
    · next hfree hwrite =>
      refine ⟨hspelled, by simpa using hname, ⟨dir, hdir, hwrite, hentering⟩, fun c hc => ?_⟩
      simpa [hc] using hfree
    · cases h
  · rintro ⟨hspelled, hname, ⟨dir', hdir', hwrite, hentering⟩, hfree⟩
    obtain rfl : dir = dir' := Option.some.inj (hdir.symm.trans hdir')
    have hnul : holdsNul path.chars = false := by
      by_contra hnul
      rw [Bool.not_eq_false] at hnul
      rw [spelling, if_pos hnul] at hspelled
      cases hspelled
    have hnone : (d.top.at? (names ++ [name])).any Node.isDir = false := by
      cases hc : d.top.at? (names ++ [name]) with
      | none => rfl
      | some c => exact hfree c hc
    simp [placing, hnul, hname, hspelled, hentering, hnone, hwrite, Except.bind]

/-- A file is put in its place unless something is wrong with that. -/
theorem place_eq (h : EndsIn path ps name) (hat : d.dirAt ps = some names) {dir : Node}
    (hdir : d.top.at? names = some dir) (bytes : List UInt8) (mode : Nat) :
    d.place path bytes mode =
      (placing path name dir ((d.top.at? (names ++ [name])).any Node.isDir)).map fun _ =>
        d.putAt names name (some (.file bytes mode)) := by
  have hends : endsInName path = isName name := by
    rw [endsInName, h.pieces, List.getLast?_concat]
    rfl
  unfold place placing
  simp only [checkFront_of_dirAt h hat, hends, h.slash, Bool.false_eq_true, if_false]
  split
  · rfl
  split
  · rfl
  next hname =>
  obtain ⟨trail, hon, -, rfl, hfollow⟩ := follow_last hat (by simpa using hname)
  obtain rfl : d.here trail = dir := Option.some.inj (hon.at_names.symm.trans hdir)
  have hchild : d.top.at? (Trail.names trail ++ [name]) = (d.here trail).child? name := by
    rw [Node.at_concat, hon.at_names]
    rfl
  -- what is asked of the directory when something may be put there
  have hchange (node : Node) : d.changeEntry trail name (some node) =
      if (d.here trail).mayWrite then .ok (d.putAt (Trail.names trail) name (some node))
      else .error .access := rfl
  rw [resolve_eq h.rooted h.slash, h.pieces, hfollow false nofun, hchild]
  cases spelling path with
  | error e => rfl
  | ok _ =>
    cases entering (d.here trail) name with
    | error e => rfl
    | ok _ =>
      cases hwrite : (d.here trail).mayWrite <;>
        rcases (d.here trail).child? name with _ | ⟨other, bits⟩ | ⟨entries, bits⟩ | target <;>
        simp [Except.bind, Except.map, hchange, hwrite, Node.isDir]

/-- What is wrong with writing a file under a name in a directory, where there is one already or
not. -/
def writing (path : Path) (name : Name) (dir : Node) (isTaken : Bool) : Except FsError Unit :=
  match spelling (directoryOf path) with
  | .error _ => .error (.ofIo (directoryOf path) (taken (directoryOf path)).toIo)
  | .ok _ =>
    if dir.mayWrite && dir.mayEnter then
      (placing path name dir isTaken).mapError fun e => .ofIo path e.toIo
    else .error (.ofIo (directoryOf path) Errno.access.toIo)

/-- Permission bits decide alone what is wrong with it. -/
theorem writing_congr {dir dir' : Node} (h : dir'.emptied = dir.emptied) (path : Path) (name : Name)
    (isTaken : Bool) : writing path name dir' isTaken = writing path name dir isTaken := by
  have hmode : dir'.mode = dir.mode := by rw [← Node.mode_emptied, h, Node.mode_emptied]
  have hwrite : dir'.mayWrite = dir.mayWrite := by rw [Node.mayWrite, Node.mayWrite, hmode]
  have henter : dir'.mayEnter = dir.mayEnter := by rw [Node.mayEnter, Node.mayEnter, hmode]
  rw [writing, writing, placing, placing, entering_congr h, hwrite, henter]

/-- Nothing is wrong with it exactly if nothing stands in the way. -/
theorem writing_eq_ok_iff {dir : Node} (hdir : d.top.at? names = some dir) :
    writing path name dir ((d.top.at? (names ++ [name])).any Node.isDir) = .ok () ↔
      d.MayPlace path names name ∧ spelling (directoryOf path) = .ok () := by
  rw [← placing_eq_ok_iff hdir]
  unfold writing
  cases spelling (directoryOf path) with
  | error e => simp
  | ok _ =>
    cases hplacing : placing path name dir ((d.top.at? (names ++ [name])).any Node.isDir) with
    | error e => by_cases hroom : (dir.mayWrite && dir.mayEnter) = true <;> simp [hroom, Except.mapError]
    | ok _ =>
      -- a directory in which a file may be put may be written to
      obtain ⟨dir', hdir', hwrite, hentering⟩ := ((placing_eq_ok_iff hdir).mp hplacing).room
      obtain rfl : dir = dir' := Option.some.inj (hdir.symm.trans hdir')
      have henter : dir.mayEnter = true := by
        by_contra henter
        rw [Bool.not_eq_true] at henter
        rw [entering, henter] at hentering
        cases hentering
      simp [hwrite, henter, Except.mapError]

/-- A text is written into a file in its place, and the disk is left alone if something is wrong with
that. -/
theorem writeText_eq (h : EndsIn path ps name) (hmakes : isEmptyPiece name = false)
    (hat : d.dirAt ps = some names) {dir : Node} (hdir : d.top.at? names = some dir) (text : String) :
    d.writeText path text =
      match writing path name dir ((d.top.at? (names ++ [name])).any Node.isDir) with
      | .error e => (.error e, d)
      | .ok _ => (.ok (),
          d.putAt names name (some (.file (Text.bytes text.toList) (d.modeFor path)))) := by
  obtain ⟨hrooted, dots, hdots, hps⟩ := h.directoryOf hmakes
  have hatDir : d.dirAt (piecesOf (directoryOf path).chars) = some names :=
    dirAt_of_dots hdots (by rwa [← hps])
  obtain ⟨dir', hdir', -, hstat⟩ := stat_of_dirAt hrooted hatDir
  obtain rfl : dir = dir' := Option.some.inj (hdir.symm.trans hdir')
  unfold writeText writing
  simp only [makeDirs_of_dirAt hrooted hatDir]
  cases hspelled : spelling (directoryOf path) with
  | error e => rfl
  | ok _ =>
    rw [hspelled] at hstat
    simp only [checkRoom, hstat, Except.map]
    by_cases hroom : (dir.mayWrite && dir.mayEnter) = true
    · simp only [if_pos hroom]
      rw [place_eq h hat hdir]
      cases placing path name dir ((d.top.at? (names ++ [name])).any Node.isDir) <;> rfl
    · simp only [if_neg hroom]

/-- Where the pieces in front lead to no directory and none is made, nothing is written. -/
theorem writeText_of_dirAt_none (h : EndsIn path ps name) (hat : d.dirAt ps = none)
    (hmake : (d.makeDirs (directoryOf path)).2 = d) (text : String) :
    (d.writeText path text).2 = d := by
  have hfront : ∃ e, d.checkFront path = .error e := by
    rw [checkFront, h.pieces, List.dropLast_concat]
    simp only [h.rooted, if_true]
    rcases hfollow : d.follow true 40 [] ps with e | ⟨trail, node⟩ | ⟨trail, missing⟩
    · exact ⟨e, rfl⟩
    · refine ⟨.notDirectory, ?_⟩
      have hdir : node.isDir = false := by
        by_contra hdir
        rw [Bool.not_eq_false] at hdir
        simp [dirAt, hfollow, hdir] at hat
      simp [hdir]
    · exact ⟨.noEntry, rfl⟩
  obtain ⟨e, he⟩ := hfront
  unfold writeText
  rcases hmade : d.makeDirs (directoryOf path) with ⟨e' | _, d'⟩ <;> rw [hmade] at hmake <;>
    obtain rfl : d' = d := hmake <;> simp only [hmade]
  split
  · rfl
  · rw [place, he]
    rfl

/-- A text is written into a file in its place, and the disk is left alone if something stands in
the way. -/
theorem writeText_cases (h : EndsIn path ps name) (hmakes : isEmptyPiece name = false)
    (hat : d.dirAt ps = some names) (text : String) :
    (d.MayPlace path names name ∧ spelling (directoryOf path) = .ok () ∧
        d.writeText path text = (.ok (),
          d.putAt names name (some (.file (Text.bytes text.toList) (d.modeFor path))))) ∨
      (¬(d.MayPlace path names name ∧ spelling (directoryOf path) = .ok ()) ∧
        ∃ e, d.writeText path text = (.error e, d)) := by
  obtain ⟨trail, -, hon, -, rfl⟩ := dirAt_eq_some_iff.mp hat
  have hwrite := writeText_eq h hmakes hat hon.at_names text
  have hmay : writing path name (d.here trail)
      ((d.top.at? (Trail.names trail ++ [name])).any Node.isDir) = .ok () ↔
        d.MayPlace path (Trail.names trail) name ∧ spelling (directoryOf path) = .ok () :=
    writing_eq_ok_iff hon.at_names
  cases hwriting : writing path name (d.here trail)
      ((d.top.at? (Trail.names trail ++ [name])).any Node.isDir) with
  | error e =>
    rw [hwriting] at hwrite hmay
    exact .inr ⟨fun hmay' => absurd (hmay.mpr hmay') (by simp), e, hwrite⟩
  | ok _ =>
    rw [hwriting] at hwrite hmay
    obtain ⟨hplace, hspelled⟩ := hmay.mp rfl
    exact .inl ⟨hplace, hspelled, hwrite⟩

/-- When a text is written, and what the disk is then. -/
theorem writeText_eq_ok_iff (h : EndsIn path ps name) (hmakes : isEmptyPiece name = false)
    (hat : d.dirAt ps = some names) {text : String} {d' : Disk} :
    d.writeText path text = (.ok (), d') ↔
      (d.MayPlace path names name ∧ spelling (directoryOf path) = .ok ()) ∧
        d' = d.putAt names name (some (.file (Text.bytes text.toList) (d.modeFor path))) := by
  rcases writeText_cases h hmakes hat text with ⟨hplace, hspelled, hwrite⟩ | ⟨hnot, e, hwrite⟩
  · rw [hwrite]
    constructor
    · intro h
      exact ⟨⟨hplace, hspelled⟩, (Prod.mk.inj h).2.symm⟩
    · rintro ⟨-, rfl⟩
      rfl
  · rw [hwrite]
    constructor
    · intro h
      cases (Prod.mk.inj h).1
    · rintro ⟨hmay, -⟩
      exact absurd hmay hnot

/-- A path without separators at its end is bare. -/
theorem bare_of_not_slash (slash : endsInSlash path.chars = false) : bare path = path := by
  obtain ⟨slashes, hall, hchars⟩ := exists_slashes path
  rcases List.eq_nil_or_concat slashes with rfl | ⟨front, c, rfl⟩
  · rw [List.append_nil] at hchars
    exact congrArg Path.mk hchars.symm
  · obtain rfl : c = '/' := hall c (by simp)
    rw [hchars, List.concat_eq_append, endsInSlash] at slash
    simp [← List.append_assoc] at slash

/-- What is done to delete a path that ends in a name. -/
theorem unlink_eq (h : EndsIn path ps name) (d : Disk) : d.unlink path =
    (spelling path).bind fun _ => match d.follow false 40 [] (ps ++ [name]) with
      | .error e => .error e
      | .ok (.missing _ _) => .error .noEntry
      | .ok (.node ((name, _) :: outer) node) =>
        if node.isDir && (d.here outer).mayWrite then .error .isDirectory
        else d.changeEntry outer name none
      | .ok (.node [] _) => .error .isDirectory := by
  unfold unlink
  simp only [h.slash, Bool.false_and, Bool.false_eq_true, if_false, bare_of_not_slash h.slash,
    resolve_eq h.rooted h.slash, h.pieces]
  cases spelling path with
  | error e => rfl
  | ok _ =>
    simp only [Except.bind]
    rcases d.follow false 40 [] (ps ++ [name]) with e | ⟨_ | ⟨e, outer⟩, node⟩ | ⟨trail, name⟩ <;> rfl

/-- The pieces `.` and `..` lead from a directory to a directory. -/
theorem follow_dots (hat : d.dirAt ps = some names) (hname : isName name = false) :
    (∃ e, d.follow false 40 [] (ps ++ [name]) = .error e) ∨
      ∃ trail, (d.here trail).isDir = true ∧
        d.follow false 40 [] (ps ++ [name]) = .ok (.node trail (d.here trail)) := by
  obtain ⟨trail, hfollow, hon, hdir, -⟩ := dirAt_eq_some_iff.mp hat
  have happend := follow_append d false (List.cons_ne_nil name []) 40 [] ps
  rw [hfollow] at happend
  obtain ⟨-, left, hleft⟩ := happend
  have hdots : name = ['.'] ∨ name = ['.', '.'] := by
    simpa [isName, or_iff_not_imp_left] using hname
  rw [hleft]
  by_cases henter : (d.here trail).mayEnter = true
  · right
    rcases hdots with rfl | rfl
    · exact ⟨trail, hdir, by simp [follow, walk, hdir, henter]⟩
    · exact ⟨trail.tail, hon.isDir_tail hdir, by simp [follow, walk, hdir, henter]⟩
  · exact .inl ⟨.access, by simp [follow, walk, hdir, henter]⟩

/-- To delete fails, or takes away an entry that is no directory. -/
theorem unlink_cases (h : EndsIn path ps name) (d : Disk) : (∃ e, d.unlink path = .error e) ∨
    (isName name = true ∧ ∃ names, d.dirAt ps = some names ∧
      (∀ c, d.top.at? (names ++ [name]) = some c → c.isDir = false) ∧
      d.unlink path = .ok (d.putAt names name none)) := by
  rw [unlink_eq h]
  cases spelling path with
  | error e => exact .inl ⟨e, rfl⟩
  | ok _ =>
    simp only [Except.bind]
    cases hat : d.dirAt ps with
    | none =>
      obtain ⟨e, he⟩ := follow_of_dirAt_none hat (List.cons_ne_nil name []) false
      exact .inl ⟨e, by rw [he]⟩
    | some names =>
      by_cases hname : isName name = true
      · obtain ⟨trail, hon, hdir, rfl, hfollow⟩ := follow_last hat hname
        rw [hfollow false nofun]
        cases entering (d.here trail) name with
        | error e => exact .inl ⟨e, rfl⟩
        | ok _ =>
          simp only [Except.map]
          cases hchild : (d.here trail).child? name with
          | none => exact .inl ⟨_, rfl⟩
          | some node =>
            simp only [changeEntry]
            by_cases hwrite : (d.here trail).mayWrite = true
            · by_cases hisDir : node.isDir = true
              · exact .inl ⟨.isDirectory, by simp [hisDir, hwrite]⟩
              · refine .inr ⟨hname, _, rfl, fun c hc => ?_, by simp [hisDir, hwrite, setAt, putAt]⟩
                rw [Node.at_concat, hon.at_names] at hc
                obtain rfl : node = c := Option.some.inj (hchild.symm.trans hc)
                simpa using hisDir
            · exact .inl ⟨.access, by simp [hwrite]⟩
      · -- a directory is not deleted
        rcases follow_dots hat (by simpa using hname) with ⟨e, he⟩ | ⟨trail, hdir, hfollow⟩
        · exact .inl ⟨e, by rw [he]⟩
        · rw [hfollow]
          rcases trail with _ | ⟨⟨last, node⟩, outer⟩
          · exact .inl ⟨_, rfl⟩
          · simp only [hdir, Bool.true_and]
            by_cases hwrite : (d.here outer).mayWrite = true
            · exact .inl ⟨.isDirectory, by rw [if_pos hwrite]⟩
            · exact .inl ⟨.access, by rw [if_neg hwrite, changeEntry, if_neg hwrite]⟩

end Change

/-- The permission bits of a file that is written are those it gets when it is written again. -/
theorem modeFor_idem {d d' : Disk} {path : Path} {bytes : List UInt8}
    (h : d'.stat path = .ok (.file bytes (d.modeFor path))) : d'.modeFor path = d.modeFor path := by
  -- the usual bits are among those with which a file is made, and the mask is below them
  have hbits : ∀ q < 64, ∀ r < 64, ((64 * q + r - (64 * q + r &&& umask)) &&& 0o7777) -
      ((64 * q + r - (64 * q + r &&& umask)) &&& umask) =
        64 * q + r - (64 * q + r &&& umask) := by decide +kernel
  rw [modeFor, h]
  simp only [Node.mode]
  unfold modeFor
  split
  · next node _ =>
    have hmask : node.mode &&& umask = node.mode &&& 0o7777 &&& umask := by
      rw [Nat.and_assoc]
      rfl
    rw [hmask]
    have hlt : node.mode &&& 0o7777 < 2 ^ 12 := Nat.and_lt_two_pow _ (by decide)
    generalize node.mode &&& 0o7777 = k at hlt ⊢
    have hk := hbits (k / 64) (by omega) (k % 64) (by omega)
    rwa [Nat.div_add_mod] at hk
  · rfl

end ArtifactSync.Disk
