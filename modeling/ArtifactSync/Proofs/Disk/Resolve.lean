import ArtifactSync.Proofs.Discovery

/-!
# What a path below a directory leads to

A step that succeeds stays, goes back, goes down to an entry, or finds a link or nothing
(`step_eq_ok_iff`). Walking over two rows of pieces is walking over the first and then, from where
that led, over the second (`follow_append`). So a path below the root of a tree leads to what the
tree has under its names, or nowhere: where the tree has a file, it never leads to a directory
(`isDir_join`).
-/

namespace ArtifactSync.Disk

open Path

/-- What one piece of a path leads to, links followed. -/
inductive Step where
  | go (trail : Trail)
  | link (target : List Char)
  | missing

/-- The step of a piece from the end of a trail. -/
def step (d : Disk) (trail : Trail) (piece : Name) : Except Errno Step :=
  if !(d.here trail).isDir then .error .notDirectory
  else if !(d.here trail).mayEnter then .error .access
  else if piece = ['.'] then .ok (.go trail)
  else if piece = ['.', '.'] then .ok (.go trail.tail)
  else if (Text.bytes piece).length > maxName then .error .nameTooLong
  else match (d.here trail).child? piece with
    | none => .ok .missing
    | some (.link target) => .ok (.link target)
    | some child => .ok (.go ((piece, child) :: trail))

/-- What a step that succeeds has come to, in a directory in which names may be looked for. -/
inductive Stepped (d : Disk) (trail : Trail) (piece : Name) : Step → Prop
  | stay (dot : piece = ['.']) : Stepped d trail piece (.go trail)
  | back (dots : piece = ['.', '.']) : Stepped d trail piece (.go trail.tail)
  | down (child : Node) (ordinary : isName piece = true)
      (short : (Text.bytes piece).length ≤ maxName)
      (there : (d.here trail).child? piece = some child) (link : ∀ target, child ≠ .link target) :
      Stepped d trail piece (.go ((piece, child) :: trail))
  | link (target : List Char) (ordinary : isName piece = true)
      (short : (Text.bytes piece).length ≤ maxName)
      (there : (d.here trail).child? piece = some (.link target)) :
      Stepped d trail piece (.link target)
  | missing (ordinary : isName piece = true) (short : (Text.bytes piece).length ≤ maxName)
      (free : (d.here trail).child? piece = none) : Stepped d trail piece .missing

/-- When a step succeeds. -/
theorem step_eq_ok_iff {d : Disk} {trail : Trail} {piece : Name} {s : Step} :
    d.step trail piece = .ok s ↔
      (d.here trail).isDir = true ∧ (d.here trail).mayEnter = true ∧ d.Stepped trail piece s := by
  constructor
  · intro h
    unfold step at h
    split at h
    · cases h
    split at h
    · cases h
    next hdir henter =>
    refine ⟨by simpa using hdir, by simpa using henter, ?_⟩
    split at h
    · next hdot =>
      cases h
      exact .stay hdot
    split at h
    · next hdots =>
      cases h
      exact .back hdots
    split at h
    · cases h
    next hdot hdots hlong =>
    have hname : isName piece = true := by simp [isName, hdot, hdots]
    have hshort : (Text.bytes piece).length ≤ maxName := Nat.le_of_not_lt hlong
    split at h
    · next hfree =>
      cases h
      exact .missing hname hshort hfree
    · next target hthere =>
      cases h
      exact .link target hname hshort hthere
    · next child hlink hthere =>
      cases h
      exact .down child hname hshort hthere hlink
  · rintro ⟨hdir, henter, h⟩
    rw [step, hdir, henter]
    cases h with
    | stay dot => simp [dot]
    | back dots => simp [dots]
    | down child ordinary short there link =>
      have hdots : piece ≠ ['.'] ∧ piece ≠ ['.', '.'] := by simpa [isName] using ordinary
      rw [if_neg hdots.1, if_neg hdots.2, if_neg (Nat.not_lt.mpr short), there]
      cases child with
      | file bytes mode => rfl
      | dir entries mode => rfl
      | link target => exact absurd rfl (link target)
    | link target ordinary short there =>
      have hdots : piece ≠ ['.'] ∧ piece ≠ ['.', '.'] := by simpa [isName] using ordinary
      rw [if_neg hdots.1, if_neg hdots.2, if_neg (Nat.not_lt.mpr short), there]
      rfl
    | missing ordinary short free =>
      have hdots : piece ≠ ['.'] ∧ piece ≠ ['.', '.'] := by simpa [isName] using ordinary
      rw [if_neg hdots.1, if_neg hdots.2, if_neg (Nat.not_lt.mpr short), free]
      rfl

/-- A walk goes from step to step. -/
theorem walk_cons (d : Disk) (followLast : Bool) (trail : Trail) (piece : Name)
    (rest : List Name) : d.walk followLast trail (piece :: rest) = match d.step trail piece with
      | .error e => .error e
      | .ok (.go next) => d.walk followLast next rest
      | .ok (.link target) =>
        if rest = [] ∧ !followLast then
          .ok (.place (.node ((piece, .link target) :: trail) (.link target)))
        else .ok (.atLink trail target rest)
      | .ok .missing =>
        if rest = [] then .ok (.place (.missing trail piece)) else .error .noEntry := by
  rw [walk, step]
  split
  · rfl
  · split
    · rfl
    · split
      · rfl
      · split
        · rfl
        · split
          · rfl
          · rcases (d.here trail).child? piece with _ | ⟨bytes, mode⟩ | ⟨entries, mode⟩ | target
            · rfl
            · rfl
            · rfl
            · rfl

/-- A walk ends at what stands at the end of its trail. -/
theorem node_of_walk {d : Disk} {trail trail' : Trail} {ps : List Name} {node : Node}
    (h : d.walk true trail ps = .ok (.place (.node trail' node))) : node = d.here trail' := by
  induction ps generalizing trail with
  | nil =>
    cases h
    rfl
  | cons piece rest ih =>
    rw [walk_cons] at h
    split at h
    · cases h
    · exact ih h
    · simp at h
    · split at h <;> cases h

section Append

variable (d : Disk) (followLast : Bool) {ps qs : List Name} (hqs : qs ≠ [])
include hqs

/-- A walk over more pieces goes on from the place where it would end, and waits in front of the
same link. -/
theorem walk_append (trail : Trail) : d.walk followLast trail (ps ++ qs) =
    match d.walk true trail ps with
    | .error e => .error e
    | .ok (.place (.node trail' _)) => d.walk followLast trail' qs
    | .ok (.place (.missing _ _)) => .error .noEntry
    | .ok (.atLink trail' target rest) => .ok (.atLink trail' target (rest ++ qs)) := by
  induction ps generalizing trail with
  | nil => rfl
  | cons piece rest ih =>
    have hmore : rest ++ qs ≠ [] := by simp [hqs]
    rw [List.cons_append, walk_cons, walk_cons]
    rcases d.step trail piece with e | next | target | _
    · rfl
    · exact ih next
    · simp [hqs]
    · simp only [if_neg hmore]
      split
      · next h => split at h <;> cases h; rfl
      · next h => split at h <;> cases h
      · rfl
      · next h => split at h <;> cases h

/-- Pieces behind others are walked over from where the others lead, links followed. Where these lead
nowhere, nothing more helps. -/
theorem follow_append (links : Nat) (trail : Trail) (ps : List Name) :
    match d.follow true links trail ps with
    | .error e => d.follow followLast links trail (ps ++ qs) = .error e
    | .ok (.missing _ _) => d.follow followLast links trail (ps ++ qs) = .error .noEntry
    | .ok (.node trail' node) => node = d.here trail' ∧
        ∃ left, d.follow followLast links trail (ps ++ qs) = d.follow followLast left trail' qs := by
  -- on the links that may still be followed, since each one puts other pieces in front
  rcases hwalk : d.walk true trail ps with e | ((⟨t, n⟩ | ⟨t, name⟩) | ⟨t, target, rest⟩)
  · rw [follow, hwalk]
    simp only
    rw [follow, walk_append d followLast hqs, hwalk]
  · rw [follow, hwalk]
    exact ⟨node_of_walk hwalk, links, by rw [follow, walk_append d followLast hqs, hwalk, follow]⟩
  · rw [follow, hwalk]
    simp only
    rw [follow, walk_append d followLast hqs, hwalk]
  · cases links with
    | zero =>
      rw [follow, hwalk]
      simp only
      rw [follow, walk_append d followLast hqs, hwalk]
    | succ links =>
      have hmore : rest ++ qs ≠ [] := by simp [hqs]
      have happend : d.follow followLast (links + 1) trail (ps ++ qs) =
          d.follow followLast links (if target.head? = some '/' then [] else t)
            ((piecesOf target ++ rest) ++ qs) := by
        rw [follow, walk_append d followLast hqs, hwalk, List.append_assoc]
        simp only [hmore, decide_false, Bool.false_and, Bool.or_false, Bool.false_eq_true, if_false]
        split
        · next h => exact h.symm
        · rfl
      have hgo := follow_append links (if target.head? = some '/' then [] else t)
        (piecesOf target ++ rest)
      rw [happend, follow, hwalk]
      simp only [Bool.true_or]
      generalize (if target.head? = some '/' then [] else t) = start at hgo ⊢
      generalize d.follow true links start (piecesOf target ++ rest) = answer at hgo ⊢
      rcases answer with e | ⟨t', n⟩ | ⟨t', name⟩
      · exact hgo
      · obtain ⟨rfl, left, hleft⟩ := hgo
        by_cases hdir : (decide (rest = []) && endsInSlash target && !(d.here t').isDir) = true
        · -- what the link leads to would have to be a directory, so nothing is below it
          have hnone : (d.here t').isDir = false := by
            rw [Bool.and_eq_true, Bool.not_eq_true'] at hdir
            exact hdir.2
          simp only [hdir, if_true]
          obtain ⟨q, later, rfl⟩ := List.exists_cons_of_ne_nil hqs
          rw [hleft, follow, walk, hnone]
          rfl
        · simp only [hdir]
          exact ⟨rfl, left, hleft⟩
      · exact hgo
termination_by links

end Append

section Files

variable {d : Disk} {node : Node} {names : List Name}

/-- The entry under the name of one of several entries with names of their own. -/
theorem find_of_mem {entries : List (Name × Node)} {name : Name} {child : Node}
    (distinct : entries.Pairwise fun a b => a.1 ≠ b.1) (h : (name, child) ∈ entries) :
    entries.find? (fun e => e.1 = name) = some (name, child) := by
  induction entries with
  | nil => cases h
  | cons e rest ih =>
    obtain ⟨hfirst, hrest⟩ := List.pairwise_cons.mp distinct
    rcases List.mem_cons.mp h with rfl | h
    · simp
    · rw [List.find?_cons_of_neg (by simpa using hfirst _ h)]
      exact ih hrest h

/-- A step into an entry of a proper directory that is no link. -/
theorem step_entry {entries : List (Name × Node)} {mode : Nat} {name : Name} {child : Node}
    {trail : Trail} (hhere : d.here trail = .dir entries mode)
    (proper : (Node.dir entries mode).Proper) (h : (name, child) ∈ entries)
    (hlink : ∀ target, child ≠ .link target) :
    (∃ e, d.step trail name = .error e) ∨
      d.step trail name = .ok (.go ((name, child) :: trail)) := by
  cases proper with
  | dir hnames distinct hproper =>
    have hname := hnames _ h
    have hdot : name ≠ ['.'] := by
      rintro rfl
      cases hname.makes
    have hchild : (Node.dir entries mode).child? name = some child := by
      rw [Node.child?, Node.entries, find_of_mem distinct h]
      rfl
    rw [step, hhere, hchild, if_neg hdot, if_neg hname.notUp, if_neg (by simp [Node.isDir])]
    split
    · exact .inl ⟨_, rfl⟩
    · split
      · exact .inl ⟨_, rfl⟩
      · right
        cases child with
        | file bytes mode => rfl
        | dir entries mode => rfl
        | link target => exact absurd rfl (hlink target)

/-- A walk along names under which a proper tree has a file ends at the file, if it goes through. -/
theorem walk_hasFile (hfile : node.HasFile names) (proper : node.Proper) {trail : Trail}
    (hhere : d.here trail = node) :
    (∃ e, d.walk true trail names = .error e) ∨
      ∃ t bytes mode, d.walk true trail names = .ok (.place (.node t (.file bytes mode))) := by
  induction hfile generalizing trail with
  | here bytes mode => exact .inr ⟨trail, bytes, mode, by rw [walk, hhere]⟩
  | @inside entries mode name child names entry file ih =>
    have hlink : ∀ target, child ≠ .link target := by
      rintro target rfl
      cases file
    have hproper : child.Proper := by
      cases proper with
      | dir _ _ hproper => exact hproper _ entry
    rw [walk_cons]
    rcases step_entry hhere proper entry hlink with ⟨e, he⟩ | hstep
    · rw [he]
      exact .inl ⟨e, rfl⟩
    · rw [hstep]
      exact ih hproper rfl

/-- The pieces of a path behind a root are those of the root and those of the path. -/
theorem piecesOf_join {root p : Path} (hne : root.chars ≠ []) (hp : p.isRooted = false) :
    piecesOf (root.join p).chars = piecesOf root.chars ++ piecesOf p.chars := by
  have hpieces (p : Path) : piecesOf p.chars = p.allPieces.filter fun piece => piece ≠ [] := rfl
  obtain ⟨a, ha, hroot⟩ := exists_lead hne
  have hfront : root.allPieces.filter (fun piece => piece ≠ []) =
      (Path.mk a).allPieces.filter fun piece => piece ≠ [] := by
    rcases hroot with hroot | hroot
    · rw [hroot]
    · rw [hroot, List.filter_append]
      simp
  rw [hpieces, hpieces, hpieces, allPieces_join hp ha, List.filter_append, hfront]

/-- The pieces of a row of names are the names. -/
theorem piecesOf_ofNames (h : ∀ n ∈ names, IsName n) : piecesOf (ofNames names).chars = names := by
  cases names with
  | nil => rfl
  | cons name names =>
    have hpieces : piecesOf (ofNames (name :: names)).chars =
        (ofNames (name :: names)).allPieces.filter fun piece => piece ≠ [] := rfl
    rw [hpieces, allPieces_ofNames (fun n hn => (h n hn).free) (by simp), List.filter_eq_self]
    intro n hn
    simpa using (h n hn).ne_nil

/-- What a rooted path leads to is what its pieces lead to from the top. -/
theorem follow_of_stat {p : Path} (hp : p.isRooted = true) (h : d.stat p = .ok node) :
    ∃ trail, d.follow true 40 [] (piecesOf p.chars) = .ok (.node trail node) := by
  unfold stat at h
  split at h
  · cases h
  · cases h
  · next trail node' hresolve =>
    cases h
    unfold resolve at hresolve
    split at hresolve
    · cases hresolve
    · split at hresolve
      · cases hresolve
      · split at hresolve
        · cases hresolve
        · simp only [Bool.true_or] at hresolve
          split at hresolve
          · next t n hfollow =>
            split at hresolve
            · cases hresolve
            · cases hresolve
              exact ⟨_, hfollow⟩
          · next hother => exact absurd hresolve (hother _ _)

/-- Where a tree has a file, no path leads to a directory. -/
theorem isDir_join {root : Path} {tree : Node} (hroot : root.isRooted = true)
    (htree : d.stat root = .ok tree) (proper : tree.Proper) (hfile : tree.HasFile names)
    (hne : names ≠ []) : d.isDir (root.join (ofNames names)) = false := by
  have hchars : root.chars ≠ [] := by
    intro hnil
    rw [isRooted, hnil] at hroot
    cases hroot
  obtain ⟨trail, hfollow⟩ := follow_of_stat hroot htree
  have happend := follow_append d true hne 40 [] (piecesOf root.chars)
  rw [hfollow] at happend
  obtain ⟨hhere, left, hleft⟩ := happend
  have hpieces : piecesOf (root.join (ofNames names)).chars = piecesOf root.chars ++ names := by
    rw [piecesOf_join hchars (isRooted_ofNames (hfile.isName proper)),
      piecesOf_ofNames (hfile.isName proper)]
  rw [← hpieces] at hleft
  unfold isDir
  split
  · next node hstat =>
    obtain ⟨trail', hfollow'⟩ := follow_of_stat (isRooted_join hroot _) hstat
    rw [hleft, follow] at hfollow'
    rcases walk_hasFile hfile proper hhere.symm with ⟨e, he⟩ | ⟨t, bytes, mode, hwalk⟩
    · rw [he] at hfollow'
      cases hfollow'
    · rw [hwalk] at hfollow'
      cases hfollow'
      rfl
  · rfl

end Files

/-- On a disk that is a file no path leads to a directory. -/
theorem isDir_file {bytes : List UInt8} {mode : Nat} {p : Path} (hp : p.isRooted = true) :
    isDir ⟨.file bytes mode, []⟩ p = false := by
  unfold isDir
  split
  · next node hstat =>
    obtain ⟨trail, hfollow⟩ := follow_of_stat hp hstat
    rw [follow] at hfollow
    cases hpieces : piecesOf p.chars with
    | nil =>
      rw [hpieces, walk] at hfollow
      cases hfollow
      rfl
    | cons piece rest =>
      have hwalk : (⟨.file bytes mode, []⟩ : Disk).walk true [] (piece :: rest) =
          .error .notDirectory := rfl
      rw [hpieces, hwalk] at hfollow
      cases hfollow
  · rfl

end ArtifactSync.Disk
