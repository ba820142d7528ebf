import ArtifactSync.Proofs.Disk.Resolve
import ArtifactSync.Proofs.Path.Inner

/-!
# Trees and what stands in them

What a tree has under a row of names is found name by name (`Node.at?`). `alter` changes what stands
under one row: nothing else is another node afterwards, apart from the directories on the way, which
have other entries and the same permission bits (`outline_alter`). Where the entries of every
directory are in order, they stay in order (`Ordered.alter`), and to put down what is there already
changes nothing (`alter_eq_self`). As long as no source and no directory is altered, a walk finds the
same sources (`sameSources_alter`).
-/

namespace ArtifactSync.Node

open Path Artifact Discovery

/-- What a tree has under a row of names; links are not followed. -/
def at? : List Name → Node → Option Node
  | [], node => some node
  | name :: names, node => (node.child? name).bind (at? names)

/-- A node without what is in it, if it is a directory. -/
def emptied : Node → Node
  | dir _ mode => dir [] mode
  | other => other

/-- A tree row by row: the node under each, directories without what is in them. -/
def outline (node : Node) (names : List Name) : Option Node :=
  (node.at? names).map emptied

/-- The entries of every directory are in the order of their names. -/
inductive Ordered : Node → Prop
  | file (bytes : List UInt8) (mode : Nat) : Ordered (.file bytes mode)
  | link (target : List Char) : Ordered (.link target)
  | dir {entries : List (Name × Node)} {mode : Nat}
      (increasing : entries.Pairwise fun a b => nameKey a.1 < nameKey b.1)
      (ordered : ∀ e ∈ entries, Ordered e.2) : Ordered (.dir entries mode)

/-- Names with the same key are the same. -/
theorem nameKey_injective : Function.Injective nameKey :=
  List.map_injective_iff.mpr fun _ _ h => Char.toNat_inj.mp h

/-! ## Emptied directories -/

section Emptied

variable (node : Node)

/-- An emptied directory is a directory. -/
@[simp] theorem isDir_emptied : node.emptied.isDir = node.isDir := by
  cases node <;> rfl

/-- Emptying a directory leaves its permission bits alone. -/
@[simp] theorem mode_emptied : node.emptied.mode = node.mode := by
  cases node <;> rfl

end Emptied

/-- What is no directory is not changed by emptying. -/
theorem emptied_of_not_isDir {node : Node} (h : node.isDir = false) : node.emptied = node := by
  cases node with
  | dir entries mode => cases h
  | file bytes mode => rfl
  | link target => rfl

/-- A node that is a file or a link once it is emptied is that file or link. -/
theorem eq_of_emptied {node other : Node} (h : node.emptied = other) (hother : other.isDir = false) :
    node = other := by
  rw [← h, emptied_of_not_isDir (by rw [← hother, ← h, isDir_emptied])]

/-! ## Entries -/

section Entries

variable {entries : List (Name × Node)} {name : Name} {node : Node}

/-- The entry under a name that was put there, or that stood there before. -/
theorem find_putEntry (name : Name) (node : Node) (entries : List (Name × Node)) (other : Name) :
    ((putEntry name node entries).find? fun e => e.1 = other).map Prod.snd =
      if name = other then some node else (entries.find? fun e => e.1 = other).map Prod.snd := by
  induction entries with
  | nil => by_cases h : name = other <;> simp [putEntry, h]
  | cons e rest ih =>
    unfold putEntry
    split
    · next hname =>
      by_cases h : name = other
      · simp [h]
      · simp [h, hname]
    · next hname =>
      split
      · by_cases h : name = other <;> simp [h]
      · by_cases he : e.1 = other
        · have h : name ≠ other := fun h => hname (he.trans h.symm)
          simp [he, h]
        · simpa [he] using ih

/-- The entry under a name once another name is taken away. -/
theorem find_filter (name : Name) (entries : List (Name × Node)) (other : Name) :
    ((entries.filter fun e => e.1 ≠ name).find? fun e => e.1 = other).map Prod.snd =
      if name = other then none else (entries.find? fun e => e.1 = other).map Prod.snd := by
  rw [List.find?_filter]
  by_cases h : name = other
  · subst h
    simp
  · rw [if_neg h]
    congr 2
    funext e
    by_cases he : e.1 = other
    · simp [he, Ne.symm h]
    · simp [he]

/-- The entries of a directory whose entry under one name is changed. -/
theorem child_setChild (h : node.isDir = true) (name : Name) (new : Option Node) (other : Name) :
    (node.setChild name new).child? other = if name = other then new else node.child? other := by
  cases node with
  | dir entries mode =>
    cases new with
    | some node => exact find_putEntry name node entries other
    | none => exact find_filter name entries other
  | file bytes mode => cases h
  | link target => cases h

/-- Only a directory has entries. -/
theorem isDir_of_child (h : node.child? name ≠ none) : node.isDir = true := by
  cases node with
  | dir entries mode => rfl
  | file bytes mode => exact absurd rfl h
  | link target => exact absurd rfl h

/-- What is put among entries is there afterwards, with what was there before. -/
theorem mem_of_mem_putEntry {e : Name × Node} (h : e ∈ putEntry name node entries) :
    e = (name, node) ∨ e ∈ entries := by
  induction entries with
  | nil => exact .inl (List.mem_singleton.mp h)
  | cons first rest ih =>
    unfold putEntry at h
    split at h
    · rcases List.mem_cons.mp h with h | h
      · exact .inl h
      · exact .inr (List.mem_cons_of_mem _ h)
    · split at h
      · rcases List.mem_cons.mp h with h | h
        · exact .inl h
        · exact .inr h
      · rcases List.mem_cons.mp h with h | h
        · exact .inr (h ▸ List.mem_cons_self ..)
        · exact (ih h).imp_right (List.mem_cons_of_mem _)

/-- Entries in order stay so when one is put among them. -/
theorem pairwise_putEntry (h : entries.Pairwise fun a b => nameKey a.1 < nameKey b.1) :
    (putEntry name node entries).Pairwise fun a b => nameKey a.1 < nameKey b.1 := by
  induction entries with
  | nil => exact List.pairwise_singleton ..
  | cons first rest ih =>
    obtain ⟨hfirst, hrest⟩ := List.pairwise_cons.mp h
    unfold putEntry
    split
    · next hname => exact List.pairwise_cons.mpr ⟨by rwa [← hname], hrest⟩
    · next hname =>
      split
      · next hlt =>
        refine List.pairwise_cons.mpr ⟨fun e he => ?_, h⟩
        rcases List.mem_cons.mp he with rfl | he
        · exact hlt
        · exact List.lt_trans hlt (hfirst e he)
      · next hlt =>
        -- the names differ, so the first entry stays in front
        have hafter : nameKey first.1 < nameKey name :=
          (List.le_iff_lt_or_eq.mp (List.not_lt.mp hlt)).resolve_right fun heq =>
            hname (nameKey_injective heq)
        refine List.pairwise_cons.mpr ⟨fun e he => ?_, ih hrest⟩
        rcases mem_of_mem_putEntry he with rfl | he
        · exact hafter
        · exact hfirst e he

/-- Among entries in order, the one under a name is replaced where it stands. -/
theorem exists_split_putEntry {old : Node}
    (h : entries.Pairwise fun a b => nameKey a.1 < nameKey b.1)
    (hold : (entries.find? fun e => e.1 = name).map Prod.snd = some old) :
    ∃ before after, entries = before ++ (name, old) :: after ∧
      ∀ node, putEntry name node entries = before ++ (name, node) :: after := by
  induction entries with
  | nil => cases hold
  | cons first rest ih =>
    obtain ⟨hfirst, hrest⟩ := List.pairwise_cons.mp h
    by_cases hname : first.1 = name
    · have hsnd : first.2 = old := by simpa [hname] using hold
      refine ⟨[], rest, ?_, fun node => ?_⟩
      · rw [← hname, ← hsnd]
        rfl
      · rw [putEntry, if_pos hname]
        rfl
    · rw [List.find?_cons_of_neg (by simpa using hname)] at hold
      obtain ⟨before, after, hsplit, hput⟩ := ih hrest hold
      -- the entry comes later, so its name is greater than the first one
      have hlater : nameKey first.1 < nameKey name := hfirst (name, old) (by simp [hsplit])
      refine ⟨first :: before, after, by rw [hsplit]; rfl, fun node => ?_⟩
      rw [putEntry, if_neg hname, if_neg (List.lt_asymm hlater), hput]
      rfl

end Entries

/-- A change below one of the entries of a directory. -/
theorem alter_cons (change : Option Node → Option Node) (first : Name) (front : List Name)
    (name : Name) (node : Node) : alter change (first :: (front ++ [name])) node =
      match node.child? first with
      | some child => node.setChild first (some (alter change (front ++ [name]) child))
      | none => node := by
  obtain ⟨second, others, h⟩ := List.exists_cons_of_ne_nil
    (show front ++ [name] ≠ [] by simp)
  rw [h]
  cases hchild : node.child? first <;> simp [alter, hchild]

namespace Ordered

variable {node : Node} {name : Name}

/-- A directory in order. -/
theorem of_dir {entries : List (Name × Node)} {mode : Nat} (h : Ordered (.dir entries mode)) :
    (entries.Pairwise fun a b => nameKey a.1 < nameKey b.1) ∧ ∀ e ∈ entries, Ordered e.2 := by
  cases h with
  | dir increasing ordered => exact ⟨increasing, ordered⟩

/-- What stands in a directory in order is in order. -/
theorem child {child : Node} (h : node.Ordered) (hchild : node.child? name = some child) :
    child.Ordered := by
  cases node with
  | dir entries mode =>
    obtain ⟨e, he, rfl⟩ := Option.map_eq_some_iff.mp hchild
    exact h.of_dir.2 e (List.mem_of_find?_eq_some he)
  | file bytes mode => cases hchild
  | link target => cases hchild

/-- A directory in order stays so when an entry is changed. -/
theorem setChild {new : Option Node} (h : node.Ordered) (hnew : ∀ c, new = some c → c.Ordered) :
    (node.setChild name new).Ordered := by
  cases node with
  | dir entries mode =>
    obtain ⟨hincreasing, hordered⟩ := h.of_dir
    cases new with
    | some c =>
      refine .dir (pairwise_putEntry hincreasing) fun e he => ?_
      rcases mem_of_mem_putEntry he with rfl | he
      · exact hnew c rfl
      · exact hordered e he
    | none =>
      exact .dir (hincreasing.filter _) fun e he => hordered e (List.mem_filter.mp he).1
  | file bytes mode => exact h
  | link target => exact h

/-- A tree in order stays so when what stands under a row of names is changed. -/
theorem alter {new : Option Node} (h : node.Ordered) (hnew : ∀ c, new = some c → c.Ordered)
    (front : List Name) : (Node.alter (fun _ => new) (front ++ [name]) node).Ordered := by
  induction front generalizing node with
  | nil => exact h.setChild hnew
  | cons first rest ih =>
    rw [List.cons_append, alter_cons]
    split
    · next child hchild => exact h.setChild fun c hc => Option.some.inj hc ▸ ih (h.child hchild)
    · exact h

end Ordered

/-! ## What is altered and what is not -/

section Alter

variable {node : Node} {front : List Name} {name : Name} {new : Option Node}

/-- What stands under a longer row of names stands in what stands under the beginning of it. -/
theorem at_append (node : Node) (front names : List Name) :
    node.at? (front ++ names) = (node.at? front).bind (at? names) := by
  induction front generalizing node with
  | nil => rfl
  | cons first rest ih =>
    rw [List.cons_append, at?, at?]
    cases node.child? first with
    | none => rfl
    | some child => exact ih child

/-- One name more is that of an entry. -/
theorem at_concat (node : Node) (front : List Name) (name : Name) :
    node.at? (front ++ [name]) = (node.at? front).bind (·.child? name) := by
  rw [at_append]
  congr 1
  funext inner
  rw [at?]
  cases inner.child? name <;> rfl

/-- Below what is no directory there is nothing. -/
theorem at_of_not_isDir (h : node.isDir = false) {names : List Name} (hne : names ≠ []) :
    node.at? names = none := by
  obtain ⟨first, rest, rfl⟩ := List.exists_cons_of_ne_nil hne
  have hchild : node.child? first = none := by
    by_contra hchild
    rw [isDir_of_child hchild] at h
    cases h
  rw [at?, hchild]
  rfl

/-- Nothing stands below a node. -/
def IsLeaf (node : Node) : Prop :=
  ∀ names, names ≠ [] → node.at? names = none

/-- Nothing stands below what is no directory. -/
theorem IsLeaf.of_not_isDir (h : node.isDir = false) : node.IsLeaf :=
  fun _ hne => at_of_not_isDir h hne

/-- Nothing stands below a directory without entries. -/
theorem IsLeaf.of_empty (mode : Nat) : (dir [] mode).IsLeaf := by
  intro names hne
  obtain ⟨first, rest, rfl⟩ := List.exists_cons_of_ne_nil hne
  rfl

/-- Where there is something below a row of names, the row leads to a directory. -/
theorem isDir_of_at {front names : List Name} (hne : names ≠ []) {c : Node}
    (hc : node.at? (front ++ names) = some c) :
    ∃ dir, node.at? front = some dir ∧ dir.isDir = true := by
  rw [at_append] at hc
  obtain ⟨dir, hdir, hbelow⟩ := Option.bind_eq_some_iff.mp hc
  refine ⟨dir, hdir, ?_⟩
  by_contra hisDir
  rw [at_of_not_isDir (by simpa using hisDir) hne] at hbelow
  cases hbelow

/-- What stands in a proper tree is proper. -/
theorem Proper.at {names : List Name} (h : node.Proper) {c : Node} (hc : node.at? names = some c) :
    c.Proper := by
  induction names generalizing node with
  | nil =>
    cases hc
    exact h
  | cons first rest ih =>
    rw [at?] at hc
    obtain ⟨child, hchild, hc⟩ := Option.bind_eq_some_iff.mp hc
    refine ih ?_ hc
    obtain ⟨e, he, rfl⟩ := Option.map_eq_some_iff.mp hchild
    cases h with
    | dir names distinct proper => exact proper e (List.mem_of_find?_eq_some he)
    | file bytes mode => cases he
    | link target => cases he

/-- What stands in a tree in order is in order. -/
theorem Ordered.at {names : List Name} (h : node.Ordered) {c : Node}
    (hc : node.at? names = some c) : c.Ordered := by
  induction names generalizing node with
  | nil =>
    cases hc
    exact h
  | cons first rest ih =>
    rw [at?] at hc
    obtain ⟨child, hchild, hc⟩ := Option.bind_eq_some_iff.mp hc
    exact ih (h.child hchild) hc

/-- Where a proper tree has a file, the file is what stands there. -/
theorem HasFile.at {names : List Name} (h : node.HasFile names) (proper : node.Proper) :
    ∃ bytes mode, node.at? names = some (.file bytes mode) := by
  induction h with
  | here bytes mode => exact ⟨bytes, mode, rfl⟩
  | @inside entries mode name child names entry file ih =>
    cases proper with
    | dir hnames distinct hproper =>
      have hchild : (Node.dir entries mode).child? name = some child := by
        rw [child?, Node.entries, Disk.find_of_mem distinct entry]
        rfl
      obtain ⟨bytes, mode, hat⟩ := ih (hproper _ entry)
      exact ⟨bytes, mode, by rw [at?, hchild]; exact hat⟩

/-- What an altered directory is apart from its entries. -/
theorem emptied_setChild (node : Node) (name : Name) (new : Option Node) :
    (node.setChild name new).emptied = node.emptied := by
  cases node with
  | dir entries mode => cases new <;> rfl
  | file bytes mode => rfl
  | link target => rfl

/-- What is altered is what is there afterwards. -/
theorem at_alter (hdir : ∀ c, node.at? front = some c → c.isDir = true)
    (hfront : node.at? front ≠ none) :
    (alter (fun _ => new) (front ++ [name]) node).at? (front ++ [name]) = new := by
  induction front generalizing node with
  | nil =>
    rw [List.nil_append, alter, at?, child_setChild (hdir node rfl), if_pos rfl]
    cases new <;> rfl
  | cons first rest ih =>
    rw [at?] at hdir hfront
    cases hchild : node.child? first with
    | none => simp [hchild] at hfront
    | some child =>
      rw [hchild] at hdir hfront
      have hnode : node.isDir = true := isDir_of_child (by rw [hchild]; simp)
      rw [List.cons_append, alter_cons, hchild, at?, child_setChild hnode, if_pos rfl]
      exact ih hdir hfront

/-- The directory of what is altered has another entry. -/
theorem at_front_alter (node : Node) (front : List Name) (name : Name) (new : Option Node) :
    (alter (fun _ => new) (front ++ [name]) node).at? front =
      (node.at? front).map (·.setChild name new) := by
  induction front generalizing node with
  | nil => rfl
  | cons first rest ih =>
    rw [List.cons_append, alter_cons, at?, at?]
    cases hchild : node.child? first with
    | none => simp [hchild]
    | some child =>
      have hnode : node.isDir = true := isDir_of_child (by rw [hchild]; simp)
      rw [child_setChild hnode, if_pos rfl]
      exact ih child

/-- Where nothing is put or taken away with something below it, the tree is as it was under every other
row of names. -/
theorem outline_alter (hold : ∀ c, node.at? (front ++ [name]) = some c → c.IsLeaf)
    (hnew : ∀ c, new = some c → c.IsLeaf) {names : List Name} (hne : names ≠ front ++ [name]) :
    (alter (fun _ => new) (front ++ [name]) node).outline names = node.outline names := by
  induction front generalizing node names with
  | nil =>
    rw [List.nil_append, alter]
    cases names with
    | nil => simp [outline, at?, emptied_setChild]
    | cons first rest =>
      by_cases hnode : node.isDir = true
      · rw [outline, outline, at?, at?, child_setChild hnode]
        split
        · next heq =>
          subst heq
          -- what stands there, before and after, has nothing below it
          have hrest : rest ≠ [] := by
            rintro rfl
            exact hne rfl
          have hnone (c : Option Node) (hc : ∀ b, c = some b → b.IsLeaf) :
              c.bind (at? rest) = none := by
            cases c with
            | none => rfl
            | some b => exact hc b rfl rest hrest
          rw [hnone new hnew, hnone (node.child? name) fun b hb => hold b ?_]
          rw [List.nil_append, at?, hb]
          rfl
        · rfl
      · have hsame : node.setChild name new = node := by
          cases node with
          | dir entries mode => exact absurd rfl hnode
          | file bytes mode => rfl
          | link target => rfl
        rw [hsame]
  | cons first rest ih =>
    rw [List.cons_append, alter_cons]
    split
    · next child hchild =>
      have hnode : node.isDir = true := isDir_of_child (by rw [hchild]; simp)
      cases names with
      | nil => simp [outline, at?, emptied_setChild]
      | cons other others =>
        rw [outline, outline, at?, at?, child_setChild hnode]
        split
        · next heq =>
          subst heq
          rw [hchild]
          refine ih (fun c hc => hold c ?_) fun heq => hne ?_
          · rw [List.cons_append, at?, hchild]
            exact hc
          · rw [heq]
            rfl
        · rfl
    · rfl

/-- To put down what is there already changes nothing. -/
theorem alter_eq_self (h : node.Ordered) {c : Node} (hc : node.at? (front ++ [name]) = some c) :
    alter (fun _ => some c) (front ++ [name]) node = node := by
  have hset {node : Node} (h : node.Ordered) {name : Name} {c : Node}
      (hc : node.child? name = some c) : node.setChild name (some c) = node := by
    cases node with
    | dir entries mode =>
      obtain ⟨before, after, hsplit, hput⟩ := exists_split_putEntry h.of_dir.1 hc
      rw [setChild, hput, ← hsplit]
    | file bytes mode => rfl
    | link target => rfl
  induction front generalizing node with
  | nil =>
    rw [List.nil_append, at?] at hc
    refine hset h ?_
    cases hchild : node.child? name with
    | none => simp [hchild] at hc
    | some child => simpa [hchild, at?] using hc
  | cons first rest ih =>
    rw [List.cons_append, alter_cons]
    rw [List.cons_append, at?] at hc
    split
    · next child hchild =>
      rw [hchild] at hc
      rw [ih (h.child hchild) hc, hset h hchild]
    · rfl

end Alter

/-! ## The sources that a walk finds -/

/-- An ordinary name that is not that of a source. -/
structure IsAside (name : Name) : Prop where
  isName : IsName name
  notSource : isSource ⟨name⟩ = false

/-- What stands under such a name is no source, wherever it is. -/
theorem IsAside.isSource_join {name : Name} (h : IsAside name) (path : Path) :
    isSource (path.join ⟨name⟩) = false := by
  have hlast : (Path.mk name).components.getLast? = some (.name name) := by
    rw [show Path.mk name = ofNames [name] by simp [ofNames, ofPieces], components_ofNames (by
      simpa using h.isName)]
    rfl
  rw [Artifact.isSource_join hlast (by simp), h.notSource]

section Sources

variable {ε : Type} (leaveOut : Path → Bool → Except ε Bool) (shut : Path → ε)

/-- The sources among the files that a walk finds. -/
def sourcesIn (reachable : Bool) (path : Path) (node : Node) : Except ε (List Path) :=
  (filesIn leaveOut shut reachable path node).map (·.filter isSource)

/-- The sources among the files that a walk finds under entries. -/
def sourcesInAll (reachable : Bool) (path : Path) (entries : List (Name × Node)) :
    Except ε (List Path) :=
  (filesInAll leaveOut shut reachable path entries).map (·.filter isSource)

/-- Those under the first entry come first, unless it is left out. -/
theorem sourcesInAll_cons (reachable : Bool) (path : Path) (e : Name × Node)
    (rest : List (Name × Node)) : sourcesInAll leaveOut shut reachable path (e :: rest) =
      (leaveOut (path.join ⟨e.1⟩) e.2.isDir).bind fun out =>
        if out then sourcesInAll leaveOut shut reachable path rest
        else (sourcesIn leaveOut shut reachable (path.join ⟨e.1⟩) e.2).bind fun found =>
          (sourcesInAll leaveOut shut reachable path rest).map (found ++ ·) := by
  obtain ⟨name, node⟩ := e
  simp only [sourcesInAll, sourcesIn]
  rw [filesInAll]
  rcases leaveOut (path.join ⟨name⟩) node.isDir with e | _ | _
  · rfl
  · rcases filesIn leaveOut shut reachable (path.join ⟨name⟩) node with e | found
    · rfl
    · rcases filesInAll leaveOut shut reachable path rest with e | more
      · rfl
      · simp [Except.map, Except.bind]
  · rfl

/-- The sources in a directory are those under its entries. -/
theorem sourcesIn_dir (reachable : Bool) (path : Path) (entries : List (Name × Node)) (mode : Nat) :
    sourcesIn leaveOut shut reachable path (.dir entries mode) =
      if reachable && (Node.dir [] mode).mayRead then
        sourcesInAll leaveOut shut (Node.dir [] mode).mayEnter path entries
      else .error (shut path) := by
  rw [sourcesIn, filesIn]
  split
  · rfl
  · rfl

variable {leaveOut shut}

/-- What stands behind the same entries counts. -/
theorem sourcesInAll_append {reachable : Bool} {path : Path} {rest rest' : List (Name × Node)}
    (h : sourcesInAll leaveOut shut reachable path rest' =
      sourcesInAll leaveOut shut reachable path rest) (before : List (Name × Node)) :
    sourcesInAll leaveOut shut reachable path (before ++ rest') =
      sourcesInAll leaveOut shut reachable path (before ++ rest) := by
  induction before with
  | nil => exact h
  | cons e before ih => simp only [List.cons_append, sourcesInAll_cons, ih]

variable (total : ∀ p isDir, ∃ v, leaveOut p isDir = .ok v)
include total

/-- An entry that is neither a source nor a directory adds none. -/
theorem sourcesInAll_aside {reachable : Bool} {path : Path} {e : Name × Node}
    (haside : IsAside e.1) (hdir : e.2.isDir = false) (rest : List (Name × Node)) :
    sourcesInAll leaveOut shut reachable path (e :: rest) =
      sourcesInAll leaveOut shut reachable path rest := by
  obtain ⟨out, hout⟩ := total (path.join ⟨e.1⟩) e.2.isDir
  have hnone : sourcesIn leaveOut shut reachable (path.join ⟨e.1⟩) e.2 = .ok [] := by
    rw [sourcesIn]
    cases hnode : e.2 with
    | file bytes mode => simp [filesIn, Except.map, haside.isSource_join path]
    | link target => simp [filesIn, Except.map]
    | dir entries mode =>
      rw [hnode] at hdir
      cases hdir
  rw [sourcesInAll_cons, hout, hnone]
  cases out with
  | true => rfl
  | false => cases sourcesInAll leaveOut shut reachable path rest <;> rfl

section Aside

variable {name : Name} {entries : List (Name × Node)} (haside : IsAside name)
  (hold : ∀ e ∈ entries, e.1 = name → e.2.isDir = false)
include haside hold

/-- To put a file among entries that is no source adds none, and takes none away. -/
theorem sourcesInAll_putEntry {node : Node} (hnode : node.isDir = false) (reachable : Bool)
    (path : Path) : sourcesInAll leaveOut shut reachable path (putEntry name node entries) =
      sourcesInAll leaveOut shut reachable path entries := by
  induction entries with
  | nil => exact sourcesInAll_aside total haside hnode []
  | cons e rest ih =>
    obtain ⟨hfirst, hrest⟩ := List.forall_mem_cons.mp hold
    unfold putEntry
    split
    · next hname =>
      rw [sourcesInAll_aside (e := e) total (by rwa [hname]) (hfirst hname)]
      exact sourcesInAll_aside total haside hnode rest
    · split
      · exact sourcesInAll_aside total haside hnode (e :: rest)
      · rw [sourcesInAll_cons, sourcesInAll_cons, ih hrest]

/-- Neither does taking away what is no source and no directory. -/
theorem sourcesInAll_filter (reachable : Bool) (path : Path) :
    sourcesInAll leaveOut shut reachable path (entries.filter fun e => e.1 ≠ name) =
      sourcesInAll leaveOut shut reachable path entries := by
  induction entries with
  | nil => rfl
  | cons e rest ih =>
    obtain ⟨hfirst, hrest⟩ := List.forall_mem_cons.mp hold
    by_cases hname : e.1 = name
    · rw [List.filter_cons_of_neg (by simpa using hname), ih hrest]
      exact (sourcesInAll_aside total (by rwa [hname]) (hfirst hname) rest).symm
    · rw [List.filter_cons_of_pos (by simpa using hname), sourcesInAll_cons, sourcesInAll_cons,
        ih hrest]

end Aside

end Sources

/-- A walk finds the same sources in two nodes, wherever they are and whatever it leaves out. -/
structure SameSources (node node' : Node) : Prop where
  isDir : node'.isDir = node.isDir
  sources : ∀ (leaveOut : Path → Bool → Except DiscoveryError Bool) (shut : Path → DiscoveryError),
    (∀ p isDir, ∃ v, leaveOut p isDir = .ok v) → ∀ reachable path,
      sourcesIn leaveOut shut reachable path node' = sourcesIn leaveOut shut reachable path node

/-- This is reflexive. -/
theorem SameSources.refl (node : Node) : SameSources node node :=
  ⟨rfl, fun _ _ _ _ _ => rfl⟩

/-- It is transitive, too. -/
theorem SameSources.trans {a b c : Node} (h : SameSources a b) (h' : SameSources b c) :
    SameSources a c :=
  ⟨h'.isDir.trans h.isDir, fun leaveOut shut total reachable path =>
    (h'.sources leaveOut shut total reachable path).trans
      (h.sources leaveOut shut total reachable path)⟩

/-- A walk that begins at one of them finds the same sources. -/
theorem SameSources.walkFrom_eq {node node' : Node} (h : SameSources node node') {root : Path}
    {excludes : Excludes} (rooted : root.isRooted = true) (hx : excludes.root.head? = some '/')
    {d d' : Disk} {start : Path} (hstat : d.stat start = .ok node)
    (hstat' : d'.stat start = .ok node') :
    walkFrom d' root start excludes = walkFrom d root start excludes := by
  have hwalk {d : Disk} {node : Node} (hstat : d.stat start = .ok node) :
      walkFrom d root start excludes =
        (sourcesIn (leavesOut root excludes) (fun path => refusal root path .access) true start
          node).map (·.filterMap (·.stripPrefix? root)) := by
    unfold walkFrom sourcesIn
    rw [hstat]
    simp only
    cases filesIn (leavesOut root excludes) (fun path => refusal root path .access) true start
      node <;> rfl
  rw [hwalk hstat, hwalk hstat', h.sources _ _ fun p isDir => ⟨_, leavesOut_eq rooted hx p isDir⟩]

/-- Where an entry is replaced by one with the same sources, a walk finds the same sources. -/
theorem SameSources.setChild {node child child' : Node} {name : Name} (hnode : node.Ordered)
    (hchild : node.child? name = some child) (h : SameSources child child') :
    SameSources node (node.setChild name (some child')) := by
  cases node with
  | dir entries mode =>
    obtain ⟨before, after, hsplit, hput⟩ := exists_split_putEntry hnode.of_dir.1 hchild
    refine ⟨rfl, fun leaveOut shut total reachable path => ?_⟩
    have hentries (reachable : Bool) :
        sourcesInAll leaveOut shut reachable path ((name, child') :: after) =
          sourcesInAll leaveOut shut reachable path ((name, child) :: after) := by
      simp only [sourcesInAll_cons, h.isDir, h.sources leaveOut shut total reachable]
    rw [Node.setChild, hput, sourcesIn_dir, sourcesIn_dir, sourcesInAll_append (hentries _) before,
      ← hsplit]
  | file bytes mode => cases hchild
  | link target => cases hchild

/-- A directory in which names may be looked for may get a directory without entries: a walk goes in
and finds nothing. -/
theorem SameSources.of_empty {node : Node} {name : Name} (henter : node.mayEnter = true) {mode : Nat}
    (hread : (Node.dir [] mode).mayRead = true) (hfree : node.child? name = none) :
    SameSources node (node.setChild name (some (.dir [] mode))) := by
  cases node with
  | dir entries bits =>
    refine ⟨rfl, fun leaveOut shut total reachable path => ?_⟩
    have hreach : (Node.dir [] bits).mayEnter = true := henter
    have hnone (rest : List (Name × Node)) :
        sourcesInAll leaveOut shut true path ((name, .dir [] mode) :: rest) =
          sourcesInAll leaveOut shut true path rest := by
      obtain ⟨out, hout⟩ := total (path.join ⟨name⟩) true
      have hempty : sourcesIn leaveOut shut true (path.join ⟨name⟩) (.dir [] mode) = .ok [] := by
        rw [sourcesIn_dir, hread]
        rfl
      rw [sourcesInAll_cons, show (Node.dir [] mode).isDir = true from rfl, hout, hempty]
      cases out with
      | true => rfl
      | false => cases sourcesInAll leaveOut shut true path rest <;> rfl
    have hput : sourcesInAll leaveOut shut true path (putEntry name (.dir [] mode) entries) =
        sourcesInAll leaveOut shut true path entries := by
      have hfree : ∀ e ∈ entries, e.1 ≠ name := by
        simpa [child?, Node.entries] using hfree
      clear hreach henter
      induction entries with
      | nil => exact hnone []
      | cons e rest ih =>
        obtain ⟨hfirst, hrest⟩ := List.forall_mem_cons.mp hfree
        rw [putEntry, if_neg hfirst]
        split
        · exact hnone (e :: rest)
        · rw [sourcesInAll_cons, sourcesInAll_cons, ih (by simpa [child?, Node.entries] using hrest)
            hrest]
    rw [Node.setChild, sourcesIn_dir, sourcesIn_dir, hreach, hput]
  | file bytes mode => exact .refl _
  | link target => exact .refl _

/-- As long as no source and no directory is altered, a walk finds the same sources. -/
theorem sameSources_alter {node : Node} {front : List Name} {name : Name} {new : Option Node}
    (ordered : node.Ordered) (haside : IsAside name)
    (hold : ∀ c, node.at? (front ++ [name]) = some c → c.isDir = false)
    (hnew : ∀ c, new = some c → c.isDir = false) :
    SameSources node (alter (fun _ => new) (front ++ [name]) node) := by
  induction front generalizing node with
  | nil =>
    rw [List.nil_append, alter]
    cases node with
    | dir entries mode =>
      have hentries : ∀ e ∈ entries, e.1 = name → e.2.isDir = false := by
        rintro e he rfl
        have hdistinct : entries.Pairwise fun a b => a.1 ≠ b.1 :=
          ordered.of_dir.1.imp fun hlt heq => by
            rw [heq] at hlt
            exact List.lt_irrefl _ hlt
        refine hold e.2 ?_
        have hfind : (Node.dir entries mode).child? e.1 = some e.2 := by
          rw [child?, Node.entries, Disk.find_of_mem hdistinct he]
          rfl
        rw [List.nil_append, at?, hfind]
        rfl
      cases new with
      | some c =>
        refine ⟨rfl, fun leaveOut shut total reachable path => ?_⟩
        rw [setChild, sourcesIn_dir, sourcesIn_dir,
          sourcesInAll_putEntry total haside hentries (hnew c rfl)]
      | none =>
        refine ⟨rfl, fun leaveOut shut total reachable path => ?_⟩
        rw [setChild, sourcesIn_dir, sourcesIn_dir, sourcesInAll_filter total haside hentries]
    | file bytes mode => exact .refl _
    | link target => exact .refl _
  | cons first rest ih =>
    rw [List.cons_append, alter_cons]
    split
    · next child hchild =>
      refine .setChild ordered hchild (ih (ordered.child hchild) fun c hc => hold c ?_)
      rw [List.cons_append, at?, hchild]
      exact hc
    · exact .refl _

/-- Neither does it in any directory of the tree. -/
theorem sameSources_at_alter {node : Node} {front : List Name} {name : Name} {new : Option Node}
    (ordered : node.Ordered) (haside : IsAside name)
    (hold : ∀ c, node.at? (front ++ [name]) = some c → c.isDir = false)
    (hnew : ∀ c, new = some c → c.isDir = false) {names : List Name} {dir dir' : Node}
    (hisDir : dir.isDir = true) (hdir : node.at? names = some dir)
    (hdir' : (alter (fun _ => new) (front ++ [name]) node).at? names = some dir') :
    SameSources dir dir' := by
  induction names generalizing node front with
  | nil =>
    cases hdir
    cases hdir'
    exact sameSources_alter ordered haside hold hnew
  | cons first rest ih =>
    have hchild : node.child? first ≠ none := fun hnone => by simp [at?, hnone] at hdir
    have hnode : node.isDir = true := isDir_of_child hchild
    rw [at?] at hdir hdir'
    cases front with
    | nil =>
      rw [List.nil_append, alter, child_setChild hnode] at hdir'
      split at hdir'
      · next heq =>
        -- what is altered here is no directory, and has none below it
        subst heq
        obtain ⟨c, hc⟩ := Option.ne_none_iff_exists'.mp hchild
        have hcdir : c.isDir = false := hold c (by rw [List.nil_append, at?, hc]; rfl)
        rw [hc] at hdir
        cases rest with
        | nil =>
          cases hdir
          rw [hisDir] at hcdir
          cases hcdir
        | cons second others => simp [at_of_not_isDir hcdir] at hdir
      · rw [hdir] at hdir'
        cases hdir'
        exact .refl dir
    | cons other others =>
      rw [List.cons_append, alter_cons] at hdir'
      split at hdir'
      · next child hother =>
        rw [child_setChild hnode] at hdir'
        split at hdir'
        · next heq =>
          subst heq
          rw [hother] at hdir
          refine ih (ordered.child hother) (fun c hc => hold c ?_) hdir hdir'
          rw [List.cons_append, at?, hother]
          exact hc
        · rw [hdir] at hdir'
          cases hdir'
          exact .refl dir
      · rw [hdir] at hdir'
        cases hdir'
        exact .refl dir

end ArtifactSync.Node
