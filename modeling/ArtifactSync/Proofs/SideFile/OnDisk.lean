import ArtifactSync.Proofs.Disk.Again
import ArtifactSync.Proofs.Disk.Build
import ArtifactSync.Proofs.SideFile.Left
import ArtifactSync.Proofs.Watch.Log

/-!
# Side files on a disk

An update of a side file makes its folder, unless that is there (`Prepared`), and then puts at most one
file down (`merge_cases`). What it writes depends on the text it reads (`SideFile.written?`), and is what
it would write again, since rendering what was rendered changes nothing. So a second update leaves the
disk alone (`writeNow_self`), also on a disk that has grown elsewhere in the meantime
(`writeNow_again`). Where the project root was a directory and is none any more, nothing is written at
all (`writeNow_of_gone`).
-/

namespace ArtifactSync

open Path Artifact

/-! ## Where side files are -/

namespace SideFileKind

/-- The folders between the project root and a side file. -/
def folder : SideFileKind → List Name
  | ignoreList => []
  | editorExclude => [".vscode".toList]

variable (k : SideFileKind)

/-- There is at most one. -/
theorem folder_cases : k.folder = [] ∨ ∃ n, k.folder = [n] ∧ Disk.isName n = true := by
  cases k
  · exact .inl rfl
  · exact .inr ⟨_, rfl, by decide⟩

/-- The names that an update puts on a disk. -/
def ownNames : List Name :=
  k.folder ++ [k.fileName]

/-- A folder has one of them. -/
theorem mem_ownNames_of_folder {n : Name} (h : k.folder = [n]) : n ∈ k.ownNames := by
  rw [ownNames, h]
  exact List.mem_cons_self ..

/-- The rows of names that end in one of them. -/
def OwnRow (names : List Name) : Prop :=
  ∃ front name, names = front ++ [name] ∧ name ∈ k.ownNames

/-- The last name of a row decides. -/
theorem ownRow_concat {front : List Name} {name : Name} :
    k.OwnRow (front ++ [name]) ↔ name ∈ k.ownNames := by
  constructor
  · rintro ⟨front', name', hrow, hname⟩
    obtain ⟨-, hlast⟩ := List.append_inj' hrow rfl
    rwa [(List.cons.inj hlast).1]
  · exact fun hname => ⟨front, name, rfl, hname⟩

/-- They are ordinary names beside the sources. -/
theorem isAside_of_mem {name : Name} (h : name ∈ k.ownNames) : Node.IsAside name := by
  have hall : ∀ n ∈ k.ownNames, IsName n ∧ isSource ⟨n⟩ = false := by
    cases k <;> decide
  exact ⟨(hall name h).1, (hall name h).2⟩

/-- So the rows are those of files beside the sources. -/
theorem asideRow_of_ownRow {names : List Name} (h : k.OwnRow names) : Disk.AsideRow names := by
  obtain ⟨front, name, rfl, hname⟩ := h
  exact ⟨front, name, rfl, k.isAside_of_mem hname⟩

/-- The name of the side file is one of them. -/
theorem fileName_mem : k.fileName ∈ k.ownNames :=
  List.mem_append_right _ (List.mem_singleton_self _)

/-- No output has such a name. -/
theorem outputName_not_mem {kind : OutputKind} {last : Name} (hname : IsName last)
    (hs : isSource ⟨last⟩ = true) : outputName kind last ∉ k.ownNames := by
  obtain ⟨stem, hstem, rfl⟩ := exists_stem hname hs
  rw [outputName_eq hname hstem, outputPiece]
  -- an output is called `..` or ends in the extension of outputs
  split
  · cases k <;> decide
  · intro hmem
    have hends : ∀ n ∈ k.ownNames, n.getLast? = some 'e' ∨ n.getLast? = some 'n' := by
      cases k <;> decide
    have hend := hends _ hmem
    cases kind <;> simp [OutputKind.extension] at hend

/-- A side file is in its folders below the root. -/
theorem endsIn_pathIn {root : Path} (rooted : root.isRooted = true) :
    Disk.EndsIn (k.pathIn root) (Disk.piecesOf root.chars ++ k.folder) k.fileName := by
  have hlocation : k.pathIn root = root.join (ofNames k.ownNames) := by
    cases k <;> rfl
  rw [hlocation]
  exact endsIn_ofNames rooted fun n hn => (k.isAside_of_mem hn).isName

/-- Its name makes a component. -/
theorem makes_fileName : isEmptyPiece k.fileName = false :=
  (k.isAside_of_mem k.fileName_mem).isName.makes

/-- Rendering what was rendered changes nothing. -/
theorem render_render {existing text : String} {outputs : List Path}
    (houtputs : EditorExclude.Listable (outputs.map Path.toSlash))
    (h : k.render existing outputs = .ok text) : k.render text outputs = .ok text := by
  have hleft : k.left (some existing) outputs = some text := by simp [left, h]
  have hagain := left_left k (some existing) houtputs houtputs
  rw [hleft, left] at hagain
  simp only [Option.getD_some] at hagain
  cases htext : k.render text outputs with
  | ok text' =>
    rw [htext] at hagain
    rw [Option.some.inj hagain]
  | error reason =>
    -- what was rendered can be rendered
    cases k with
    | ignoreList => cases htext
    | editorExclude =>
      rcases hfirst : EditorExclude.render existing.toList outputs with e | first <;>
        simp only [SideFileKind.render, hfirst, Except.map] at h
      · cases h
      · obtain rfl := Except.ok.inj h
        have hsame := EditorExclude.render_of_render houtputs houtputs hfirst
        simp [SideFileKind.render, hsame, hfirst, Except.map] at htext

end SideFileKind

/-! ## What is written -/

section OnDisk

variable {faults : Call → Option FsError}

namespace SideFile

section Merge

variable {σ : Type} (f : SideFile) (files : FileSystem σ) (outputs : PathSet)

/-- Writes a side file of which one knows what it holds. -/
def rewrite (existing : String) (s : σ) : SyncResult × σ :=
  match f.kind.render existing outputs.paths with
  | .error reason => (.error (.parse f.path reason), s)
  | .ok text =>
    match files.write f.path text s with
    | (.error cause, s) => (.error (.write f.path cause), s)
    | (.ok _, s) => (.ok ⟨f.kind, f.path, outputs.size⟩, s)

/-- Updates a side file whose folder is there. -/
def merge (s : σ) : SyncResult × σ :=
  match f.existing files s with
  | (.error cause, s) => (.error (.read f.path cause), s)
  | (.ok existing, s) => f.rewrite files outputs existing s

/-- An update makes the folder first. -/
theorem writeNow_eq (s : σ) : f.writeNow files outputs s = match f.prepare files s with
    | (.error cause, s) => (.error (.prepare f.path cause), s)
    | (.ok _, s) => f.merge files outputs s := rfl

end Merge

variable (faults) in
/-- What a side file is taken to hold: nothing if it is not found. -/
def held (path : Path) (d : Disk) : Option String :=
  match ((Disk.fileSystem.faulty faults).read path d).1 with
  | .error cause => if cause.isNotFound then some "" else none
  | .ok text => some text

variable (faults) in
/-- The text that an update writes, if it writes any. -/
def written? (f : SideFile) (outputs : PathSet) (d : Disk) : Option String :=
  (held faults f.path d).bind fun existing =>
    (f.kind.render existing outputs.paths).toOption.filter fun text =>
      (faults (.write f.path text)).isNone

variable {f : SideFile} {outputs : PathSet} {d d' : Disk} {ps names : List Name} {name : Name}

variable (faults) in
/-- An update writes this text. -/
theorem merge_world (f : SideFile) (outputs : PathSet) (d : Disk) :
    (f.merge (Disk.fileSystem.faulty faults) outputs d).2 = match f.written? faults outputs d with
      | none => d
      | some text => (d.writeText f.path text).2 := by
  have hread : (Disk.fileSystem.faulty faults).read f.path d =
      (((Disk.fileSystem.faulty faults).read f.path d).1, d) := by
    simp only [FileSystem.faulty, Disk.fileSystem]
    split <;> rfl
  have hrewrite (existing : String) :
      (f.rewrite (Disk.fileSystem.faulty faults) outputs existing d).2 =
        match (f.kind.render existing outputs.paths).toOption.filter
            fun text => (faults (.write f.path text)).isNone with
        | none => d
        | some text => (d.writeText f.path text).2 := by
    unfold rewrite
    cases f.kind.render existing outputs.paths with
    | error reason => rfl
    | ok text =>
      simp only [FileSystem.faulty, Disk.fileSystem, Except.toOption, Option.filter]
      rcases Option.eq_none_or_eq_some (faults (.write f.path text)) with hfault | ⟨cause, hfault⟩
      · simp only [hfault, Option.isNone_none, if_true]
        rcases d.writeText f.path text with ⟨_ | _, _⟩ <;> rfl
      · simp only [hfault]
        rfl
  unfold merge existing written? held
  rw [hread]
  cases ((Disk.fileSystem.faulty faults).read f.path d).1 with
  | error cause =>
    cases hfound : cause.isNotFound
    · simp [hfound]
    · simpa [hfound] using hrewrite ""
  | ok existing => simpa using hrewrite existing

/-- It depends on the text that is read. -/
theorem written_congr (h : d'.readText f.path = d.readText f.path) :
    f.written? faults outputs d' = f.written? faults outputs d := by
  have hread : ((Disk.fileSystem.faulty faults).read f.path d').1 =
      ((Disk.fileSystem.faulty faults).read f.path d).1 := by
    simp only [FileSystem.faulty, Disk.fileSystem, h]
    split <;> rfl
  rw [written?, written?, held, held, hread]

/-- Where that text is found, it would be written again, or the file may not be read. -/
theorem written_again (houtputs : EditorExclude.Listable (outputs.paths.map Path.toSlash))
    {text : String} (h : f.written? faults outputs d = some text) {mode : Nat}
    (hstat : d'.stat f.path = .ok (.file (Text.bytes text.toList) mode)) :
    f.written? faults outputs d' = some text ∨ f.written? faults outputs d' = none := by
  obtain ⟨existing, hheld, hwritten⟩ := Option.bind_eq_some_iff.mp h
  obtain ⟨hrender, hfault⟩ := Option.filter_eq_some_iff.mp hwritten
  have hrender : f.kind.render existing outputs.paths = .ok text := by
    cases hr : f.kind.render existing outputs.paths with
    | error reason => rw [hr] at hrender; cases hrender
    | ok text' => rw [hr] at hrender; rw [Option.some.inj hrender]
  unfold held at hheld
  unfold written? held
  simp only [FileSystem.faulty, Disk.fileSystem] at hheld ⊢
  cases hread : faults (.read f.path) with
  | some cause =>
    -- the reading fails as it did before
    rw [hread] at hheld
    rw [hheld]
    exact .inl hwritten
  | none =>
    by_cases hmay : (Node.file (Text.bytes text.toList) mode).mayRead = true
    · have htext : d'.readText f.path = .ok text := by
        simp [Disk.readText, Disk.readBytes, hstat, hmay, Text.ofBytes_bytes]
      left
      rw [htext]
      simp [f.kind.render_render houtputs hrender, Except.toOption, hfault]
    · right
      have htext : d'.readText f.path = .error (.permissionDenied f.path) := by
        simp [Disk.readText, Disk.readBytes, hstat, hmay, FsError.ofIo, Errno.toIo]
      rw [htext]
      rfl

variable (faults) in
/-- The folder that is made is the directory of the side file. -/
theorem prepare_eq (hends : Disk.EndsIn f.path ps name) (hmakes : isEmptyPiece name = false)
    (d : Disk) : f.prepare (Disk.fileSystem.faulty faults) d =
      match faults (.createDirs (Disk.directoryOf f.path)) with
      | some cause => (.error cause, d)
      | none => Disk.fileSystem.createDirs (Disk.directoryOf f.path) d := by
  unfold prepare
  rw [hends.parent hmakes]
  rfl

section Place

variable (hends : Disk.EndsIn f.path ps name) (hmakes : isEmptyPiece name = false)
include hends hmakes

variable (faults outputs) in
/-- At most one file is put down. -/
theorem merge_cases (hat : d.dirAt ps = some names) :
    (f.merge (Disk.fileSystem.faulty faults) outputs d).2 = d ∨
      d.MayPlace f.path names name ∧ ∃ bytes mode,
        (f.merge (Disk.fileSystem.faulty faults) outputs d).2 =
          d.putAt names name (some (.file bytes mode)) := by
  rw [merge_world]
  cases f.written? faults outputs d with
  | none => exact .inl rfl
  | some text =>
    rcases Disk.writeText_cases hends hmakes hat text with ⟨hmay, -, hwrite⟩ | ⟨-, e, hwrite⟩
    · exact .inr ⟨hmay, _, _, congrArg Prod.snd hwrite⟩
    · exact .inl (congrArg Prod.snd hwrite)

/-- A second update leaves the disk alone. -/
theorem merge_self (houtputs : EditorExclude.Listable (outputs.paths.map Path.toSlash))
    (ordered : d.top.Ordered) (hat : d.dirAt ps = some names)
    (h : (f.merge (Disk.fileSystem.faulty faults) outputs d).2 = d')
    (hat' : d'.dirAt ps = some names) :
    (f.merge (Disk.fileSystem.faulty faults) outputs d').2 = d' := by
  have hworld := merge_world faults f outputs d
  rw [h] at hworld
  cases hwritten : f.written? faults outputs d with
  | none =>
    rw [hwritten] at hworld
    rw [hworld] at h ⊢
    exact h
  | some text =>
    rw [hwritten] at hworld
    simp only at hworld
    rcases Disk.writeText_cases hends hmakes hat text with ⟨-, -, hwrite⟩ | ⟨-, e, hwrite⟩
    · rw [hwrite] at hworld
      simp only at hworld
      rw [← hworld] at hwrite
      obtain ⟨⟨mode, hstat⟩, hagain⟩ := Disk.writeText_self hends hmakes hat hat' ordered hwrite
      rw [merge_world]
      rcases written_again houtputs hwritten hstat with hsome | hnone
      · simp only [hsome, hagain]
      · simp only [hnone]
    · rw [hwrite] at hworld
      obtain rfl : d' = d := hworld
      exact h

/-- An update that left the disk alone does so on a disk that has grown elsewhere, unless the side file
is a link. -/
theorem merge_again {touched : List Name → Prop} (hgrown : Disk.Grown touched d d')
    (hat : d.dirAt ps = some names) (hat' : d'.dirAt ps = some names)
    (hentry : d'.top.outline (names ++ [name]) = d.top.outline (names ++ [name]))
    (hlink : ∀ trail target, d'.resolve f.path false ≠ .ok (.node trail (.link target)))
    (h : (f.merge (Disk.fileSystem.faulty faults) outputs d).2 = d) :
    (f.merge (Disk.fileSystem.faulty faults) outputs d').2 = d' := by
  rcases merge_cases faults outputs hends hmakes hat' with hsame | ⟨hmay, -⟩
  · exact hsame
  obtain ⟨trail, -, hon, hisDir, rfl⟩ := Disk.dirAt_eq_some_iff.mp hat
  have hnotLink := Disk.outline_ne_link hends hmay hat' hlink
  rw [hentry] at hnotLink
  have hread : d'.readText f.path = d.readText f.path := by
    have hends' : Disk.EndsIn f.path (ps ++ []) name := by rwa [List.append_nil]
    refine Disk.readText_of_stat_eq (hgrown.stat hat hat' hends' (List.forall_mem_nil _) hmay.isName
      ?_ hisDir ?_ ?_) <;> rw [List.append_nil]
    · exact hon.at_names
    · exact hentry
    · exact hnotLink
  rw [merge_world] at h ⊢
  rw [written_congr hread]
  cases hwritten : f.written? faults outputs d with
  | none => rfl
  | some text =>
    rw [hwritten] at h
    simp only at h ⊢
    rw [Disk.writeText_again hends hmakes hat hat' hgrown hentry h]

variable (faults) in
/-- What comes of making the folder of a side file is the same wherever it is there. -/
theorem exists_prepared : ∃ a, ∀ (d : Disk) (names : List Name), d.dirAt ps = some names →
    f.prepare (Disk.fileSystem.faulty faults) d = (a, d) := by
  obtain ⟨hrooted, dots, hdots, hps⟩ := hends.directoryOf hmakes
  cases hfault : faults (.createDirs (Disk.directoryOf f.path)) with
  | some cause =>
    exact ⟨.error cause, fun d _ _ => by rw [prepare_eq faults hends hmakes, hfault]⟩
  | none =>
    have hatDir {d : Disk} {names : List Name} (hat : d.dirAt ps = some names) :
        d.dirAt (Disk.piecesOf (Disk.directoryOf f.path).chars) = some names :=
      Disk.dirAt_of_dots hdots (by rwa [← hps])
    -- a folder that is there is refused only for the spelling of its path
    cases hspelling : Disk.spelling (Disk.directoryOf f.path) with
    | error _ =>
      refine ⟨.error (.ofIo (Disk.directoryOf f.path) (Disk.taken (Disk.directoryOf f.path)).toIo),
        fun d names hat => ?_⟩
      rw [prepare_eq faults hends hmakes, hfault]
      simp only [Disk.fileSystem, Disk.makeDirs_of_dirAt hrooted (hatDir hat), hspelling]
    | ok _ =>
      refine ⟨.ok (), fun d names hat => ?_⟩
      rw [prepare_eq faults hends hmakes, hfault]
      simp only [Disk.fileSystem, Disk.makeDirs_of_dirAt hrooted (hatDir hat), hspelling]

end Place

/-! ## Whole updates -/

section Update

variable {root : Path} (rooted : root.isRooted = true) (hpath : f.path = f.kind.pathIn root)
  {base : List Name}

/-- An update ends where the folder cannot be made. -/
theorem writeNow_of_error {cause : FsError} (outputs : PathSet)
    (h : f.prepare (Disk.fileSystem.faulty faults) d = (.error cause, d')) :
    (f.writeNow (Disk.fileSystem.faulty faults) outputs d).2 = d' := by
  rw [writeNow_eq, h]

/-- Otherwise it goes on with the merge. -/
theorem writeNow_of_ok (outputs : PathSet)
    (h : f.prepare (Disk.fileSystem.faulty faults) d = (.ok (), d')) :
    (f.writeNow (Disk.fileSystem.faulty faults) outputs d).2 =
      (f.merge (Disk.fileSystem.faulty faults) outputs d').2 := by
  rw [writeNow_eq, h]

variable (faults root) in
/-- The folder of a side file has been seen to: it was there, or was made under a name that was free. -/
structure Prepared (f : SideFile) (base names : List Name) (d d' : Disk) : Prop where
  answer : f.prepare (Disk.fileSystem.faulty faults) d = (.ok (), d')
  dirAt : d'.dirAt (Disk.piecesOf root.chars) = some base
  folder : d'.dirAt (Disk.piecesOf root.chars ++ f.kind.folder) = some names
  kept : Disk.Kept f.kind.OwnRow (Disk.piecesOf root.chars) base d d'
  made : d' = d ∨ ∃ n, f.kind.folder = [n] ∧ d.top.at? (base ++ [n]) = none

include rooted hpath

/-- The side file is in its folders below the root. -/
theorem endsIn : Disk.EndsIn f.path (Disk.piecesOf root.chars ++ f.kind.folder) f.kind.fileName := by
  rw [hpath]
  exact f.kind.endsIn_pathIn rooted

variable (faults) in
/-- Where the root leads to a directory, the folder is seen to unless that fails. -/
theorem prepare_cases (ordered : d.top.Ordered)
    (hat : d.dirAt (Disk.piecesOf root.chars) = some base) :
    (∃ cause, f.prepare (Disk.fileSystem.faulty faults) d = (.error cause, d)) ∨
      ∃ names d', Prepared faults root f base names d d' := by
  have hends := endsIn rooted hpath
  cases hthere : d.dirAt (Disk.piecesOf root.chars ++ f.kind.folder) with
  | some names =>
    obtain ⟨a, ha⟩ := exists_prepared faults hends f.kind.makes_fileName
    cases a with
    | error cause => exact .inl ⟨cause, ha d names hthere⟩
    | ok _ =>
      exact .inr ⟨names, d, ha d names hthere, hat, hthere, .refl ordered hat, .inl rfl⟩
  | none =>
    rcases f.kind.folder_cases with hfolder | ⟨n, hfolder, hn⟩
    · rw [hfolder, List.append_nil, hat] at hthere
      cases hthere
    · rw [hfolder] at hends hthere
      obtain ⟨hrooted, hpieces⟩ := hends.directoryOf_eq f.kind.makes_fileName hn
      have hprepare := prepare_eq faults hends f.kind.makes_fileName d
      cases hfault : faults (.createDirs (Disk.directoryOf f.path)) with
      | some cause => exact .inl ⟨cause, by rw [hprepare, hfault]⟩
      | none =>
        have hcreate : f.prepare (Disk.fileSystem.faulty faults) d =
            Disk.fileSystem.createDirs (Disk.directoryOf f.path) d := by
          rw [hprepare, hfault]
        rcases Disk.makeDirs_cases hrooted hpieces hn hat hthere with
          ⟨e, he⟩ | ⟨dir, hdir, hentering, hfree, hmade⟩
        · exact .inl ⟨.ofIo (Disk.directoryOf f.path) e.toIo, by
            rw [hcreate]
            simp only [Disk.fileSystem, he]⟩
        · obtain ⟨hkept, hat', hthere'⟩ := Disk.Kept.putDir ordered hat hn hdir hentering hfree rfl
          have hanswer : f.prepare (Disk.fileSystem.faulty faults) d =
              (.ok (), d.putAt base n (some (.dir [] 0o755))) := by
            rw [hcreate]
            simp only [Disk.fileSystem, hmade]
          refine .inr ⟨base ++ [n], _, hanswer, hat', by rwa [hfolder],
            hkept.mono fun names hnames => ?_, .inr ⟨n, hfolder, hfree⟩⟩
          rw [hnames, f.kind.ownRow_concat]
          exact f.kind.mem_ownNames_of_folder hfolder

variable (faults outputs) in
/-- A merge puts at most a side file down. -/
theorem later_merge (ordered : d.top.Ordered) {names : List Name}
    (hat : d.dirAt (Disk.piecesOf root.chars ++ f.kind.folder) = some names) :
    Disk.Later d (f.merge (Disk.fileSystem.faulty faults) outputs d).2 ∧
      Disk.Grown f.kind.OwnRow d (f.merge (Disk.fileSystem.faulty faults) outputs d).2 := by
  obtain ⟨trail, -, hon, hisDir, rfl⟩ := Disk.dirAt_eq_some_iff.mp hat
  rcases merge_cases faults outputs (endsIn rooted hpath)
    f.kind.makes_fileName hat with hsame | ⟨hmay, bytes, mode, hput⟩
  · rw [hsame]
    exact ⟨.refl ordered, .refl ordered⟩
  · rw [hput]
    refine ⟨.putAt ordered (f.kind.isAside_of_mem f.kind.fileName_mem) hon.at_names hisDir hmay.free
      fun c hc => Option.some.inj hc ▸ rfl, ?_⟩
    refine (Disk.Grown.putFile ordered hon.at_names hisDir hmay.free bytes mode).mono ?_
    exact fun other hother => hother ▸ f.kind.ownRow_concat.mpr f.kind.fileName_mem

/-- A whole update keeps the tree below the root, but for its own rows. -/
theorem kept_writeNow (ordered : d.top.Ordered)
    (hat : d.dirAt (Disk.piecesOf root.chars) = some base) :
    Disk.Kept f.kind.OwnRow (Disk.piecesOf root.chars) base d
      (f.writeNow (Disk.fileSystem.faulty faults) outputs d).2 := by
  rcases prepare_cases faults rooted hpath ordered hat with ⟨cause, herror⟩ | ⟨names, d₁, hprepared⟩
  · rw [writeNow_of_error outputs herror]
    exact .refl ordered hat
  · rw [writeNow_of_ok outputs hprepared.answer]
    obtain ⟨hlater, hgrown⟩ := later_merge faults outputs rooted hpath hprepared.kept.grown.ordered
      hprepared.folder
    exact hprepared.kept.trans (.of_later hgrown hlater hprepared.dirAt)

/-- A second update leaves the disk alone. -/
theorem writeNow_self (houtputs : EditorExclude.Listable (outputs.paths.map Path.toSlash))
    (ordered : d.top.Ordered) (hat : d.dirAt (Disk.piecesOf root.chars) = some base)
    (h : (f.writeNow (Disk.fileSystem.faulty faults) outputs d).2 = d')
    (hat' : d'.dirAt (Disk.piecesOf root.chars) = some base) :
    (f.writeNow (Disk.fileSystem.faulty faults) outputs d').2 = d' := by
  rcases prepare_cases faults rooted hpath ordered hat with ⟨cause, herror⟩ | ⟨names, d₁, hprepared⟩
  · obtain rfl : d = d' := (writeNow_of_error outputs herror).symm.trans h
    exact h
  rw [writeNow_of_ok outputs hprepared.answer] at h
  obtain ⟨hlater, hgrown⟩ := later_merge faults outputs rooted hpath hprepared.kept.grown.ordered
    hprepared.folder
  rw [h] at hlater hgrown
  rcases prepare_cases faults rooted hpath hgrown.ordered hat' with
    ⟨cause, herror⟩ | ⟨names', d₂, hprepared'⟩
  · exact writeNow_of_error outputs herror
  rcases hprepared'.made with rfl | ⟨n, hfolder, hfree⟩
  · -- the folder is the one in which the side file was written
    obtain rfl : names = names' :=
      Option.some.inj (hprepared.folder.symm.trans (hlater.dirAt hprepared'.folder))
    rw [writeNow_of_ok outputs hprepared'.answer]
    exact merge_self (endsIn rooted hpath) f.kind.makes_fileName houtputs
      hprepared.kept.grown.ordered hprepared.folder h hprepared'.folder
  · -- it has not gone since, so its name is not free
    have hn := f.kind.isAside_of_mem (f.kind.mem_ownNames_of_folder hfolder)
    have hthere := hprepared.folder
    rw [hfolder] at hthere
    exact absurd hfree (hgrown.at_ne_none (Disk.at_ne_none_of_dirAt hprepared.dirAt
      (Disk.isName_of_isName hn.isName) hthere))

/-- A side file in the root that an update left alone is left alone on a disk that has grown elsewhere,
unless it is a link. -/
theorem writeNow_again (hfolder : f.kind.folder = []) {touched : List Name → Prop}
    (hgrown : Disk.Grown touched d d') (hat : d.dirAt (Disk.piecesOf root.chars) = some base)
    (hat' : d'.dirAt (Disk.piecesOf root.chars) = some base)
    (htouched : ¬touched (base ++ [f.kind.fileName]))
    (hlink : ∀ trail target, d'.resolve f.path false ≠ .ok (.node trail (.link target)))
    (h : (f.writeNow (Disk.fileSystem.faulty faults) outputs d).2 = d) :
    (f.writeNow (Disk.fileSystem.faulty faults) outputs d').2 = d' := by
  have hends := endsIn rooted hpath
  rw [hfolder, List.append_nil] at hends
  obtain ⟨a, ha⟩ := exists_prepared faults hends f.kind.makes_fileName
  cases a with
  | error cause => exact writeNow_of_error outputs (ha d' base hat')
  | ok _ =>
    rw [writeNow_of_ok outputs (ha d base hat)] at h
    rw [writeNow_of_ok outputs (ha d' base hat')]
    exact merge_again hends f.kind.makes_fileName hgrown hat hat' (hgrown.outline_eq htouched) hlink h

/-- Where the root was a directory and is none any more, nothing is written. -/
theorem writeNow_of_gone {touched : List Name → Prop} (hgrown : Disk.Grown touched d d')
    (hat : d.dirAt (Disk.piecesOf root.chars) = some base)
    (hnone : d'.dirAt (Disk.piecesOf root.chars) = none) :
    (f.writeNow (Disk.fileSystem.faulty faults) outputs d').2 = d' := by
  have hends := endsIn rooted hpath
  have hsolid := hgrown.solid hat
  -- the pieces of the folder lead to nothing that is free
  obtain ⟨hrooted, hfolderSolid, hfolderNone⟩ :
      (Disk.directoryOf f.path).isRooted = true ∧
        d'.Solid (Disk.piecesOf (Disk.directoryOf f.path).chars) ∧
        d'.dirAt (Disk.piecesOf root.chars ++ f.kind.folder) = none := by
    rcases f.kind.folder_cases with hfolder | ⟨n, hfolder, hn⟩ <;> rw [hfolder] at hends ⊢
    · rw [List.append_nil] at hends ⊢
      obtain ⟨hrooted, dots, hdots, hps⟩ := hends.directoryOf f.kind.makes_fileName
      exact ⟨hrooted, hgrown.solid (Disk.dirAt_of_dots hdots (by rwa [← hps])), hnone⟩
    · obtain ⟨hrooted, hpieces⟩ := hends.directoryOf_eq f.kind.makes_fileName hn
      rw [hpieces]
      refine ⟨hrooted, hsolid.append hnone (List.cons_ne_nil n []), ?_⟩
      rw [Disk.dirAt, hsolid.follow_append hnone (List.cons_ne_nil n [])]
  have hmake := Disk.makeDirs_of_solid hrooted hfolderSolid
  have hmerge : (f.merge (Disk.fileSystem.faulty faults) outputs d').2 = d' := by
    rw [merge_world]
    cases f.written? faults outputs d' with
    | none => rfl
    | some text => exact Disk.writeText_of_dirAt_none hends hfolderNone hmake text
  have hprepare : (f.prepare (Disk.fileSystem.faulty faults) d').2 = d' := by
    rw [prepare_eq faults hends f.kind.makes_fileName]
    cases faults (.createDirs (Disk.directoryOf f.path)) with
    | some cause => rfl
    | none =>
      simp only [Disk.fileSystem]
      rcases hmade : d'.makeDirs (Disk.directoryOf f.path) with ⟨_ | _, d₁⟩ <;>
        rw [hmade] at hmake <;> exact hmake
  rcases hanswer : f.prepare (Disk.fileSystem.faulty faults) d' with ⟨cause | _, d₁⟩ <;>
    rw [hanswer] at hprepare <;> obtain rfl : d₁ = d' := hprepare
  · exact writeNow_of_error outputs hanswer
  · rw [writeNow_of_ok outputs hanswer]
    exact hmerge

end Update

end SideFile

end OnDisk

end ArtifactSync
