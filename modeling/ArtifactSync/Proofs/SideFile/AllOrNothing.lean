import ArtifactSync.Proofs.Disk.Careful
import ArtifactSync.Proofs.Watch.Log

/-!
# Updates that are all or nothing

An update of a side file has four stages: its directory is made, the file is read, what it holds is
merged with the outputs, and the outcome is written. `SideFile.Goes` lists the ways in which that
can go, each with the calls that were made, and `writeNow_logged` shows that there are no others. Of
all the errors that a reading can end with only one lets an update go on, the one that says that the
file is not there (`Tells`).

So an update is all or nothing (`writeNow_allOrNothing`): its one write is made exactly if the
stages in front of it succeed (`Ready`), and an update that fails leaves alone whatever is left
alone by reading, by making directories, and by writings that fail (`FileSystem.Careful`). On a disk
these are the files (`Disk.careful`).
-/

namespace ArtifactSync

open Path

variable {σ : Type}

/-- One kind of error of the operating system says that a file is not there, and no other. -/
theorem FsError.isNotFound_ofIo (path : Path) (e : IoError) :
    (FsError.ofIo path e).isNotFound = true ↔ e.kind = .notFound := by
  obtain ⟨kind, text⟩ := e
  cases kind <;> simp [FsError.ofIo, FsError.isNotFound]

/-- What a recorded call comes to. -/
theorem Logged.record_eq_iff {ε α : Type} (call : Call) (run : σ → Except ε α × σ) {s s' : Logged σ}
    {answer : Except ε α} : Logged.record call run s = (answer, s') ↔
      run s.world = (answer, s'.world) ∧ s'.calls = s.calls ++ [⟨call, succeeded answer⟩] := by
  obtain ⟨world, calls⟩ := s'
  rcases hrun : run s.world with ⟨answer', world'⟩
  simp only [record, hrun, Prod.mk.injEq, mk.injEq]
  constructor
  · rintro ⟨rfl, rfl, rfl⟩
    exact ⟨⟨rfl, rfl⟩, rfl⟩
  · rintro ⟨⟨rfl, rfl⟩, rfl⟩
    exact ⟨rfl, rfl, rfl⟩

/-- The calls that write or remove a file, or are meant to. -/
def changes (calls : List LoggedCall) : List LoggedCall :=
  calls.filter (·.call.target?.isSome)

/-! ## The stages of an update -/

/-- The answer of a reading tells what a file holds: its text, or nothing if it is not there. -/
inductive Tells : Except FsError String → String → Prop
  | text (existing : String) : Tells (.ok existing) existing
  | missing (path : Path) : Tells (.error (.notFound path)) ""

namespace Tells

/-- An answer tells one thing. -/
theorem unique {answer : Except FsError String} {first second : String} (h : Tells answer first)
    (h' : Tells answer second) : first = second := by
  cases h <;> cases h' <;> rfl

/-- An error that is another one tells nothing. -/
theorem isNotFound {cause : FsError} {existing : String} (h : Tells (.error cause) existing) :
    cause.isNotFound = true := by
  cases h
  rfl

end Tells

namespace SideFile

variable {f : SideFile} {files : FileSystem σ} {outputs : PathSet} {s s' s₂ : σ}
  {calls : List LoggedCall} {result : SyncResult}

/-- The call that makes the directory of a side file. There is none if the path is a name alone. -/
def preparing (f : SideFile) (done : Bool) : List LoggedCall :=
  (f.path.parent?.map fun parent => ⟨.createDirs parent, done⟩).toList

/-- The directory of a side file can be made, and then reading the file gives this answer. -/
def Finds (f : SideFile) (files : FileSystem σ) (s : σ) (answer : Except FsError String) (s₂ : σ) :
    Prop :=
  ∃ s₁, f.prepare files s = (.ok (), s₁) ∧ files.read f.path s₁ = (answer, s₂)

/-- An update gets to its write: it finds what the file holds, and that can be merged. -/
structure Ready (f : SideFile) (files : FileSystem σ) (outputs : PathSet) (s : σ)
    (existing text : String) (s₂ : σ) : Prop where
  found : ∃ answer, f.Finds files s answer s₂ ∧ Tells answer existing
  merged : f.kind.render existing outputs.paths = .ok text

/-- The ways in which an update can go: the calls that were made, what it answers, and the world
left behind. Nothing is done after a stage that fails, and that is the stage of the error. -/
inductive Goes (f : SideFile) (files : FileSystem σ) (outputs : PathSet) (s : σ) :
    List LoggedCall → SyncResult → σ → Prop
  | prepare {cause : FsError} {s' : σ} (preparing : f.prepare files s = (.error cause, s')) :
      Goes f files outputs s (f.preparing false) (.error (.prepare f.path cause)) s'
  | read {cause : FsError} {s' : σ} (found : f.Finds files s (.error cause) s')
      (other : cause.isNotFound = false) :
      Goes f files outputs s (f.preparing true ++ [⟨.read f.path, false⟩])
        (.error (.read f.path cause)) s'
  | parse {answer : Except FsError String} {existing reason : String} {s' : σ}
      (found : f.Finds files s answer s') (told : Tells answer existing)
      (merging : f.kind.render existing outputs.paths = .error reason) :
      Goes f files outputs s (f.preparing true ++ [⟨.read f.path, succeeded answer⟩])
        (.error (.parse f.path reason)) s'
  | write {answer : Except FsError String} {existing text : String} {cause : FsError} {s₂ s' : σ}
      (found : f.Finds files s answer s₂) (told : Tells answer existing)
      (merging : f.kind.render existing outputs.paths = .ok text)
      (writing : files.write f.path text s₂ = (.error cause, s')) :
      Goes f files outputs s
        (f.preparing true ++ [⟨.read f.path, succeeded answer⟩, ⟨.write f.path text, false⟩])
        (.error (.write f.path cause)) s'
  | done {answer : Except FsError String} {existing text : String} {s₂ s' : σ}
      (found : f.Finds files s answer s₂) (told : Tells answer existing)
      (merging : f.kind.render existing outputs.paths = .ok text)
      (writing : files.write f.path text s₂ = (.ok (), s')) :
      Goes f files outputs s
        (f.preparing true ++ [⟨.read f.path, succeeded answer⟩, ⟨.write f.path text, true⟩])
        (.ok ⟨f.kind, f.path, outputs.size⟩) s'

/-- What a reading answers is what the file holds, or an error that ends the update. -/
theorem existing_cases (f : SideFile) (files : FileSystem σ) (s : σ) :
    (∃ existing, Tells (files.read f.path s).1 existing ∧
      f.existing files s = (.ok existing, (files.read f.path s).2)) ∨
    ∃ cause, (files.read f.path s).1 = .error cause ∧ cause.isNotFound = false ∧
      f.existing files s = (.error cause, (files.read f.path s).2) := by
  unfold SideFile.existing
  rcases files.read f.path s with ⟨cause | text, s₁⟩
  · cases cause with
    | notFound path => exact .inl ⟨_, .missing path, rfl⟩
    | permissionDenied | notText | io | other => exact .inr ⟨_, rfl, rfl, rfl⟩
  · exact .inl ⟨_, .text text, rfl⟩

/-- Making the directory of a side file is recorded. -/
theorem prepare_logged {s s' : Logged σ} {answer : Except FsError Unit}
    (h : f.prepare files.logged s = (answer, s')) : f.prepare files s.world = (answer, s'.world) ∧
      s'.calls = s.calls ++ f.preparing (succeeded answer) := by
  unfold SideFile.prepare preparing at *
  cases hparent : f.path.parent? with
  | none =>
    rw [hparent] at h
    cases h
    exact ⟨rfl, (List.append_nil _).symm⟩
  | some parent =>
    rw [hparent] at h
    exact (Logged.record_eq_iff _ _).mp h

/-- An update goes in one of the ways that `Goes` lists, and its calls are recorded. -/
theorem writeNow_logged (f : SideFile) (files : FileSystem σ) (outputs : PathSet) (s : Logged σ) :
    let answer := f.writeNow files.logged outputs s
    ∃ calls, answer.2.calls = s.calls ++ calls ∧
      f.Goes files outputs s.world calls answer.1 answer.2.world := by
  rcases hprepare : f.prepare files.logged s with ⟨cause | _, s₁⟩
  · obtain ⟨hworld, hcalls⟩ := prepare_logged hprepare
    simp only [writeNow, hprepare]
    exact ⟨_, hcalls, .prepare hworld⟩
  · obtain ⟨hworld, hcalls⟩ := prepare_logged hprepare
    rcases hread : files.logged.read f.path s₁ with ⟨answer, s₂⟩
    obtain ⟨hreading, hcalls₂⟩ := (Logged.record_eq_iff _ _).mp hread
    have hfinds : f.Finds files s.world answer s₂.world := ⟨_, hworld, hreading⟩
    rw [hcalls, List.append_assoc] at hcalls₂
    -- only a missing file lets the update go on without a text
    have hcases := existing_cases f files.logged s₁
    rw [hread] at hcases
    rcases hcases with ⟨existing, htells, hexisting⟩ | ⟨cause, rfl, hother, hexisting⟩
    · cases hrender : f.kind.render existing outputs.paths with
      | error reason =>
        simp only [writeNow, hprepare, hexisting, hrender]
        exact ⟨_, hcalls₂, .parse hfinds htells hrender⟩
      | ok text =>
        rcases hwrite : files.logged.write f.path text s₂ with ⟨answer', s₃⟩
        obtain ⟨hwriting, hcalls₃⟩ := (Logged.record_eq_iff _ _).mp hwrite
        rw [hcalls₂, List.append_assoc, List.append_assoc] at hcalls₃
        cases answer' with
        | error cause =>
          simp only [writeNow, hprepare, hexisting, hrender, hwrite]
          exact ⟨_, hcalls₃, .write hfinds htells hrender hwriting⟩
        | ok _ =>
          simp only [writeNow, hprepare, hexisting, hrender, hwrite]
          exact ⟨_, hcalls₃, .done hfinds htells hrender hwriting⟩
    · simp only [writeNow, hprepare, hexisting]
      exact ⟨_, hcalls₂, .read hfinds hother⟩

/-! ## What an update leaves alone -/

/-- What is found in a world is one thing. -/
theorem Finds.unique {answer answer' : Except FsError String} {s₂' : σ}
    (h : f.Finds files s answer s₂) (h' : f.Finds files s answer' s₂') :
    answer = answer' ∧ s₂ = s₂' := by
  obtain ⟨s₁, hprepare, hread⟩ := h
  obtain ⟨s₁', hprepare', hread'⟩ := h'
  cases hprepare.symm.trans hprepare'
  cases hread.symm.trans hread'
  exact ⟨rfl, rfl⟩

/-- Making the directory of a side file leaves alone what directories leave alone. -/
theorem prepare_careful {γ : Type} {content : σ → γ} (hfiles : files.Careful content) (s : σ) :
    content (f.prepare files s).2 = content s := by
  unfold SideFile.prepare
  split
  · exact hfiles.createDirs_keeps _ s
  · rfl

/-- Finding out what a file holds changes nothing. -/
theorem Finds.keeps {γ : Type} {content : σ → γ} (hfiles : files.Careful content)
    {answer : Except FsError String} (h : f.Finds files s answer s₂) : content s₂ = content s := by
  obtain ⟨s₁, hprepare, hread⟩ := h
  have hdirs := prepare_careful (f := f) hfiles s
  have hreads := hfiles.read_keeps f.path s₁
  rw [hprepare] at hdirs
  rw [hread] at hreads
  exact hreads.trans hdirs

/-- Nothing is written before the file is. -/
@[simp] theorem changes_preparing (f : SideFile) (done : Bool) (calls : List LoggedCall) :
    changes (f.preparing done ++ calls) = changes calls := by
  unfold changes preparing
  cases f.path.parent? <;> simp [Call.target?]

/-- An update that gets to its write makes that one and no other. -/
theorem Goes.changes_of_ready (h : f.Goes files outputs s calls result s') {existing text : String}
    (hready : f.Ready files outputs s existing text s₂) :
    changes calls = [⟨.write f.path text, succeeded (files.write f.path text s₂).1⟩] := by
  obtain ⟨⟨answer, hfound, htells⟩, hmerged⟩ := hready
  -- every stage has one outcome, so none in front of the write has failed
  cases h with
  | prepare preparing =>
    obtain ⟨s₁, hprepare, -⟩ := hfound
    cases preparing.symm.trans hprepare
  | read found other =>
    obtain ⟨rfl, -⟩ := hfound.unique found
    rw [htells.isNotFound] at other
    cases other
  | parse found told merging =>
    obtain ⟨rfl, -⟩ := hfound.unique found
    obtain rfl := htells.unique told
    cases merging.symm.trans hmerged
  | write found told merging writing =>
    obtain ⟨rfl, rfl⟩ := hfound.unique found
    obtain rfl := htells.unique told
    cases merging.symm.trans hmerged
    rw [changes_preparing, writing]
    rfl
  | done found told merging writing =>
    obtain ⟨rfl, rfl⟩ := hfound.unique found
    obtain rfl := htells.unique told
    cases merging.symm.trans hmerged
    rw [changes_preparing, writing]
    rfl

/-- An update that does not get there writes nothing. -/
theorem Goes.changes_of_not_ready (h : f.Goes files outputs s calls result s')
    (hunready : ∀ existing text s₂, ¬f.Ready files outputs s existing text s₂) :
    changes calls = [] := by
  cases h with
  | prepare preparing =>
    have hnil := changes_preparing f false []
    rwa [List.append_nil] at hnil
  | read found other => exact changes_preparing ..
  | parse found told merging => exact changes_preparing ..
  | write found told merging writing => exact (hunready _ _ _ ⟨⟨_, found, told⟩, merging⟩).elim
  | done found told merging writing => exact (hunready _ _ _ ⟨⟨_, found, told⟩, merging⟩).elim

/-- An update that fails changes nothing. -/
theorem Goes.keeps {γ : Type} {content : σ → γ} (hfiles : files.Careful content)
    {e : SideFileError} (h : f.Goes files outputs s calls (.error e) s') :
    content s' = content s := by
  cases h with
  | prepare preparing =>
    have hdirs := prepare_careful (f := f) hfiles s
    rwa [preparing] at hdirs
  | read found other => exact found.keeps hfiles
  | parse found told merging => exact found.keeps hfiles
  | @write answer existing text cause s₂ s' found told merging writing =>
    have hwrite := hfiles.write_keeps f.path text s₂
    rw [writing] at hwrite
    exact (hwrite rfl).trans (found.keeps hfiles)

/-- The error of an update is about the side file. -/
theorem Goes.path_eq {e : SideFileError} (h : f.Goes files outputs s calls (.error e) s') :
    e.path = f.path := by
  cases h <;> rfl

/-- What an update has merged is the text of the file, or nothing if the file was reported
missing. -/
theorem Ready.previous {existing text : String} (h : f.Ready files outputs s existing text s₂)
    {text? : Path → σ → Option String} (hfiles : files.Truthful text?) :
    text? f.path s = some existing ∨
      existing = "" ∧ ∃ path, f.Finds files s (.error (.notFound path)) s₂ := by
  obtain ⟨⟨answer, hfound, htells⟩, -⟩ := h
  cases htells with
  | text =>
    obtain ⟨s₁, hprepare, hread⟩ := hfound
    have hdirs := prepare_careful (f := f) (hfiles.toConfined.careful f.path) s
    rw [hprepare] at hdirs
    exact .inl (hdirs.symm.trans (hfiles.read_ok hread))
  | missing path => exact .inr ⟨rfl, path, hfound⟩

/-! ## All or nothing -/

/-- An update writes once if it gets there, and otherwise changes nothing. -/
structure AllOrNothing (f : SideFile) (files : FileSystem σ) (outputs : PathSet) (s : σ)
    (calls : List LoggedCall) (result : SyncResult) (s' : σ) : Prop where
  /-- An error is that of the first stage that failed. -/
  goes : f.Goes files outputs s calls result s'
  /-- An update that gets to its write makes that one and no other, -/
  ready : ∀ {existing text s₂}, f.Ready files outputs s existing text s₂ →
    changes calls = [⟨.write f.path text, succeeded (files.write f.path text s₂).1⟩]
  /-- and one that does not makes none. -/
  unready : (∀ existing text s₂, ¬f.Ready files outputs s existing text s₂) → changes calls = []
  /-- An error is about the side file, and all else is as it was. -/
  failed : ∀ {e}, result = .error e → e.path = f.path ∧
    ∀ {γ : Type} {content : σ → γ}, files.Careful content → content s' = content s
  /-- An update that succeeds leaves in the file what rendering makes of the text before it, or of
  nothing if the file was reported missing, and leaves every other file as it was. -/
  succeeded : ∀ {report}, result = .ok report → report = ⟨f.kind, f.path, outputs.size⟩ ∧
    ∃ existing text s₂, f.Ready files outputs s existing text s₂ ∧
      ∀ {text?}, files.Truthful text? →
        (text? f.path s = some existing ∨
          existing = "" ∧ ∃ path, f.Finds files s (.error (.notFound path)) s₂) ∧
        text? f.path s' = some text ∧ ∀ p, f.path.same p = false → text? p s' = text? p s

/-- Updates are all or nothing. -/
theorem writeNow_allOrNothing (f : SideFile) (files : FileSystem σ) (outputs : PathSet)
    (s : Logged σ) :
    let answer := f.writeNow files.logged outputs s
    ∃ calls, answer.2.calls = s.calls ++ calls ∧
      f.AllOrNothing files outputs s.world calls answer.1 answer.2.world := by
  intro answer
  obtain ⟨calls, hcalls, hgoes⟩ := writeNow_logged f files outputs s
  refine ⟨calls, hcalls, hgoes, hgoes.changes_of_ready, hgoes.changes_of_not_ready, ?_, ?_⟩
  · intro e he
    rw [he] at hgoes
    exact ⟨hgoes.path_eq, fun hfiles => hgoes.keeps hfiles⟩
  · intro report hreport
    rw [hreport] at hgoes
    cases hgoes with
    | @done answer existing text s₂ s' found told merging writing =>
      have hready : f.Ready files outputs s.world existing text s₂ := ⟨⟨_, found, told⟩, merging⟩
      refine ⟨rfl, existing, text, s₂, hready, fun {text?} hfiles => ?_⟩
      refine ⟨hready.previous hfiles, ?_, ?_⟩
      · -- the write was the last call, so what it wrote is still there
        have hleft : succeeded (files.write f.path text s₂).1 = true →
            text? f.path (files.write f.path text s₂).2 = some text :=
          hfiles.write_ok (same_refl f.path)
        rw [writing] at hleft
        exact hleft rfl
      · intro p hp
        have hwrite : text? p (files.write f.path text s₂).2 = text? p s₂ :=
          hfiles.write_keeps (.inl hp)
        rw [writing] at hwrite
        exact hwrite.trans (found.keeps (hfiles.toConfined.careful p))

/-- Editor settings that are no JSON stay, with every other file on the disk. -/
theorem writeNow_allOrNothing_malformed :
    let f : SideFile := .new .editorExclude (.ofString "/p") true 0
    let d : Disk := ⟨.dir [("p".toList, .dir [(".vscode".toList, .dir [("settings.json".toList,
      .file (Text.bytes "\x7b not json".toList) 0o644)] 0o755)] 0o755)] 0o755, []⟩
    let answer := f.writeNow Disk.fileSystem.logged (.ofList [.ofString "a.ts"]) ⟨d, []⟩
    answer.1 = .error (.parse f.path
        "Expected a colon after the string or word in an object property on line 1 column 7.") ∧
      changes answer.2.calls = [] ∧ answer.2.world.files = d.files := by
  intro f d answer
  obtain ⟨calls, -, h⟩ :=
    writeNow_allOrNothing f Disk.fileSystem (.ofList [.ofString "a.ts"]) ⟨d, []⟩
  have hfailed : answer.1 = .error (.parse f.path
      "Expected a colon after the string or word in an object property on line 1 column 7.") := by
    decide +kernel
  exact ⟨hfailed, by decide +kernel, (h.failed hfailed).2 Disk.careful⟩

end SideFile

end ArtifactSync
