import ArtifactSync.Proofs.FileSystem.Confined
import ArtifactSync.Proofs.Watch.Calls

/-!
# Changes that come to nothing

A change that is ignored leaves everything as it was. One that fails leaves the session as it was,
and all that reading, compiling and failed writings leave alone (`Executor.Careful`): above all the
texts of files. What is left of it is one event with the first stage that failed.

`Executor.Fails` lists the three ways in which a build can fail, each with what was done up to there,
and `build_eq_error_iff` shows that there are no others. What was done is taken down by an executor
that keeps a record of its steps (`Executor.traced`), so that it shows what was not done, too
(`Fails.traced`).
-/

namespace ArtifactSync

open Artifact

variable {σ : Type}

/-! ## Records of what was done -/

/-- One thing that an executor did, and whether it succeeded. -/
inductive Executor.Step where
  | file (call : LoggedCall)
  | compile (text : String) (source : Path) (succeeded : Bool)
  deriving DecidableEq

/-- A world with a record of what an executor did in it, in order. -/
structure Traced (σ : Type) where
  world : σ
  steps : List Executor.Step

/-- Does one thing inside a traced world and takes it down. -/
def Traced.record {ε α : Type} (step : Bool → Executor.Step) (run : σ → Except ε α × σ)
    (s : Traced σ) : Except ε α × Traced σ :=
  let (answer, world) := run s.world
  (answer, ⟨world, s.steps ++ [step (succeeded answer)]⟩)

/-- What a recorded step comes to. -/
theorem Traced.record_eq_iff {ε α : Type} (step : Bool → Executor.Step)
    (run : σ → Except ε α × σ) {s s' : Traced σ} {answer : Except ε α} :
    Traced.record step run s = (answer, s') ↔
      run s.world = (answer, s'.world) ∧ s'.steps = s.steps ++ [step (succeeded answer)] := by
  obtain ⟨world, steps⟩ := s'
  rcases hrun : run s.world with ⟨answer', world'⟩
  simp only [record, hrun, Prod.mk.injEq, mk.injEq]
  constructor
  · rintro ⟨rfl, rfl, rfl⟩
    exact ⟨⟨rfl, rfl⟩, rfl⟩
  · rintro ⟨⟨rfl, rfl⟩, rfl⟩
    exact ⟨rfl, rfl, rfl⟩

namespace Executor

/-- The same executor in a world that keeps a record of its steps. -/
def traced (x : Executor σ) : Executor (Traced σ) where
  root := x.root
  kind := x.kind
  files := {
    read := fun p => Traced.record (fun done => .file ⟨.read p, done⟩) (x.files.read p)
    write := fun p text =>
      Traced.record (fun done => .file ⟨.write p text, done⟩) (x.files.write p text)
    remove := fun p => Traced.record (fun done => .file ⟨.remove p, done⟩) (x.files.remove p)
    createDirs := fun p =>
      Traced.record (fun done => .file ⟨.createDirs p, done⟩) (x.files.createDirs p) }
  compiler := fun text source => Traced.record (.compile text source) (x.compiler text source)

variable {x : Executor σ} {source p : Path} {text : String}

/-- A recorded reading. -/
theorem traced_read_iff {s s' : Traced σ} {answer : Except FsError String} :
    x.traced.files.read p s = (answer, s') ↔ x.files.read p s.world = (answer, s'.world) ∧
      s'.steps = s.steps ++ [.file ⟨.read p, succeeded answer⟩] :=
  Traced.record_eq_iff (fun done => .file ⟨.read p, done⟩) (x.files.read p)

/-- A recorded compilation. -/
theorem traced_compiler_iff {s s' : Traced σ} {answer : Except CompileError String} :
    x.traced.compiler text p s = (answer, s') ↔ x.compiler text p s.world = (answer, s'.world) ∧
      s'.steps = s.steps ++ [.compile text p (succeeded answer)] :=
  Traced.record_eq_iff (.compile text p) (x.compiler text p)

/-- A recorded writing. -/
theorem traced_write_iff {s s' : Traced σ} {answer : Except FsError Unit} :
    x.traced.files.write p text s = (answer, s') ↔ x.files.write p text s.world = (answer, s'.world) ∧
      s'.steps = s.steps ++ [.file ⟨.write p text, succeeded answer⟩] :=
  Traced.record_eq_iff (fun done => .file ⟨.write p text, done⟩) (x.files.write p text)

/-! ## Builds that fail -/

/-- The ways in which a build can fail in a world, each with the error, what was done, and the world
left behind. Nothing is done after the step that failed. -/
inductive Fails (x : Executor σ) (source : Path) (s : σ) : BuildError → List Step → σ → Prop
  | read {cause : FsError} {s' : σ}
      (reading : x.files.read (x.root.join source) s = (.error cause, s')) :
      Fails x source s (.read source cause) [.file ⟨.read (x.root.join source), false⟩] s'
  | compile {text : String} {cause : CompileError} {s₁ s' : σ}
      (reading : x.files.read (x.root.join source) s = (.ok text, s₁))
      (compiling : x.compiler text source s₁ = (.error cause, s')) :
      Fails x source s (.compile source cause)
        [.file ⟨.read (x.root.join source), true⟩, .compile text source false] s'
  | write {text compiled : String} {cause : FsError} {s₁ s₂ s' : σ}
      (reading : x.files.read (x.root.join source) s = (.ok text, s₁))
      (compiling : x.compiler text source s₁ = (.ok compiled, s₂))
      (writing : x.files.write (x.root.join (x.outputFor source)) (withHeader source compiled) s₂ =
        (.error cause, s')) :
      Fails x source s (.write source (x.outputFor source) cause)
        [.file ⟨.read (x.root.join source), true⟩, .compile text source true,
          .file ⟨.write (x.root.join (x.outputFor source)) (withHeader source compiled), false⟩] s'

/-- Only reading, compiling and failed writings leave something alone. -/
structure Careful {γ : Type} (x : Executor σ) (content : σ → γ) : Prop where
  read_keeps : ∀ p s, content (x.files.read p s).2 = content s
  compiler_keeps : ∀ text p s, content (x.compiler text p s).2 = content s
  write_keeps : ∀ p text s, succeeded (x.files.write p text s).1 = false →
    content (x.files.write p text s).2 = content s

/-- An executor whose calls are confined to one file each is careful with the text of every file. -/
theorem Confined.careful {text? : Path → σ → Option String} (hx : x.Confined text?) (p : Path) :
    x.Careful (text? p) where
  read_keeps := fun q s => hx.files.read_keeps q p s
  compiler_keeps := fun text q s => hx.compiler_keeps text q p s
  write_keeps := fun _ _ _ hfailed => hx.files.write_keeps (.inr hfailed)

/-- A build fails in one of the ways that `Fails` lists. -/
theorem build_eq_error_iff {s s' : σ} {e : BuildError} :
    x.build source s = (.error e, s') ↔ ∃ steps, x.Fails source s e steps s' := by
  constructor
  · intro h
    unfold build at h
    split at h
    · next cause s₁ hread =>
      cases h
      exact ⟨_, .read hread⟩
    · next text s₁ hread =>
      split at h
      · next cause s₂ hcompile =>
        cases h
        exact ⟨_, .compile hread hcompile⟩
      · next compiled s₂ hcompile =>
        dsimp only at h
        split at h
        · next cause s₃ hwrite =>
          cases h
          exact ⟨_, .write hread hcompile hwrite⟩
        · cases h
  · rintro ⟨steps, hfails⟩
    cases hfails with
    | read reading => simp only [build, reading]
    | compile reading compiling => simp only [build, reading, compiling]
    | write reading compiling writing => simp only [build, reading, compiling, writing]

namespace Fails

variable {e : BuildError} {steps : List Step}

/-- The error is about the source. -/
theorem source_eq {s s' : σ} (h : x.Fails source s e steps s') : e.source = source := by
  cases h <;> rfl

/-- A build that fails leaves alone what the executor is careful with. -/
theorem keeps {γ : Type} {content : σ → γ} (hx : x.Careful content) {s s' : σ}
    (h : x.Fails source s e steps s') : content s' = content s := by
  cases h with
  | read reading =>
    have hread := hx.read_keeps (x.root.join source) s
    rwa [reading] at hread
  | @compile text cause s₁ s' reading compiling =>
    have hread := hx.read_keeps (x.root.join source) s
    have hcompile := hx.compiler_keeps text source s₁
    rw [reading] at hread
    rw [compiling] at hcompile
    exact hcompile.trans hread
  | @write text compiled cause s₁ s₂ s' reading compiling writing =>
    have hread := hx.read_keeps (x.root.join source) s
    have hcompile := hx.compiler_keeps text source s₁
    have hwrite := hx.write_keeps (x.root.join (x.outputFor source)) (withHeader source compiled) s₂
    rw [reading] at hread
    rw [compiling] at hcompile
    rw [writing] at hwrite
    calc content s' = content s₂ := hwrite rfl
      _ = content s₁ := hcompile
      _ = content s := hread

/-- A build that fails in a traced world fails in the world itself, and what it did is taken down. -/
theorem traced {s s' : Traced σ} (h : x.traced.Fails source s e steps s') :
    x.Fails source s.world e steps s'.world ∧ s'.steps = s.steps ++ steps := by
  cases h with
  | read reading =>
    obtain ⟨hread, hsteps⟩ := traced_read_iff.mp reading
    exact ⟨.read hread, hsteps⟩
  | @compile text cause s₁ s' reading compiling =>
    obtain ⟨hread, hsteps₁⟩ := traced_read_iff.mp reading
    obtain ⟨hcompile, hsteps⟩ := traced_compiler_iff.mp compiling
    refine ⟨.compile hread hcompile, ?_⟩
    rw [hsteps, hsteps₁, List.append_assoc]
    rfl
  | @write text compiled cause s₁ s₂ s' reading compiling writing =>
    obtain ⟨hread, hsteps₁⟩ := traced_read_iff.mp reading
    obtain ⟨hcompile, hsteps₂⟩ := traced_compiler_iff.mp compiling
    obtain ⟨hwrite, hsteps⟩ := traced_write_iff.mp writing
    refine ⟨.write hread hcompile hwrite, ?_⟩
    rw [hsteps, hsteps₂, hsteps₁, List.append_assoc, List.append_assoc]
    rfl

end Fails

end Executor

/-! ## Changes -/

namespace Run

/-- All that is left of a change that failed: the word of the first stage that did. -/
structure OnlyTold (x : Executor σ) (source : Path) (r r' : Run (Traced σ)) (e : BuildError)
    (steps : List Executor.Step) : Prop where
  /-- Sources, outputs, phase, and what is pending for the side files are as they were. -/
  session : r'.session = r.session
  /-- So is the text of every file, and whatever else the executor is careful with. -/
  contents : ∀ {γ : Type} {content : σ → γ}, x.Careful content →
    content r'.world.world = content r.world.world
  events : r'.events =
    r.events ++ [.fileFailed (String.ofList source.toSlash) e.stage e.toString]
  recorded : r'.world.steps = r.world.steps ++ steps
  /-- What was done is what leads to the stage that failed. -/
  fails : x.Fails source r.world.world e steps r'.world.world

/-- A build that fails leaves nothing but the word of it. -/
theorem onlyTold_of_build {x : Executor σ} {r r' : Run (Traced σ)} {source : Path}
    {trigger : Trigger} (h : r.build x.traced source trigger = (none, r')) :
    ∃ e steps, OnlyTold x source r r' e steps := by
  obtain ⟨e, s, hbuild, rfl⟩ := build_none h
  obtain ⟨steps, hfails⟩ := Executor.build_eq_error_iff.mp hbuild
  -- the event names the source of the error, which is the one that was to be built
  obtain ⟨hworld, hsteps⟩ := hfails.traced
  refine ⟨e, steps, rfl, fun hx => hworld.keeps hx, ?_, hsteps, hworld⟩
  have hsource : e.source = source := hworld.source_eq
  rw [← hsource]
  rfl

/-- A change that is ignored changes nothing: it does nothing, and no one is told. Of a change that
fails nothing is left but the word of the first stage that did. -/
theorem handle_atomic (x : Executor σ) (r : Run (Traced σ)) (change : Change) (now : Nat) :
    let answer := r.handle x.traced change now
    (answer.1 = .ignored → answer.2 = r) ∧
      (answer.1 = .failed → ∃ e steps, OnlyTold x change.path r answer.2 e steps) := by
  intro answer
  have hhandled : Handled x.traced change now r answer.1 answer.2 := handled x.traced change now r
  generalize answer.1 = outcome at hhandled ⊢
  generalize answer.2 = r' at hhandled ⊢
  cases hhandled with
  | ignored => exact ⟨fun _ => rfl, fun h => by cases h⟩
  | failed trigger watching source build =>
    exact ⟨fun h => (by cases h), fun _ => onlyTold_of_build build⟩
  | added | rebuilt | mended | removed | removedBelow =>
    exact ⟨fun h => (by cases h), fun h => by cases h⟩

/-- A source appears whose output cannot be written: the text of an earlier output stays. -/
theorem handle_atomic_unwritable :
    let x : Executor Memory := ⟨⟨['/']⟩, .ts, Memory.fileSystem, .pure fun text _ => .ok text⟩
    let source : Path := .ofString "a.civet"
    let output : Path := .ofString "/a.ts"
    let s : Memory :=
      ⟨[(.ofString "/a.civet", "x"), (output, "old")], [((.write, output), .denied)]⟩
    let r := (fresh (.new x.root true true 0) ⟨s, []⟩).start x.traced [] 0
    let answer := r.handle x.traced ⟨.add, source⟩ 1
    answer.1 = .failed ∧ (∃ e steps, OnlyTold x source r answer.2 e steps) ∧
      answer.2.world.world.lookup? output = some "old" := by
  intro x source output s r answer
  have hfailed : answer.1 = .failed := by decide
  obtain ⟨e, steps, htold⟩ := (handle_atomic x r ⟨.add, source⟩ 1).2 hfailed
  have hx : x.Confined fun p m => m.lookup? p := (Executor.Exact.of_pure Memory.exact _ _ _).confined
  refine ⟨hfailed, ⟨e, steps, htold⟩, ?_⟩
  calc answer.2.world.world.lookup? output = r.world.world.lookup? output :=
        htold.contents (hx.careful output)
    _ = some "old" := by decide

end Run

end ArtifactSync
