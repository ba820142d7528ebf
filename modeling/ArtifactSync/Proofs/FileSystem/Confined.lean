import ArtifactSync.Build.Executor
import ArtifactSync.Proofs.FileSystem.Memory

/-!
# Calls that reach one file

A call on a file is confined to it: no other file has another text afterwards, and a call that fails
has changed nothing (`FileSystem.Confined`). A file system is exact if what was written is the text
of the file from then on, under every spelling of its path (`FileSystem.Exact`), and truthful if so
is what was read (`FileSystem.Truthful`). Files in memory are both, whatever faults they have
(`Memory.exact`, `Memory.truthful`).
-/

namespace ArtifactSync

variable {σ : Type}

/-- Only a writing or a removal that succeeds changes a text, and only that of its own file. -/
structure FileSystem.Confined (files : FileSystem σ) (text? : Path → σ → Option String) : Prop where
  read_keeps : ∀ p q s, text? q (files.read p s).2 = text? q s
  createDirs_keeps : ∀ p q s, text? q (files.createDirs p s).2 = text? q s
  write_keeps : ∀ {p q text s}, p.same q = false ∨ succeeded (files.write p text s).1 = false →
    text? q (files.write p text s).2 = text? q s
  remove_keeps : ∀ {p q s}, p.same q = false ∨ succeeded (files.remove p s).1 = false →
    text? q (files.remove p s).2 = text? q s

/-- And what is written is what the file holds, under every spelling of its path. -/
structure FileSystem.Exact (files : FileSystem σ) (text? : Path → σ → Option String) : Prop
    extends files.Confined text? where
  write_ok : ∀ {p q text s}, p.same q = true → succeeded (files.write p text s).1 = true →
    text? q (files.write p text s).2 = some text

/-- And what is read is what the file holds. A file that has a text may still be reported
missing. -/
structure FileSystem.Truthful (files : FileSystem σ) (text? : Path → σ → Option String) : Prop
    extends files.Exact text? where
  read_ok : ∀ {p s text s'}, files.read p s = (.ok text, s') → text? p s = some text

/-- Reading, making directories, and writings that fail leave something alone. -/
structure FileSystem.Careful {γ : Type} (files : FileSystem σ) (content : σ → γ) : Prop where
  read_keeps : ∀ p s, content (files.read p s).2 = content s
  createDirs_keeps : ∀ p s, content (files.createDirs p s).2 = content s
  write_keeps : ∀ p text s, succeeded (files.write p text s).1 = false →
    content (files.write p text s).2 = content s

/-- Confined calls are careful with the text of every file. -/
theorem FileSystem.Confined.careful {files : FileSystem σ} {text? : Path → σ → Option String}
    (h : files.Confined text?) (p : Path) : files.Careful (text? p) where
  read_keeps := fun q s => h.read_keeps q p s
  createDirs_keeps := fun q s => h.createDirs_keeps q p s
  write_keeps := fun _ _ _ hfailed => h.write_keeps (.inr hfailed)

/-- The files of an executor are confined, and its compiler changes none. -/
structure Executor.Confined (x : Executor σ) (text? : Path → σ → Option String) : Prop where
  files : x.files.Confined text?
  compiler_keeps : ∀ text p q s, text? q (x.compiler text p s).2 = text? q s

/-- The files of an executor are exact, and its compiler changes none. -/
structure Executor.Exact (x : Executor σ) (text? : Path → σ → Option String) : Prop where
  files : x.files.Exact text?
  compiler_keeps : ∀ text p q s, text? q (x.compiler text p s).2 = text? q s

/-- Exact files are confined. -/
theorem Executor.Exact.confined {x : Executor σ} {text? : Path → σ → Option String}
    (h : x.Exact text?) : x.Confined text? :=
  ⟨h.files.toConfined, h.compiler_keeps⟩

/-- A compiler that only computes changes no file. -/
theorem Executor.Exact.of_pure {files : FileSystem σ} {text? : Path → σ → Option String}
    (h : files.Exact text?) (root : Path) (kind : OutputKind)
    (compile : String → Path → Except CompileError String) :
    Executor.Exact ⟨root, kind, files, .pure compile⟩ text? :=
  ⟨h, fun _ _ _ _ => rfl⟩

namespace Memory

open Path

/-- A writing fails and changes nothing, or puts the text there. -/
theorem write_cases (p : Path) (text : String) (m : Memory) :
    (∃ e, fileSystem.write p text m = (.error e, m)) ∨
      fileSystem.write p text m = (.ok (), m.put p text) := by
  refine (unlessFault_eq .write p (fun m => (Except.ok (), m.put p text)) m).imp_left ?_
  rintro ⟨f, -, -, h⟩
  exact ⟨_, h⟩

/-- A removal fails and changes nothing, or takes the file away. -/
theorem remove_cases (p : Path) (m : Memory) :
    (∃ e, fileSystem.remove p m = (.error e, m)) ∨
      fileSystem.remove p m = (.ok (), m.delete p) := by
  simp only [fileSystem, unlessFault]
  split
  · exact .inl ⟨_, rfl⟩
  · cases m.lookup? p with
    | none => exact .inl ⟨_, rfl⟩
    | some text => exact .inr rfl

/-- Files in memory are exact, whatever faults they have. -/
theorem exact : fileSystem.Exact fun p m => m.lookup? p where
  read_keeps := by
    intro p q m
    rcases read_cases p m with ⟨f, -, -, h⟩ | h
    · rw [h]
    · rw [h]
  createDirs_keeps := by
    intro p q m
    rw [createDirs_world]
  write_keeps := by
    intro p q text m h
    rcases write_cases p text m with ⟨e, hwrite⟩ | hwrite
    · rw [hwrite]
    · rw [hwrite] at h ⊢
      exact lookup_put_of_ne m (h.resolve_right (by simp [succeeded])) text
  remove_keeps := by
    intro p q m h
    rcases remove_cases p m with ⟨e, hremove⟩ | hremove
    · rw [hremove]
    · rw [hremove] at h ⊢
      exact lookup_delete_of_ne m (h.resolve_right (by simp [succeeded]))
  write_ok := by
    intro p q text m hsame h
    rcases write_cases p text m with ⟨e, hwrite⟩ | hwrite
    · rw [hwrite] at h
      cases h
    · rw [hwrite]
      exact (lookup_congr _ hsame).symm.trans (lookup_put m p text)

/-- Files in memory are truthful, whatever faults they have. -/
theorem truthful : fileSystem.Truthful fun p m => m.lookup? p :=
  ⟨exact, read_ok⟩

end Memory

end ArtifactSync
