import ArtifactSync.Proofs.Disk.Build
import ArtifactSync.Proofs.FileSystem.Confined

/-!
# What calls on a disk leave alone

Directories are made where nothing is, and a writing that fails has made directories at most. So
every file that stands somewhere on a disk stays there, and none comes (`Disk.careful`), whatever
faults the calls have besides (`FileSystem.Careful.faulty`).
-/

namespace ArtifactSync

open Path

/-- Faults do not make calls less careful: a call that a fault hits does nothing. -/
theorem FileSystem.Careful.faulty {σ γ : Type} {files : FileSystem σ} {content : σ → γ}
    (h : files.Careful content) (faults : Call → Option FsError) :
    (files.faulty faults).Careful content where
  read_keeps := by
    intro p s
    simp only [FileSystem.faulty]
    split
    · rfl
    · exact h.read_keeps p s
  createDirs_keeps := by
    intro p s
    simp only [FileSystem.faulty]
    split
    · rfl
    · exact h.createDirs_keeps p s
  write_keeps := by
    intro p text s
    simp only [FileSystem.faulty]
    split
    · exact fun _ => rfl
    · exact h.write_keeps p text s

namespace Disk

/-- The files of a disk, each under its row of names. -/
def files (d : Disk) (names : List Name) : Option Node :=
  (d.top.at? names).filter Node.isFile

variable {d d' : Disk}

/-- They are what the disk shows row by row. -/
theorem files_eq (d : Disk) (names : List Name) :
    d.files names = (d.top.outline names).filter Node.isFile := by
  unfold files Node.outline
  rcases d.top.at? names with _ | ⟨bytes, mode⟩ | ⟨entries, mode⟩ | target
  · rfl
  · rfl
  · rfl
  · rfl

/-- A directory that is made where nothing is leaves the files alone. -/
theorem files_changeEntry {trail : Trail} {name : Name} {mode : Nat} (hon : d.On trail)
    (hdir : (d.here trail).isDir = true) (hfree : (d.here trail).child? name = none)
    (h : d.changeEntry trail name (some (.dir [] mode)) = .ok d') : d'.files = d.files := by
  have hnone : d.top.at? (Trail.names trail ++ [name]) = none := by
    rw [Node.at_concat, hon.at_names]
    exact hfree
  unfold changeEntry at h
  split at h
  · cases h
    funext names
    by_cases hnames : names = Trail.names trail ++ [name]
    · -- there was nothing under the new name, and there is no file now
      subst hnames
      have hmade : (d.setAt trail name (some (.dir [] mode))).top.at? (Trail.names trail ++ [name]) =
          some (.dir [] mode) := by
        refine Node.at_alter (fun c hc => ?_) (by simp [hon.at_names])
        rw [hon.at_names] at hc
        exact Option.some.inj hc ▸ hdir
      rw [files, files, hmade, hnone]
      rfl
    · rw [files_eq, files_eq]
      refine congrArg (Option.filter Node.isFile) (Node.outline_alter (fun c hc => ?_)
        (fun c hc => Option.some.inj hc ▸ .of_empty mode) hnames)
      rw [hnone] at hc
      cases hc
  · cases h

/-- So does making a directory. -/
theorem files_makeDir {path : Path} (h : d.makeDir path = .ok d') : d'.files = d.files := by
  unfold makeDir at h
  split at h
  · cases h
  · split at h
    · cases h
    · cases h
    · next trail name hfound =>
      obtain ⟨start, hstart, hfollow⟩ := exists_follow_of_resolve hfound
      obtain ⟨hon, hdir, hfree⟩ := hstart.free_of_follow hfollow
      exact files_changeEntry hon hdir hfree h

/-- And so does what is done about its answer. -/
theorem files_unlessThere {path : Path} :
    (d.unlessThere path (d.makeDir path)).2.files = d.files := by
  unfold unlessThere
  split
  · next hmake => exact files_makeDir hmake
  · split <;> rfl

/-- Making a directory and the ones it lies in leaves the files alone. -/
theorem files_makeDirsWithin (depth : Nat) (d : Disk) (path : Path) :
    (d.makeDirsWithin depth path).2.files = d.files := by
  -- on the depth; the directory that this one lies in is made first
  induction depth generalizing d path with
  | zero => rfl
  | succ depth ih =>
    unfold makeDirsWithin
    split
    · rfl
    · split
      · split
        · rfl
        · next parent _ =>
          have hparent := ih d parent
          split
          · next hmade => rwa [hmade] at hparent
          · next hmade =>
            rw [hmade] at hparent
            exact files_unlessThere.trans hparent
      · exact files_unlessThere

/-- Calls on a disk are careful with its files. -/
theorem careful : fileSystem.Careful files where
  read_keeps := fun _ _ => rfl
  createDirs_keeps := by
    intro path d
    have hmade := files_makeDirsWithin (path.chars.length + 1) d path
    simp only [fileSystem, makeDirs]
    split
    · next h => rwa [h] at hmade
    · next h => rwa [h] at hmade
  write_keeps := by
    intro path text d hfailed
    have hmade := files_makeDirsWithin ((directoryOf path).chars.length + 1) d (directoryOf path)
    simp only [fileSystem, writeText] at hfailed ⊢
    rw [← makeDirs] at hmade
    rcases hdirs : d.makeDirs (directoryOf path) with ⟨e | _, d'⟩
    · rwa [hdirs] at hmade
    · rw [hdirs] at hmade hfailed
      simp only at hfailed ⊢
      rcases hroom : d'.checkRoom (directoryOf path) with e | _
      · exact hmade
      · rw [hroom] at hfailed
        -- nothing is put in place by a writing that fails
        cases hplace : d'.place path (Text.bytes text.toList) (d'.modeFor path) with
        | error e => simpa [answer, hplace] using hmade
        | ok d'' =>
          rw [hplace] at hfailed
          cases hfailed

end Disk

end ArtifactSync
