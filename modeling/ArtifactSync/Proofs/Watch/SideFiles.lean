import ArtifactSync.Proofs.SideFile.Rewrite
import ArtifactSync.Proofs.Watch.Calls

/-!
# Side files of a session

Each side file of a session either waits to be given the outputs that are listed now, or was given
them by the last attempt to rewrite it. `InSync` is that invariant, with what goes along with it:
side files that are switched on wait for the same set until the same instant, and one that is
switched off never waits and is never rewritten. A request makes it true whatever was listed before
(`Ready.request`), and taking what is pending keeps it (`InSync.take`). A change either leaves the
listed outputs and the side files alone or ends with a request (`sideFiles_handle`), so every call
keeps it (`synced_call`).
-/

namespace ArtifactSync

variable {σ : Type}

/-- Whether a run keeps a side file. -/
def Mode.keeps (mode : Mode) : SideFileKind → Bool
  | .ignoreList => mode.git
  | .editorExclude => mode.vscode

/-- The place of a side file of the project at `root`. -/
def SideFileKind.pathIn (kind : SideFileKind) (root : Path) : Path :=
  root.join (.ofString kind.location)

/-- The side file of a kind in the project at `root`, as the mode has it, with anything pending. -/
structure SideFile.IsOf (f : SideFile) (root : Path) (mode : Mode) (quiet : Nat)
    (k : SideFileKind) : Prop where
  kind : f.kind = k
  path : f.path = k.pathIn root
  enabled : f.enabled = mode.keeps k
  quiet : f.pending.quiet = quiet

/-- What is pending may change. -/
theorem SideFile.IsOf.setPending {f : SideFile} {root : Path} {mode : Mode} {quiet : Nat}
    {k : SideFileKind} (h : f.IsOf root mode quiet k) {pending : Debouncer PathSet}
    (hp : pending.quiet = quiet) : { f with pending := pending }.IsOf root mode quiet k :=
  ⟨h.kind, h.path, h.enabled, hp⟩

/-- Side files of the project at `root` as the mode has them, and the attempts made to rewrite
them. -/
structure Ready (root : Path) (mode : Mode) (quiet : Nat) (f : SideFiles)
    (attempts : List (Rewrite σ)) : Prop where
  isOf : ∀ k, (f.get k).IsOf root mode quiet k
  /-- Nothing is pending for a side file that is switched off. -/
  idle : ∀ k, mode.keeps k = false → (f.get k).pending.pending = none
  /-- Every attempt was one on a side file that is switched on. -/
  attempted : ∀ a ∈ attempts, a.file.IsOf root mode quiet a.file.kind ∧
    mode.keeps a.file.kind = true

/-- Side files that will be given the outputs listed, or were. -/
structure InSync (root : Path) (mode : Mode) (quiet : Nat) (f : SideFiles) (outputs : PathSet)
    (attempts : List (Rewrite σ)) : Prop extends Ready root mode quiet f attempts where
  /-- What is pending are the outputs listed; if nothing is, the last attempt was given them. -/
  current : ∀ k, mode.keeps k = true →
    (∃ since, (f.get k).pending.pending = some (outputs, since)) ∨
      ((f.get k).pending.pending = none ∧
        ∃ a, lastRewrite k attempts = some a ∧ a.outputs = outputs)
  /-- What is pending is pending for all alike. -/
  together : ∀ k l, mode.keeps k = true → mode.keeps l = true →
    (f.get k).pending = (f.get l).pending

section

variable {root : Path} {mode : Mode} {quiet : Nat} {f : SideFiles} {outputs : PathSet}
  {attempts : List (Rewrite σ)}

/-- The side files of a new project have nothing pending. -/
theorem ready_new (root : Path) (mode : Mode) (quiet : Nat) :
    Ready root mode quiet (.new root mode.git mode.vscode quiet) ([] : List (Rewrite σ)) where
  isOf := by
    intro k
    cases k <;> exact ⟨rfl, rfl, rfl, rfl⟩
  idle := by
    intro k _
    cases k <;> rfl
  attempted := by simp

/-- After a request the side files wait for the outputs requested. -/
theorem Ready.request (h : Ready root mode quiet f attempts) (outputs : PathSet) (now : Nat) :
    InSync root mode quiet (f.request outputs now) outputs attempts := by
  have hon (k : SideFileKind) (hk : mode.keeps k = true) : (f.request outputs now).get k =
      { f.get k with pending := (f.get k).pending.push outputs now } := by
    rw [SideFiles.get_request, SideFile.request, if_pos (by rw [(h.isOf k).enabled, hk])]
  have hoff (k : SideFileKind) (hk : mode.keeps k = false) :
      (f.request outputs now).get k = f.get k := by
    rw [SideFiles.get_request, SideFile.request, if_neg (by simp [(h.isOf k).enabled, hk])]
  refine ⟨⟨fun k => ?_, fun k hk => ?_, h.attempted⟩, fun k hk => ?_, fun k l hk hl => ?_⟩
  · by_cases hk : mode.keeps k = true
    · rw [hon k hk]
      exact (h.isOf k).setPending (h.isOf k).quiet
    · rw [hoff k (by simpa using hk)]
      exact h.isOf k
  · rw [hoff k hk, h.idle k hk]
  · rw [hon k hk]
    exact .inl ⟨now, rfl⟩
  · rw [hon k hk, hon l hl]
    simp only [Debouncer.push, (h.isOf k).quiet, (h.isOf l).quiet]

/-- A way to take what is pending: all of it, or nothing. -/
def IsTake (take : Debouncer PathSet → Option PathSet × Debouncer PathSet) : Prop :=
  ∀ d, take d = d.take ∨ take d = (none, d)

/-- Polling takes what is pending or nothing. -/
theorem isTake_poll (now : Nat) : IsTake (·.poll now) := by
  intro d
  simp only [Debouncer.poll]
  split
  · exact .inl rfl
  · exact .inr rfl

/-- Flushing takes what is pending. -/
theorem isTake_take : IsTake (·.take) :=
  fun _ => .inl rfl

/-- Where nothing is pending, nothing is after taking. -/
theorem IsTake.pending_eq_none {take : Debouncer PathSet → Option PathSet × Debouncer PathSet}
    (htake : IsTake take) {d : Debouncer PathSet} (h : d.pending = none) :
    (take d).2.pending = none := by
  rcases htake d with hd | hd
  · rw [hd, Debouncer.take]
  · rw [hd, h]

/-- What is pending for a side file is still pending after taking, or nothing is. -/
theorem IsTake.pending_taken {take : Debouncer PathSet → Option PathSet × Debouncer PathSet}
    (htake : IsTake take) (f : SideFiles) (k : SideFileKind) :
    ((f.taken take).get k).pending.pending = (f.get k).pending.pending ∨
      ((f.taken take).get k).pending.pending = none := by
  rw [SideFiles.get_taken]
  rcases htake (f.get k).pending with hd | hd
  · exact .inr (by rw [hd, Debouncer.take])
  · exact .inl (by rw [hd])

/-- Side files for which nothing is pending do not wait. -/
theorem hasPending_of_pending_none {f : SideFiles} (h : ∀ k, (f.get k).pending.pending = none) :
    f.hasPending = false := by
  have hignore := h .ignoreList
  have heditor := h .editorExclude
  simp only [SideFiles.get] at hignore heditor
  simp [SideFiles.hasPending, SideFile.hasPending, Debouncer.hasPending, hignore, heditor]

/-- Taking what is pending, and rewriting the side files with it, leaves them as the mode has
them. -/
theorem Ready.take (h : Ready root mode quiet f attempts)
    {take : Debouncer PathSet → Option PathSet × Debouncer PathSet} (htake : IsTake take)
    (files : FileSystem σ) (s : σ) :
    Ready root mode quiet (f.taken take) (attempts ++ f.rewrites files take s) := by
  have hisOf (k : SideFileKind) : ((f.taken take).get k).IsOf root mode quiet k := by
    rw [SideFiles.get_taken]
    refine (h.isOf k).setPending ?_
    rcases htake (f.get k).pending with hd | hd
    · rw [hd]
      exact (h.isOf k).quiet
    · rw [hd]
      exact (h.isOf k).quiet
  refine ⟨hisOf, fun k hk => ?_, fun a ha => ?_⟩
  · rw [SideFiles.get_taken]
    exact htake.pending_eq_none (h.idle k hk)
  · rcases List.mem_append.mp ha with ha | ha
    · exact h.attempted a ha
    · -- only a side file that is switched on has anything to take
      obtain ⟨k, hfile, houtputs⟩ := SideFiles.mem_rewrites ha
      rw [hfile, (hisOf k).kind]
      refine ⟨hisOf k, ?_⟩
      by_contra hk
      have hnone := h.idle k (by simpa using hk)
      rcases htake (f.get k).pending with hd | hd
      · rw [hd, Debouncer.take, hnone] at houtputs
        cases houtputs
      · rw [hd] at houtputs
        cases houtputs

/-- Taking what is pending, and rewriting the side files with it, keeps them in step with the
outputs listed. -/
theorem InSync.take (h : InSync root mode quiet f outputs attempts)
    {take : Debouncer PathSet → Option PathSet × Debouncer PathSet} (htake : IsTake take)
    (files : FileSystem σ) (s : σ) :
    InSync root mode quiet (f.taken take) outputs (attempts ++ f.rewrites files take s) := by
  refine ⟨h.toReady.take htake files s, fun k hk => ?_, fun k l hk hl => ?_⟩
  · -- what was pending was given to the file's own attempt, which is now its last
    obtain ⟨s', hlast⟩ :=
      SideFiles.lastRewrite_rewrites (fun k => (h.isOf k).kind) files take s k
    rw [lastRewrite_append, hlast, SideFiles.get_taken, SideFiles.attempt?]
    rcases htake (f.get k).pending with hd | hd
    · right
      rcases h.current k hk with ⟨since, hp⟩ | ⟨hp, a, ha, houtputs⟩
      · simp [hd, Debouncer.take, hp]
      · simp [hd, Debouncer.take, hp, ha, houtputs]
    · simpa [hd] using h.current k hk
  · rw [SideFiles.get_taken, SideFiles.get_taken, h.together k l hk hl]

end

/-- Only the latest request counts. -/
theorem SideFiles.request_request (f : SideFiles) (outputs outputs' : PathSet) (now now' : Nat) :
    (f.request outputs now).request outputs' now' = f.request outputs' now' := by
  have hone (f : SideFile) :
      (f.request outputs now).request outputs' now' = f.request outputs' now' := by
    unfold SideFile.request
    by_cases h : f.enabled = true
    · simp [h, Debouncer.push]
    · simp [h]
  simp only [request, hone]

namespace Run

/-- Dropping sources ends with a request, if there is anything to drop. -/
theorem sideFiles_foldl_onUnlink (x : Executor σ) (now : Nat) (sources : List Path) (r : Run σ) :
    sources = [] ∨ (sources.foldl (onUnlink x now) r).session.sideFiles =
      r.session.sideFiles.request (sources.foldl (onUnlink x now) r).session.outputs now := by
  -- each source asks again, with fewer outputs, and only the latest request counts
  induction sources generalizing r with
  | nil => exact .inl rfl
  | cons source rest ih =>
    right
    rw [List.foldl_cons]
    rcases ih (onUnlink x now r source) with hnil | hrest
    · rw [hnil, List.foldl_nil, onUnlink_session]
    · rw [hrest]
      nth_rewrite 1 [onUnlink_session]
      rw [SideFiles.request_request]

/-- A change leaves the outputs and the side files alone, or asks for an update with the outputs
that are listed after it. -/
theorem sideFiles_handle (x : Executor σ) (change : Change) (now : Nat) (r : Run σ) :
    let r' := (r.handle x change now).2
    (r'.session.outputs = r.session.outputs ∧ r'.session.sideFiles = r.session.sideFiles) ∨
      r'.session.sideFiles = r.session.sideFiles.request r'.session.outputs now := by
  have hhandled := handled x change now r
  generalize r.handle x change now = answer at hhandled ⊢
  obtain ⟨outcome, r'⟩ := answer
  dsimp only at hhandled ⊢
  cases hhandled with
  | ignored => exact .inl ⟨rfl, rfl⟩
  | failed trigger watching source build =>
    rw [session_of_build build]
    exact .inl ⟨rfl, rfl⟩
  | @added r' appeared watching source fresh build =>
    rw [← session_of_build build]
    exact .inr rfl
  | rebuilt watching source tracked build listed =>
    rw [session_of_build build]
    exact .inl ⟨rfl, rfl⟩
  | @mended r' watching source tracked build unlisted =>
    rw [← session_of_build build]
    exact .inr rfl
  | removed watching source tracked =>
    rw [onUnlink_session]
    exact .inr rfl
  | removedBelow watching named untracked =>
    rcases sideFiles_foldl_onUnlink x now (r.below change.path) r with hnil | hrequest
    · rw [hnil]
      exact .inl ⟨rfl, rfl⟩
    · exact .inr hrequest

/-- Builds leave the side files alone. -/
theorem sideFiles_buildAll (x : Executor σ) (sources : List Path) (r : Run σ) :
    (buildAll x sources r).2.2.session.sideFiles = r.session.sideFiles := by
  induction sources generalizing r with
  | nil => rfl
  | cons source rest ih =>
    rcases hb : x.build source r.world with ⟨_ | output, s⟩
    · simp only [buildAll, Run.build, hb]
      exact ih _
    · simp only [buildAll, Run.build, hb]
      exact ih _

/-- The attempts that a call makes to rewrite side files. -/
def rewritesBy (x : Executor σ) (r : Run σ) : SessionCall → List (Rewrite σ)
  | .start _ _ => []
  | .handle _ _ => []
  | .tick now => r.session.sideFiles.rewrites x.files (·.poll now) r.world
  | .close =>
    if r.session.phase = .closed then []
    else r.session.sideFiles.rewrites x.files (·.take) r.world

/-- The attempts that calls make, one after another. -/
def rewritesIn (x : Executor σ) (r : Run σ) : List SessionCall → List (Rewrite σ)
  | [] => []
  | c :: cs => r.rewritesBy x c ++ (r.call x c).rewritesIn x cs

variable {root : Path} {mode : Mode} {quiet : Nat}

/-- Every call leaves the side files as the mode has them, and makes attempts on no others. -/
theorem ready_call {r : Run σ} {attempts : List (Rewrite σ)} (c : SessionCall)
    (h : Ready root mode quiet r.session.sideFiles attempts) :
    Ready root mode quiet (r.call x c).session.sideFiles (attempts ++ r.rewritesBy x c) := by
  cases c with
  | start sources now =>
    simp only [call, start, rewritesBy, List.append_nil]
    split
    · exact h
    · have hrequest := (h.request (buildAll x sources r).2.2.session.outputs now).toReady
      rw [← sideFiles_buildAll x sources r] at hrequest
      exact hrequest
  | handle change now =>
    simp only [call, rewritesBy, List.append_nil]
    rcases sideFiles_handle x change now r with ⟨-, hsideFiles⟩ | hrequest
    · rwa [hsideFiles]
    · rw [hrequest]
      exact (h.request _ now).toReady
  | tick now =>
    simp only [call, tick, rewritesBy, SideFiles.poll_eq, reportSyncs_session]
    exact h.take (isTake_poll now) x.files r.world
  | close =>
    by_cases hclosed : r.session.phase = .closed
    · simpa only [call, close, rewritesBy, if_pos hclosed, List.append_nil] using h
    · simp only [call, close, rewritesBy, if_neg hclosed, SideFiles.flush_eq, enter, emit,
        reportSyncs_session]
      exact h.take isTake_take x.files r.world

/-- A session that has started, with side files that are in step with the outputs it lists. -/
structure Synced (root : Path) (mode : Mode) (quiet : Nat) (r : Run σ)
    (attempts : List (Rewrite σ)) : Prop extends
    InSync root mode quiet r.session.sideFiles r.session.outputs attempts where
  started : r.session.phase ≠ .idle
  /-- Once it is closed, nothing is pending. -/
  ended : r.session.phase = .closed → ∀ k, (r.session.sideFiles.get k).pending.pending = none

/-- A session that starts is in step. -/
theorem synced_start (x : Executor σ) (mode : Mode) (quiet : Nat) (s : σ) (sources : List Path)
    (now : Nat) :
    Synced root mode quiet
      ((fresh (.new root mode.git mode.vscode quiet) s).start x sources now) [] := by
  have hready : Ready root mode quiet (buildAll x sources
      (fresh (.new root mode.git mode.vscode quiet) s)).2.2.session.sideFiles
      ([] : List (Rewrite σ)) := by
    rw [sideFiles_buildAll]
    exact ready_new root mode quiet
  exact ⟨hready.request _ now, by simp [start, fresh, Session.new, enter],
    fun h => by simp [start, fresh, Session.new, enter] at h⟩

/-- Every call keeps a session in step. -/
theorem synced_call {x : Executor σ} {r : Run σ} {attempts : List (Rewrite σ)} (c : SessionCall)
    (h : Synced root mode quiet r attempts) :
    Synced root mode quiet (r.call x c) (attempts ++ r.rewritesBy x c) := by
  cases c with
  | start sources now =>
    simp only [call, start, rewritesBy, List.append_nil]
    rwa [if_pos h.started]
  | handle change now =>
    simp only [call, rewritesBy, List.append_nil]
    by_cases watching : r.session.phase = .watching
    · have hphase : (r.handle x change now).2.session.phase = .watching := by
        rw [phase_handle, watching]
      refine ⟨?_, by simp [hphase], by simp [hphase]⟩
      rcases sideFiles_handle x change now r with ⟨houtputs, hsideFiles⟩ | hrequest
      · rw [houtputs, hsideFiles]
        exact h.toInSync
      · rw [hrequest]
        exact h.toReady.request _ now
    · rwa [handle, if_pos watching]
  | tick now =>
    simp only [call, tick, rewritesBy, SideFiles.poll_eq]
    refine ⟨?_, by rw [reportSyncs_session]; exact h.started, ?_⟩
    · rw [reportSyncs_session]
      exact h.toInSync.take (isTake_poll now) x.files r.world
    · rw [reportSyncs_session]
      intro hclosed k
      rw [SideFiles.get_taken]
      exact (isTake_poll now).pending_eq_none (h.ended hclosed k)
  | close =>
    by_cases hclosed : r.session.phase = .closed
    · simp only [call, close, rewritesBy, if_pos hclosed, List.append_nil]
      exact h
    · simp only [call, close, rewritesBy, if_neg hclosed, SideFiles.flush_eq]
      refine ⟨?_, by simp [enter, emit], fun _ k => ?_⟩
      · simp only [enter, emit, reportSyncs_session]
        exact h.toInSync.take isTake_take x.files r.world
      · simp only [enter, emit, reportSyncs_session, SideFiles.get_taken, Debouncer.take]

/-- Calls keep a session in step, one after another. -/
theorem synced_calls {x : Executor σ} (cs : List SessionCall) {r : Run σ}
    {attempts : List (Rewrite σ)} (h : Synced root mode quiet r attempts) :
    Synced root mode quiet (r.calls x cs) (attempts ++ r.rewritesIn x cs) := by
  induction cs generalizing r attempts with
  | nil => simpa [calls, rewritesIn] using h
  | cons c cs ih =>
    have hrest := ih (synced_call (x := x) c h)
    rwa [List.append_assoc] at hrest

end Run

end ArtifactSync
