import ArtifactSync.Proofs.Watch.Log

/-!
# No side file goes stale

What a started session owes its side files in every state that calls take it to (`UpToDate`). A side
file that is switched on waits to be given the outputs listed now, or the last attempt to rewrite it
was given them; one that is switched off is left alone. Once the session is closed nothing waits, so
a last attempt that succeeded has left in the file what rendering makes of the text before it and
the outputs listed at the end.
-/

namespace ArtifactSync.Run

open Artifact

variable {σ : Type}

/-- What side files are owed by a session that has started, behind the calls and the attempts to
rewrite side files that were made since. -/
structure UpToDate (x : Executor σ) (mode : Mode) (cs : List SessionCall) (r : Run σ)
    (attempts : List (Rewrite σ)) : Prop where
  /-- A side file waits to be given the outputs listed now, or was given them last. -/
  current : ∀ k, mode.keeps k = true →
    (∃ since, (r.session.sideFiles.get k).pending.pending = some (r.session.outputs, since)) ∨
      ((r.session.sideFiles.get k).hasPending = false ∧
        ∃ a, lastRewrite k attempts = some a ∧ a.outputs = r.session.outputs)
  /-- Two side files wait for the same outputs until the same instant. -/
  together : ∀ k l, mode.keeps k = true → mode.keeps l = true →
    (r.session.sideFiles.get k).pending.pending = (r.session.sideFiles.get l).pending.pending ∧
      (r.session.sideFiles.get k).deadline = (r.session.sideFiles.get l).deadline
  /-- A side file that is switched off does not wait, and no attempt is made on it. -/
  idle : ∀ k, mode.keeps k = false →
    (r.session.sideFiles.get k).hasPending = false ∧ ∀ a ∈ attempts, a.file.kind ≠ k
  /-- Nothing waits once the session is closed. -/
  ended : .close ∈ cs → r.session.sideFiles.hasPending = false
  /-- Then a last attempt that succeeded has left the file up to date with the final outputs. -/
  left : .close ∈ cs → ∀ k a report, lastRewrite k attempts = some a →
    (a.run x.files).1 = .ok report → ∀ honest text?, x.files.Shows honest text? → honest a.world →
      ∃ text, k.render ((text? (k.pathIn x.root) a.world).getD "") r.session.outputs.paths =
          .ok text ∧
        text? (k.pathIn x.root) (a.run x.files).2 = some text

/-- A side file for which nothing is pending does not wait. -/
theorem hasPending_of_none {f : SideFile} (h : f.pending.pending = none) :
    f.hasPending = false := by
  rw [SideFile.hasPending, Debouncer.hasPending, h]
  rfl

/-- A closed session stays closed. -/
theorem phase_call_closed {x : Executor σ} {r : Run σ} (c : SessionCall)
    (h : r.session.phase = .closed) : (r.call x c).session.phase = .closed := by
  cases c with
  | start sources now =>
    rw [call, start, if_pos (by simp [h])]
    exact h
  | handle change now => rw [call, phase_handle, h]
  | tick now => simp [call, tick, reportSyncs_session, h]
  | close =>
    rw [call, close, if_pos h]
    exact h

/-- A session that was closed is closed. -/
theorem phase_calls_closed {x : Executor σ} {cs : List SessionCall} {r : Run σ}
    (h : .close ∈ cs ∨ r.session.phase = .closed) :
    (r.calls x cs).session.phase = .closed := by
  induction cs generalizing r with
  | nil => exact h.resolve_left (by simp)
  | cons c cs ih =>
    refine ih ?_
    rcases h with h | h
    · rcases List.mem_cons.mp h with rfl | h
      · right
        by_cases hclosed : r.session.phase = .closed
        · exact phase_call_closed _ hclosed
        · simp [call, close, hclosed, enter, emit]
      · exact .inl h
    · exact .inr (phase_call_closed c h)

/-- Side files that are in step are up to date. -/
theorem Synced.upToDate {x : Executor σ} {mode : Mode} {quiet : Nat} {r : Run σ}
    {attempts : List (Rewrite σ)} {cs : List SessionCall}
    (h : Synced x.root mode quiet r attempts)
    (hclosed : .close ∈ cs → r.session.phase = .closed) : UpToDate x mode cs r attempts where
  current := by
    intro k hk
    rcases h.current k hk with hp | ⟨hp, ha⟩
    · exact .inl hp
    · exact .inr ⟨hasPending_of_none hp, ha⟩
  together := by
    intro k l hk hl
    rw [SideFile.deadline, SideFile.deadline, h.together k l hk hl]
    exact ⟨rfl, rfl⟩
  idle := by
    intro k hk
    refine ⟨hasPending_of_none (h.idle k hk), ?_⟩
    rintro a ha rfl
    rw [(h.attempted a ha).2] at hk
    cases hk
  ended := by
    intro hclose
    exact hasPending_of_pending_none (h.ended (hclosed hclose))
  left := by
    intro hclose k a report hlast hok honest text? hfiles hhonest
    obtain ⟨hmem, hkind⟩ := lastRewrite_mem hlast
    obtain ⟨hisOf, hkeeps⟩ := h.attempted a hmem
    rw [hkind] at hisOf hkeeps
    -- nothing is pending any more, so the last attempt was given the final outputs
    have houtputs : a.outputs = r.session.outputs := by
      rcases h.current k hkeeps with ⟨since, hp⟩ | ⟨-, b, hb, houtputs⟩
      · rw [h.ended (hclosed hclose) k] at hp
        cases hp
      · rw [hlast] at hb
        cases hb
        exact houtputs
    have hrun : a.file.writeNow x.files a.outputs a.world = (.ok report, (a.run x.files).2) := by
      rw [← hok]
      rfl
    have hleft := SideFile.writeNow_left hfiles hhonest hrun
    rwa [hisOf.path, hisOf.kind, houtputs] at hleft

end ArtifactSync.Run
