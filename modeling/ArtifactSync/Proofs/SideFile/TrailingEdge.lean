import ArtifactSync.Proofs.Watch.SideFiles
import Mathlib.Data.List.Induction

/-!
# Updates that are put off

Side files are asked for updates, polled for the ones that are due, and flushed. Which attempts to
rewrite a file that leads to is told here by the calls alone. A request is `Unanswered` while no
other has come and no attempt on the file has been made since, and polling makes an attempt when
there is one that has waited for the quiet period (`followsRequests`). What the world does, and
whether an attempt succeeds, has no part in it.

The invariant is that what a side file has pending is what is unanswered (`Waits`). A request keeps
it (`Waits.request`), and so does taking what is pending or nothing (`Waits.take`); from these it
holds behind any calls (`waits_behind`).
-/

namespace ArtifactSync

variable {σ : Type}

/-! ## One value that is put off -/

namespace Debouncer

variable {α : Type}

/-- What polling takes has been pending for the quiet period. -/
theorem poll_eq_some_iff {d : Debouncer α} {now : Nat} {value : α} :
    (d.poll now).1 = some value ↔
      ∃ since, d.pending = some (value, since) ∧ since + d.quiet ≤ now := by
  rcases hp : d.pending with _ | ⟨pending, since⟩
  · simp [poll, isDue, deadline, hp]
  · by_cases hdue : since + d.quiet ≤ now
    · simp [poll, isDue, deadline, take, hp, hdue]
    · have hearly : d.isDue now = false := by simp [isDue, deadline, hp, hdue]
      simp [poll, hearly, hdue]

/-- What flushing takes has been pending. -/
theorem take_eq_some_iff {d : Debouncer α} {value : α} :
    d.take.1 = some value ↔ ∃ since, d.pending = some (value, since) := by
  rcases hp : d.pending with _ | ⟨pending, since⟩ <;> simp [take, hp]

end Debouncer

/-! ## Calls -/

/-- One call on the side files. -/
inductive SideFileCall where
  | request (outputs : PathSet) (now : Nat)
  | poll (now : Nat)
  | flush

/-- Whether a call is a request. -/
def SideFileCall.isRequest : SideFileCall → Bool
  | request _ _ => true
  | poll _ => false
  | flush => false

namespace SideFiles

/-- The answers to a call, with the side files and the world behind it. -/
def answer (files : FileSystem σ) (f : SideFiles) (s : σ) :
    SideFileCall → List SyncResult × SideFiles × σ
  | .request outputs now => ([], f.request outputs now, s)
  | .poll now => f.poll files now s
  | .flush => f.flush files s

/-- The side files and the world behind calls. -/
def behind (files : FileSystem σ) (f : SideFiles) (s : σ) (cs : List SideFileCall) :
    SideFiles × σ :=
  cs.foldl (fun now c => (now.1.answer files now.2 c).2) (f, s)

/-- The attempts that a call makes to rewrite side files. -/
def attempts (files : FileSystem σ) (f : SideFiles) (s : σ) : SideFileCall → List (Rewrite σ)
  | .request _ _ => []
  | .poll now => f.rewrites files (·.poll now) s
  | .flush => f.rewrites files (·.take) s

/-- Attempts are run one after another, each in the world that the one before has left, whether it
failed or not. -/
inductive Runs (files : FileSystem σ) : σ → List (Rewrite σ) → List SyncResult → σ → Prop
  | none (s : σ) : Runs files s [] [] s
  | one {a : Rewrite σ} {later : List (Rewrite σ)} {answers : List SyncResult} {s' : σ}
      (rest : Runs files (a.run files).2 later answers s') :
      Runs files a.world (a :: later) ((a.run files).1 :: answers) s'

/-- The sets that a call gives to a side file, one for each attempt to rewrite it, behind other
calls. -/
def given (files : FileSystem σ) (f : SideFiles) (s : σ) (k : SideFileKind)
    (cs : List SideFileCall) (c : SideFileCall) : List PathSet :=
  (((f.behind files s cs).1.attempts files (f.behind files s cs).2 c).filter
    (·.file.kind = k)).map (·.outputs)

/-- The latest of some calls that is a request was made at an instant for a set of outputs, and
none of the calls behind it made an attempt on a side file. -/
inductive Unanswered (files : FileSystem σ) (f : SideFiles) (s : σ) (k : SideFileKind) :
    List SideFileCall → PathSet → Nat → Prop
  | requested (cs : List SideFileCall) (outputs : PathSet) (now : Nat) :
      Unanswered files f s k (cs ++ [.request outputs now]) outputs now
  | waiting {cs : List SideFileCall} {outputs : PathSet} {since : Nat}
      (before : Unanswered files f s k cs outputs since) {c : SideFileCall}
      (other : c.isRequest = false) (idle : f.given files s k cs c = []) :
      Unanswered files f s k (cs ++ [c]) outputs since

/-- The last of several calls comes after the others. -/
theorem behind_concat (files : FileSystem σ) (f : SideFiles) (s : σ) (cs : List SideFileCall)
    (c : SideFileCall) : f.behind files s (cs ++ [c]) =
      ((f.behind files s cs).1.answer files (f.behind files s cs).2 c).2 := by
  simp [behind]

/-! ## Single calls -/

/-- The attempts of side files that take what they have pending are run one after another. -/
theorem runs_rewrites (files : FileSystem σ)
    (take : Debouncer PathSet → Option PathSet × Debouncer PathSet) (f : SideFiles) (s : σ) :
    Runs files s (f.rewrites files take s) ((f.rewrites files take s).map fun a => (a.run files).1)
      (worldBehind files s (f.rewrites files take s)) := by
  have hall (fs : List SideFile) (s : σ) : Runs files s (SideFile.rewrites files take fs s)
      ((SideFile.rewrites files take fs s).map fun a => (a.run files).1)
      (worldBehind files s (SideFile.rewrites files take fs s)) := by
    induction fs generalizing s with
    | nil => exact .none s
    | cons f rest ih =>
      rcases htake : take f.pending with ⟨_ | outputs, pending⟩
      · simp only [SideFile.rewrites, htake]
        exact ih s
      · simp only [SideFile.rewrites, htake, List.map_cons, worldBehind_cons]
        exact .one (a := ⟨{ f with pending := pending }, outputs, s⟩) (ih _)
  exact hall _ s

/-- The answers to a call are those of the attempts it makes. -/
theorem runs_attempts (files : FileSystem σ) (f : SideFiles) (s : σ) (c : SideFileCall) :
    Runs files s (f.attempts files s c) (f.answer files s c).1 (f.answer files s c).2.2 := by
  cases c with
  | request outputs now => exact .none s
  | poll now =>
    rw [answer, poll_eq]
    exact runs_rewrites files (·.poll now) f s
  | flush =>
    rw [answer, flush_eq]
    exact runs_rewrites files (·.take) f s

/-- Side files that take what they have pending give each file what it has taken. -/
theorem outputs_rewrites {f : SideFiles} (hkind : ∀ k, (f.get k).kind = k) (files : FileSystem σ)
    (take : Debouncer PathSet → Option PathSet × Debouncer PathSet) (s : σ) (k : SideFileKind) :
    ((f.rewrites files take s).filter (·.file.kind = k)).map (·.outputs) =
      (take (f.get k).pending).1.toList := by
  have hone (l : SideFileKind) (s : σ) :
      ((f.attempt? take l s).toList.filter (·.file.kind = k)).map (·.outputs) =
        if l = k then (take (f.get l).pending).1.toList else [] := by
    have hfile : ((f.taken take).get l).kind = l := by rw [get_taken, hkind]
    rcases htake : (take (f.get l).pending).1 with _ | outputs
    · simp [attempt?, htake]
    · by_cases hl : l = k
      · subst hl
        simp [attempt?, htake, hfile]
      · simp [attempt?, htake, hfile, hl]
  -- the attempts on one side file and then those on the other, of which one kind stays
  obtain ⟨s', hs'⟩ := f.rewrites_eq files take s
  rw [hs', List.filter_append, List.map_append, hone, hone]
  cases k <;> simp

/-! ## What side files wait for -/

section Waits

variable (files : FileSystem σ) (root : Path) (mode : Mode) (quiet : Nat) (s : σ)

/-- The side files of a project as the mode has them, with nothing pending. -/
abbrev ofMode : SideFiles := .new root mode.git mode.vscode quiet

/-- Side files behind calls. -/
structure Waits (cs : List SideFileCall) (f : SideFiles) : Prop where
  ready : Ready root mode quiet f ([] : List (Rewrite σ))
  /-- What is pending is what is unanswered, for a side file that is switched on. -/
  pending_iff : ∀ k outputs since, (f.get k).pending.pending = some (outputs, since) ↔
    mode.keeps k = true ∧ Unanswered files (ofMode root mode quiet) s k cs outputs since
  /-- What is pending is pending for all alike. -/
  together : ∀ k l, mode.keeps k = true → mode.keeps l = true →
    (f.get k).pending = (f.get l).pending

variable {files root mode quiet s} {cs : List SideFileCall}

/-- At first nothing is pending. -/
theorem waits_nil : Waits files root mode quiet s [] (ofMode root mode quiet) where
  ready := ready_new root mode quiet
  pending_iff := by
    intro k outputs since
    have hnone : ((ofMode root mode quiet).get k).pending.pending = none := by cases k <;> rfl
    rw [hnone]
    refine ⟨fun h => (by cases h), ?_⟩
    rintro ⟨-, h⟩
    generalize hcs : ([] : List SideFileCall) = cs at h
    cases h with
    | requested cs outputs now => simp at hcs
    | waiting before other idle => simp at hcs
  together := by
    intro k l _ _
    cases k <;> cases l <;> rfl

/-- Behind a request, that is what is unanswered. -/
theorem unanswered_request_iff {f : SideFiles} {k : SideFileKind} {outputs outputs' : PathSet}
    {now since : Nat} :
    Unanswered files f s k (cs ++ [.request outputs now]) outputs' since ↔
      outputs = outputs' ∧ now = since := by
  constructor
  · intro h
    generalize hcs : cs ++ [.request outputs now] = cs' at h
    cases h with
    | requested cs' outputs' now' =>
      cases (List.append_inj' hcs rfl).2
      exact ⟨rfl, rfl⟩
    | waiting before other idle =>
      cases (List.append_inj' hcs rfl).2
      cases other
  · rintro ⟨rfl, rfl⟩
    exact .requested cs outputs now

/-- Behind another call, what was unanswered still is if the call made no attempt. -/
theorem unanswered_concat_iff {f : SideFiles} {k : SideFileKind} {c : SideFileCall}
    {outputs : PathSet} {since : Nat} (hc : c.isRequest = false) :
    Unanswered files f s k (cs ++ [c]) outputs since ↔
      Unanswered files f s k cs outputs since ∧ f.given files s k cs c = [] := by
  constructor
  · intro h
    generalize hcs : cs ++ [c] = cs' at h
    cases h with
    | requested cs' outputs' now' =>
      cases (List.append_inj' hcs rfl).2
      cases hc
    | waiting before other idle =>
      obtain ⟨rfl, hlast⟩ := List.append_inj' hcs rfl
      cases hlast
      exact ⟨before, idle⟩
  · rintro ⟨before, idle⟩
    exact .waiting before hc idle

/-- Side files that are switched on wait for what is requested. -/
theorem Waits.request {f : SideFiles} (h : Waits files root mode quiet s cs f) (outputs : PathSet)
    (now : Nat) :
    Waits files root mode quiet s (cs ++ [.request outputs now]) (f.request outputs now) := by
  have hsync := h.ready.request outputs now
  refine ⟨hsync.toReady, fun k outputs' since => ?_, hsync.together⟩
  rw [unanswered_request_iff]
  -- a side file that is switched off takes no request
  by_cases hk : mode.keeps k = true
  · rw [get_request, SideFile.request, if_pos (by rw [(h.ready.isOf k).enabled, hk])]
    simp [Debouncer.push, hk]
  · rw [hsync.idle k (by simpa using hk)]
    simp [hk]

/-- A side file that gives away what it has pending, or nothing, goes on waiting for what it has
not given away. -/
theorem Waits.take {f : SideFiles} (h : Waits files root mode quiet s cs f) {c : SideFileCall}
    (hc : c.isRequest = false) {take : Debouncer PathSet → Option PathSet × Debouncer PathSet}
    (htake : IsTake take) (hgiven : ∀ k, (ofMode root mode quiet).given files s k cs c =
      (take (f.get k).pending).1.toList) :
    Waits files root mode quiet s (cs ++ [c]) (f.taken take) := by
  have hready := h.ready.take htake files s
  refine ⟨⟨hready.isOf, hready.idle, by simp⟩, fun k outputs since => ?_, fun k l hk hl => ?_⟩
  · rw [unanswered_concat_iff hc, ← and_assoc, ← h.pending_iff, hgiven, get_taken]
    -- either all that was pending is given away, or nothing
    rcases htake (f.get k).pending with hd | hd
    · cases hp : (f.get k).pending.pending with
      | none => simp [hd, Debouncer.take]
      | some p => simp [hd, Debouncer.take, hp]
    · simp [hd]
  · rw [get_taken, get_taken, h.together k l hk hl]

/-- Side files go on waiting for what is unanswered. -/
theorem waits_behind (files : FileSystem σ) (root : Path) (mode : Mode) (quiet : Nat) (s : σ)
    (cs : List SideFileCall) :
    Waits files root mode quiet s cs ((ofMode root mode quiet).behind files s cs).1 := by
  -- `Unanswered` is told from the last call, so the induction takes the calls from that end
  induction cs using List.reverseRecOn with
  | nil => exact waits_nil
  | append_singleton cs c ih =>
    have hgiven (take : Debouncer PathSet → Option PathSet × Debouncer PathSet) (k : SideFileKind) :=
      outputs_rewrites (fun k => (ih.ready.isOf k).kind) files take
        ((ofMode root mode quiet).behind files s cs).2 k
    rw [behind_concat]
    cases c with
    | request outputs now => exact ih.request outputs now
    | poll now =>
      rw [answer, poll_eq]
      exact ih.take rfl (isTake_poll now) (hgiven (·.poll now))
    | flush =>
      rw [answer, flush_eq]
      exact ih.take rfl isTake_take (hgiven (·.take))

/-! ## When attempts are made -/

variable {f : SideFiles}

/-- A side file has a deadline when something is unanswered. -/
theorem Waits.deadline_eq_some_iff (h : Waits files root mode quiet s cs f) {k : SideFileKind}
    {due : Nat} : (f.get k).deadline = some due ↔ mode.keeps k = true ∧ ∃ outputs since,
      Unanswered files (ofMode root mode quiet) s k cs outputs since ∧ due = since + quiet := by
  rw [SideFile.deadline, Debouncer.deadline, Option.map_eq_some_iff, (h.ready.isOf k).quiet]
  constructor
  · rintro ⟨⟨outputs, since⟩, hpending, rfl⟩
    obtain ⟨hk, hunanswered⟩ := (h.pending_iff k outputs since).mp hpending
    exact ⟨hk, outputs, since, hunanswered, rfl⟩
  · rintro ⟨hk, outputs, since, hunanswered, rfl⟩
    exact ⟨(outputs, since), (h.pending_iff k outputs since).mpr ⟨hk, hunanswered⟩, rfl⟩

/-- The deadline of the side files is the one that any of them has. -/
theorem Waits.nextDeadline_eq_some_iff (h : Waits files root mode quiet s cs f) {due : Nat} :
    f.nextDeadline = some due ↔ ∃ k, (f.get k).deadline = some due := by
  -- those that have one have the same
  have hone (k l : SideFileKind) {due due' : Nat} (hk : (f.get k).deadline = some due)
      (hl : (f.get l).deadline = some due') : due = due' := by
    have hboth := h.together k l (h.deadline_eq_some_iff.mp hk).1 (h.deadline_eq_some_iff.mp hl).1
    rw [SideFile.deadline, hboth] at hk
    exact Option.some.inj (hk.symm.trans hl)
  have hignore : f.ignoreList = f.get .ignoreList := rfl
  have heditor : f.editorExclude = f.get .editorExclude := rfl
  rw [nextDeadline, hignore, heditor]
  constructor
  · intro hnext
    cases hi : (f.get .ignoreList).deadline with
    | none =>
      rw [hi] at hnext
      exact ⟨.editorExclude, hnext⟩
    | some a =>
      refine ⟨.ignoreList, ?_⟩
      cases he : (f.get .editorExclude).deadline with
      | none =>
        rw [hi, he] at hnext
        exact hi.trans hnext
      | some b =>
        obtain rfl := hone _ _ hi he
        rw [hi, he] at hnext
        exact hi.trans ((congrArg some (Nat.min_self a)).symm.trans hnext)
  · rintro ⟨k, hk⟩
    cases hi : (f.get .ignoreList).deadline with
    | none =>
      cases k with
      | ignoreList => rw [hi] at hk; cases hk
      | editorExclude => exact hk
    | some a =>
      obtain rfl := hone _ _ hi hk
      cases he : (f.get .editorExclude).deadline with
      | none => rfl
      | some b =>
        obtain rfl := hone _ _ hi he
        exact congrArg some (Nat.min_self _)

/-- Side files wait when one of them has a deadline. -/
theorem hasPending_iff (f : SideFiles) : f.hasPending = true ↔ ∃ k, (f.get k).deadline.isSome := by
  have hone (g : SideFile) : g.hasPending = g.deadline.isSome := by
    simp [SideFile.hasPending, SideFile.deadline, Debouncer.hasPending, Debouncer.deadline]
  rw [hasPending, hone, hone, Bool.or_eq_true]
  constructor
  · rintro (h | h)
    · exact ⟨.ignoreList, h⟩
    · exact ⟨.editorExclude, h⟩
  · rintro ⟨_ | _, h⟩
    · exact .inl h
    · exact .inr h

/-- Side files wait when they have a deadline. -/
theorem Waits.isSome_nextDeadline (h : Waits files root mode quiet s cs f) :
    f.nextDeadline.isSome = f.hasPending := by
  rw [Bool.eq_iff_iff, hasPending_iff, Option.isSome_iff_exists]
  simp only [h.nextDeadline_eq_some_iff, Option.isSome_iff_exists]
  exact exists_comm

/-- Polling gives a side file what it takes from what the file has pending. -/
theorem given_poll (k : SideFileKind) (now : Nat) :
    (ofMode root mode quiet).given files s k cs (.poll now) =
      ((((ofMode root mode quiet).behind files s cs).1.get k).pending.poll now).1.toList :=
  outputs_rewrites (fun k => ((waits_behind files root mode quiet s cs).ready.isOf k).kind) files
    (·.poll now) _ k

/-- Flushing gives a side file what it has pending. -/
theorem given_flush (k : SideFileKind) :
    (ofMode root mode quiet).given files s k cs .flush =
      (((ofMode root mode quiet).behind files s cs).1.get k).pending.take.1.toList :=
  outputs_rewrites (fun k => ((waits_behind files root mode quiet s cs).ready.isOf k).kind) files
    (·.take) _ k

/-- Polling gives a side file what has been unanswered for the quiet period. -/
theorem mem_given_poll {k : SideFileKind} {now : Nat} {outputs : PathSet} :
    outputs ∈ (ofMode root mode quiet).given files s k cs (.poll now) ↔ mode.keeps k = true ∧
      ∃ since, Unanswered files (ofMode root mode quiet) s k cs outputs since ∧
        since + quiet ≤ now := by
  have hwaits := waits_behind files root mode quiet s cs
  rw [given_poll, Option.mem_toList, Debouncer.poll_eq_some_iff,
    (hwaits.ready.isOf k).quiet]
  simp only [hwaits.pending_iff, and_assoc, exists_and_left]

/-- Flushing gives a side file what is unanswered. -/
theorem mem_given_flush {k : SideFileKind} {outputs : PathSet} :
    outputs ∈ (ofMode root mode quiet).given files s k cs .flush ↔ mode.keeps k = true ∧
      ∃ since, Unanswered files (ofMode root mode quiet) s k cs outputs since := by
  rw [given_flush, Option.mem_toList, Debouncer.take_eq_some_iff]
  simp only [(waits_behind files root mode quiet s cs).pending_iff, exists_and_left]

/-- A side file is only given what is unanswered, and only if it is switched on. -/
theorem unanswered_of_mem_given {k : SideFileKind} {c : SideFileCall} {outputs : PathSet}
    (h : outputs ∈ (ofMode root mode quiet).given files s k cs c) : mode.keeps k = true ∧
      ∃ since, Unanswered files (ofMode root mode quiet) s k cs outputs since := by
  cases c with
  | request outputs now => cases h
  | poll now =>
    obtain ⟨hk, since, hunanswered, -⟩ := mem_given_poll.mp h
    exact ⟨hk, since, hunanswered⟩
  | flush => exact mem_given_flush.mp h

/-- A side file is given one set at most. -/
theorem length_given_le (k : SideFileKind) (c : SideFileCall) :
    ((ofMode root mode quiet).given files s k cs c).length ≤ 1 := by
  cases c with
  | request outputs now => exact Nat.zero_le 1
  | poll now =>
    rw [given_poll]
    exact Option.length_toList_le
  | flush =>
    rw [given_flush]
    exact Option.length_toList_le

/-- Side files that are switched on are given the same. -/
theorem given_alike {k l : SideFileKind} (hk : mode.keeps k = true) (hl : mode.keeps l = true)
    (c : SideFileCall) : (ofMode root mode quiet).given files s k cs c =
      (ofMode root mode quiet).given files s l cs c := by
  have htogether := (waits_behind files root mode quiet s cs).together k l hk hl
  cases c with
  | request outputs now => rfl
  | poll now => rw [given_poll, given_poll, htogether]
  | flush => rw [given_flush, given_flush, htogether]

/-- An attempt answers all that was requested: only a further request is unanswered again. -/
theorem not_unanswered_of_given {f : SideFiles} {k : SideFileKind} {c : SideFileCall}
    (hgiven : f.given files s k cs c ≠ []) {between : List SideFileCall}
    (hbetween : ∀ b ∈ between, b.isRequest = false) {outputs : PathSet} {since : Nat} :
    ¬ Unanswered files f s k (cs ++ c :: between) outputs since := by
  induction between using List.reverseRecOn with
  | nil =>
    have hc : c.isRequest = false := by
      cases c with
      | request outputs now => exact absurd rfl hgiven
      | poll now => rfl
      | flush => rfl
    rw [unanswered_concat_iff hc]
    exact fun h => hgiven h.2
  | append_singleton between b ih =>
    rw [← List.cons_append, ← List.append_assoc, unanswered_concat_iff (hbetween b (by simp))]
    exact fun h => ih (fun b hb => hbetween b (List.mem_append_left _ hb)) h.1

end Waits

/-- What is unanswered is the latest request, with no attempt made since. -/
theorem Unanswered.latest {files : FileSystem σ} {f : SideFiles} {s : σ} {k : SideFileKind}
    {cs : List SideFileCall} {outputs : PathSet} {since : Nat}
    (h : Unanswered files f s k cs outputs since) :
    ∃ earlier later, cs = earlier ++ .request outputs since :: later ∧
      (∀ c ∈ later, c.isRequest = false) ∧ ∀ done c rest, later = done ++ c :: rest →
        f.given files s k (earlier ++ .request outputs since :: done) c = [] := by
  -- a call behind the others adds itself to those that made no attempt
  induction h with
  | requested cs outputs now => exact ⟨cs, [], rfl, by simp, by simp⟩
  | @waiting cs outputs since before c other idle ih =>
    obtain ⟨earlier, later, rfl, hother, hidle⟩ := ih
    refine ⟨earlier, later ++ [c], by simp, ?_, fun done c' rest hrest => ?_⟩
    · simpa [or_imp, forall_and] using ⟨hother, other⟩
    · rcases List.eq_nil_or_concat rest with rfl | ⟨rest, last, rfl⟩
      · obtain ⟨rfl, hlast⟩ := List.append_inj' hrest rfl
        cases hlast
        exact idle
      · rw [List.concat_eq_append, ← List.cons_append, ← List.append_assoc] at hrest
        exact hidle done c' rest (List.append_inj' hrest rfl).1

/-- Side files behind calls follow the requests made to them. -/
structure FollowsRequests (files : FileSystem σ) (root : Path) (mode : Mode) (quiet : Nat) (s : σ)
    (cs : List SideFileCall) : Prop where
  /-- A call runs the attempts it makes one after another, whether they fail or not, and has an
  answer for each. -/
  runs : ∀ c, let now := (ofMode root mode quiet).behind files s cs
    Runs files now.2 (now.1.attempts files now.2 c) (now.1.answer files now.2 c).1
      (now.1.answer files now.2 c).2.2
  /-- Attempts are made on the project's own side files that are switched on. -/
  placed : ∀ c, let now := (ofMode root mode quiet).behind files s cs
    ∀ a ∈ now.1.attempts files now.2 c,
      a.file.path = a.file.kind.pathIn root ∧ mode.keeps a.file.kind = true
  /-- A call makes one attempt on a side file at most. -/
  single : ∀ k c, ((ofMode root mode quiet).given files s k cs c).length ≤ 1
  /-- A request makes none. -/
  request : ∀ k outputs now,
    (ofMode root mode quiet).given files s k cs (.request outputs now) = []
  /-- Polling makes one for what has been unanswered for the quiet period. -/
  poll : ∀ k now outputs, mode.keeps k = true →
    (outputs ∈ (ofMode root mode quiet).given files s k cs (.poll now) ↔
      ∃ since, Unanswered files (ofMode root mode quiet) s k cs outputs since ∧
        since + quiet ≤ now)
  /-- Flushing makes one for what is unanswered. -/
  flush : ∀ k outputs, mode.keeps k = true →
    (outputs ∈ (ofMode root mode quiet).given files s k cs .flush ↔
      ∃ since, Unanswered files (ofMode root mode quiet) s k cs outputs since)
  /-- What is unanswered is the latest request, and no attempt was made since. -/
  latest : ∀ k outputs since, Unanswered files (ofMode root mode quiet) s k cs outputs since →
    ∃ earlier later, cs = earlier ++ .request outputs since :: later ∧
      (∀ c ∈ later, c.isRequest = false) ∧ ∀ done c rest, later = done ++ c :: rest →
        (ofMode root mode quiet).given files s k (earlier ++ .request outputs since :: done) c = []
  /-- All that are switched on are given the same. -/
  alike : ∀ k l c, mode.keeps k = true → mode.keeps l = true →
    (ofMode root mode quiet).given files s k cs c = (ofMode root mode quiet).given files s l cs c
  /-- Between two attempts on a side file is a request, whether the first failed or not. -/
  once : ∀ k c between c', (ofMode root mode quiet).given files s k cs c ≠ [] →
    (ofMode root mode quiet).given files s k (cs ++ c :: between) c' ≠ [] →
      ∃ r ∈ between, r.isRequest = true
  /-- The deadline is the quiet period after what is unanswered. -/
  deadline : ∀ due, ((ofMode root mode quiet).behind files s cs).1.nextDeadline = some due ↔
    ∃ k outputs since, mode.keeps k = true ∧
      Unanswered files (ofMode root mode quiet) s k cs outputs since ∧ due = since + quiet
  /-- There is a deadline when something is pending. -/
  pending : ((ofMode root mode quiet).behind files s cs).1.nextDeadline.isSome =
    ((ofMode root mode quiet).behind files s cs).1.hasPending
  /-- From the deadline on, and not before, polling makes an attempt. -/
  punctual : ∀ due, ((ofMode root mode quiet).behind files s cs).1.nextDeadline = some due →
    ∀ now, ((∃ k, (ofMode root mode quiet).given files s k cs (.poll now) ≠ []) ↔ due ≤ now)

/-- Side files of a project, with nothing pending at first, follow the requests made to them. -/
theorem followsRequests (files : FileSystem σ) (root : Path) (mode : Mode) (quiet : Nat) (s : σ)
    (cs : List SideFileCall) : FollowsRequests files root mode quiet s cs := by
  have hwaits := waits_behind files root mode quiet s cs
  have hdeadline (due : Nat) :
      ((ofMode root mode quiet).behind files s cs).1.nextDeadline = some due ↔
        ∃ k outputs since, mode.keeps k = true ∧
          Unanswered files (ofMode root mode quiet) s k cs outputs since ∧ due = since + quiet := by
    simp only [hwaits.nextDeadline_eq_some_iff, hwaits.deadline_eq_some_iff, exists_and_left]
  have hready (take : Debouncer PathSet → Option PathSet × Debouncer PathSet) (htake : IsTake take) :=
    (hwaits.ready.take htake files ((ofMode root mode quiet).behind files s cs).2).attempted
  refine {
    runs := fun c => runs_attempts files _ _ c
    placed := fun c a ha => ?_
    single := length_given_le
    request := fun _ _ _ => rfl
    poll := fun k now outputs hk => ?_
    flush := fun k outputs hk => ?_
    latest := fun k outputs since h => h.latest
    alike := fun k l c hk hl => given_alike hk hl c
    once := fun k c between c' hfirst hsecond => ?_
    deadline := hdeadline
    pending := hwaits.isSome_nextDeadline
    punctual := fun due hdue now => ?_ }
  · have hplaced : a.file.IsOf root mode quiet a.file.kind ∧ mode.keeps a.file.kind = true := by
      cases c with
      | request outputs now => cases ha
      | poll now => exact hready _ (isTake_poll now) a (List.mem_append_right _ ha)
      | flush => exact hready _ isTake_take a (List.mem_append_right _ ha)
    exact ⟨hplaced.1.path, hplaced.2⟩
  · rw [mem_given_poll, and_iff_right hk]
  · rw [mem_given_flush, and_iff_right hk]
  · -- with no request between them there would be nothing left to give
    by_contra hnone
    obtain ⟨outputs, houtputs⟩ := List.exists_mem_of_ne_nil _ hsecond
    obtain ⟨-, since, hunanswered⟩ := unanswered_of_mem_given houtputs
    refine not_unanswered_of_given hfirst (fun b hb => ?_) hunanswered
    by_contra hb'
    exact hnone ⟨b, hb, by simpa using hb'⟩
  · constructor
    · rintro ⟨k, hgiven⟩
      obtain ⟨outputs, houtputs⟩ := List.exists_mem_of_ne_nil _ hgiven
      obtain ⟨hk, since, hunanswered, hsince⟩ := mem_given_poll.mp houtputs
      have hsome := (hdeadline (since + quiet)).mpr ⟨k, outputs, since, hk, hunanswered, rfl⟩
      rw [hdue] at hsome
      exact Option.some.inj hsome ▸ hsince
    · intro hnow
      obtain ⟨k, outputs, since, hk, hunanswered, rfl⟩ := (hdeadline due).mp hdue
      exact ⟨k, List.ne_nil_of_mem (mem_given_poll.mpr ⟨hk, since, hunanswered, hnow⟩)⟩

end SideFiles

end ArtifactSync
