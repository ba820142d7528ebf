import ArtifactSync.Proofs.FileSystem.Confined
import ArtifactSync.Proofs.Path.Inner
import ArtifactSync.Proofs.Path.SetEdit
import ArtifactSync.Proofs.Watch.Log

/-!
# Changes of independent paths

What a change does to a session over files in memory is a `Deed`: edits of the two sets, a text put
into a file or files taken away, and perhaps a request for updates (`done_handle`). Which deed it is
depends on little: on what the session knows of the path and of what lies below it, and on the text
of the path (`SameView`). A deed reaches little, too: sources at or below the path, and their outputs
(`Deed.Within`). So when neither of two paths lies below the other, what is done about the one does
not show in what the other one depends on (`Deed.Done.sameView`), and the two changes may come in
either order (`handle_comm`).
-/

namespace ArtifactSync

open Path Artifact

/-! ## What lies at or below a path -/

/-- Neither of two paths lies at or below the other. -/
structure Apart (p q : Path) : Prop where
  left : p.startsWith q = false
  right : q.startsWith p = false

/-- This is symmetric. -/
theorem Apart.symm {p q : Path} (h : Apart p q) : Apart q p :=
  ⟨h.right, h.left⟩

/-- No path lies at or below both. -/
theorem Apart.not_both {p q : Path} (h : Apart p q) {cs : List Component}
    (hp : p.components <+: cs) (hq : q.components <+: cs) : False := by
  rcases List.prefix_or_prefix_of_prefix hp hq with hpq | hqp
  · have := h.right
    rw [startsWith_iff.mpr hpq] at this
    cases this
  · have := h.left
    rw [startsWith_iff.mpr hqp] at this
    cases this

/-- The paths that a change of a path can be about: the path itself if it is a source, and what lies
below it. -/
inductive Near (p : Path) : Path → Prop
  | own (plain : p.IsPlain) (source : isSource p = true) : Near p p
  | below {s : Path} (plain : s.IsPlain) {rest : List Component} (named : rest ≠ [])
      (components : s.components = p.components ++ rest) : Near p s

namespace Near

variable {p q s t : Path}

/-- Such paths lie at or below the path. -/
theorem isPrefix (h : Near p s) : p.components <+: s.components := by
  cases h with
  | own plain source => exact List.prefix_refl _
  | below plain named components => exact ⟨_, components.symm⟩

/-- Such paths have ordinary names. -/
theorem isPlain (h : Near p s) : s.IsPlain := by
  cases h with
  | own plain source => exact plain
  | below plain named components => exact plain

/-- Such a path has a name of its own. -/
theorem exists_fileName (h : Near p s) : ∃ name, s.fileName? = some name := by
  cases h with
  | own plain source => exact exists_fileName_of_isSource source
  | @below _ plain rest named components =>
    obtain ⟨names, hnames⟩ := plain
    have hne : names ≠ [] := by
      rintro rfl
      simp [hnames, named] at components
    obtain ⟨front, last, rfl⟩ := (List.eq_nil_or_concat names).resolve_left hne
    exact ⟨last, by simp [fileName?, hnames, Component.name?]⟩

/-- The output of what lies below a path lies below it. -/
theorem isPrefix_output (h : Near p s) (kind : OutputKind) :
    (s = p ∧ isSource p = true) ∨ p.components <+: (output s kind).components.dropLast := by
  obtain ⟨name, hname⟩ := h.exists_fileName
  obtain ⟨c, hc, -, -⟩ := components_output_of_name hname kind
  cases h with
  | own plain source => exact .inl ⟨rfl, source⟩
  | @below _ plain rest named components =>
    right
    rw [hc, List.dropLast_concat, components, List.dropLast_append_of_ne_nil named]
    exact List.prefix_append _ _

/-- The directory of an output is that of its source. -/
theorem dropLast_output (h : Near p s) (kind : OutputKind) :
    (output s kind).components.dropLast <+: s.components := by
  obtain ⟨name, hname⟩ := h.exists_fileName
  obtain ⟨c, hc, -, -⟩ := components_output_of_name hname kind
  rw [hc, List.dropLast_concat]
  exact List.dropLast_prefix _

/-- Outputs lie inside. -/
theorem isInner_output (h : Near p s) (kind : OutputKind) : (output s kind).IsInner := by
  obtain ⟨name, hname⟩ := h.exists_fileName
  exact isInner_output_of_name h.isPlain hname kind

variable (hs : Near p s) (ht : Near q t) (hap : Apart p q)
include hs ht hap

/-- What changes of two paths are about is not the same. -/
theorem ne : s.same t = false := by
  by_contra hsame
  rw [Bool.not_eq_false, same_iff] at hsame
  exact hap.not_both hs.isPrefix (hsame ▸ ht.isPrefix)

/-- Neither are the outputs. -/
theorem output_ne (kind : OutputKind) : (output s kind).same (output t kind) = false := by
  by_contra hsame
  rw [Bool.not_eq_false] at hsame
  have hcomponents := same_iff.mp hsame
  rcases hs.isPrefix_output kind with ⟨rfl, hsource⟩ | hbelow
  · rcases ht.isPrefix_output kind with ⟨rfl, hsource'⟩ | hbelow
    · -- two sources have two outputs
      have hsame := same_iff.mp (same_of_output_same hsource hsource' hsame)
      exact hap.not_both (List.prefix_refl _) (hsame ▸ List.prefix_refl _)
    · rw [← hcomponents] at hbelow
      exact hap.not_both (List.prefix_refl _) (hbelow.trans (hs.dropLast_output kind))
  · rw [hcomponents] at hbelow
    exact hap.not_both (hbelow.trans (ht.dropLast_output kind)) ht.isPrefix

/-- The places of the outputs inside a project are different, too. -/
theorem place_ne (kind : OutputKind) (root : Path) :
    (root.join (output s kind)).same (root.join (output t kind)) = false := by
  rw [same_join (hs.isInner_output kind) (ht.isInner_output kind)]
  exact hs.output_ne ht hap kind

omit ht in
/-- No output takes the place of a source that is changed. -/
theorem place_ne_source (hq : q.IsPlain) (hsource : isSource q = true) (kind : OutputKind)
    (root : Path) : (root.join (output s kind)).same (root.join q) = false := by
  rw [same_join (hs.isInner_output kind) hq.isInner]
  by_contra hsame
  rw [Bool.not_eq_false] at hsame
  rcases hs.isPrefix_output kind with ⟨rfl, hsource'⟩ | hbelow
  · rw [← isSource_eq_of_same hsame, isSource_output hsource'] at hsource
    cases hsource
  · rw [same_iff.mp hsame] at hbelow
    exact hap.not_both (hbelow.trans (List.dropLast_prefix _)) (List.prefix_refl _)

end Near

/-! ## Calls over files in memory -/

namespace Memory

variable {m m' : Memory}

/-- What a reading answers depends on the faults and on the text of the file. -/
theorem read_congr {p : Path} (hfaults : m.faults = m'.faults) (htext : m.lookup? p = m'.lookup? p) :
    (fileSystem.read p m).1 = (fileSystem.read p m').1 := by
  simp only [fileSystem, unlessFault, hfaults, htext]
  split
  · rfl
  · split <;> rfl

/-- What a writing answers depends on the faults. -/
theorem write_congr (hfaults : m.faults = m'.faults) (p : Path) (text : String) :
    (fileSystem.write p text m).1 = (fileSystem.write p text m').1 := by
  simp only [fileSystem, unlessFault, hfaults]
  split <;> rfl

/-- Whether no fault hits a removal. -/
def mayRemove (m : Memory) (p : Path) : Bool :=
  (m.faults.find? (isFaultOf .remove p)).isNone

/-- A removal that no fault hits takes the file away, if it is there. -/
theorem lookup_remove (m : Memory) (p q : Path) : (fileSystem.remove p m).2.lookup? q =
    if m.mayRemove p && p.same q then none else m.lookup? q := by
  simp only [fileSystem, unlessFault]
  split
  · next hfault => simp [mayRemove, hfault]
  · next hfault =>
    have hmay : m.mayRemove p = true := by simp [mayRemove, hfault]
    rw [hmay, Bool.true_and]
    cases hsame : p.same q with
    | true =>
      rw [if_pos rfl, ← lookup_congr _ hsame]
      cases htext : m.lookup? p with
      | none => exact htext
      | some text => exact m.lookup_delete p
    | false =>
      rw [if_neg (by simp)]
      cases htext : m.lookup? p with
      | none => rfl
      | some text => exact m.lookup_delete_of_ne hsame

/-- A removal leaves the faults alone. -/
theorem faults_remove (m : Memory) (p : Path) : (fileSystem.remove p m).2.faults = m.faults := by
  rcases remove_cases p m with ⟨e, h⟩ | h
  · rw [h]
  · rw [h]
    rfl

end Memory

/-- An executor over files in memory, with a compiler that only looks at the source. -/
def Executor.overMemory (root : Path) (kind : OutputKind)
    (compile : String → Path → Except CompileError String) : Executor Memory :=
  ⟨root, kind, Memory.fileSystem, .pure compile⟩

variable {root : Path} {kind : OutputKind} {compile : String → Path → Except CompileError String}

/-- The text that the build of a source writes, unless it fails. -/
def writtenText? (root : Path) (kind : OutputKind)
    (compile : String → Path → Except CompileError String) (source : Path) (m : Memory) :
    Option String :=
  (Memory.fileSystem.read (root.join source) m).1.toOption.bind fun text =>
    (compile text source).toOption.bind fun compiled =>
      if succeeded (Memory.fileSystem.write (root.join (output source kind))
        (withHeader source compiled) m).1 then some (withHeader source compiled) else none

/-- It depends on the faults and on the text of the source. -/
theorem writtenText_congr {source : Path} {m m' : Memory} (hfaults : m.faults = m'.faults)
    (htext : m.lookup? (root.join source) = m'.lookup? (root.join source)) :
    writtenText? root kind compile source m = writtenText? root kind compile source m' := by
  simp only [writtenText?, Memory.read_congr hfaults htext, Memory.write_congr hfaults]

/-- A build writes its text to the output, or fails and changes nothing. -/
theorem build_overMemory (root : Path) (kind : OutputKind)
    (compile : String → Path → Except CompileError String) (source : Path) (m : Memory) :
    match writtenText? root kind compile source m with
    | some text => (Executor.overMemory root kind compile).build source m =
        (.ok (output source kind), m.put (root.join (output source kind)) text)
    | none => ∃ e, (Executor.overMemory root kind compile).build source m = (.error e, m) := by
  simp only [Executor.build, Executor.overMemory, Executor.outputFor, Compiler.pure]
  have hread : (Memory.fileSystem.read (root.join source) m).2 = m := by
    rcases Memory.read_cases (root.join source) m with ⟨f, -, -, h⟩ | h
    · rw [h]
    · rw [h]
  rcases hr : Memory.fileSystem.read (root.join source) m with ⟨_ | text, m₁⟩
  · obtain rfl : m₁ = m := by rwa [hr] at hread
    simp [writtenText?, hr, Except.toOption]
  · obtain rfl : m₁ = m := by rwa [hr] at hread
    rcases hc : compile text source with _ | compiled
    · simp [writtenText?, hr, hc, Except.toOption]
    · rcases Memory.write_cases (root.join (output source kind)) (withHeader source compiled) m₁ with
        ⟨e, hw⟩ | hw
      · simp [writtenText?, hr, hc, hw, Except.toOption, succeeded]
      · simp [writtenText?, hr, hc, hw, Except.toOption, succeeded]

/-! ## Deeds -/

/-- What a change does to a session over files in memory. -/
inductive Deed where
  | ignored
  | failed
  /-- The output of a source that was listed is written again. -/
  | rebuilt (source : Path) (text : String)
  /-- A source is built that was not tracked, or whose output was not listed. -/
  | listed (source : Path) (text : String)
  /-- Sources are gone, and those of their outputs that can be deleted. -/
  | dropped (gone deleted : List Path)

namespace Deed

/-- How a deed is reported. -/
def outcome : Deed → Outcome
  | ignored => .ignored
  | failed => .failed
  | rebuilt .. => .built
  | listed .. => .built
  | dropped .. => .removed

/-- What a deed makes of the tracked sources. -/
def sources : Deed → SetEdit
  | listed source _ => .insert source
  | dropped gone _ => .eraseAll gone
  | _ => .keep

/-- What a deed makes of the listed outputs. -/
def outputs (kind : OutputKind) : Deed → SetEdit
  | listed source _ => .insert (output source kind)
  | dropped gone _ => .eraseAll (gone.map (output · kind))
  | _ => .keep

/-- Whether a deed ends with a request for updates. -/
def announced : Deed → Bool
  | listed .. => true
  | dropped .. => true
  | _ => false

/-- What a deed makes of a session. -/
def after (kind : OutputKind) (now : Nat) (d : Deed) (s : Session) : Session :=
  let outputs := (d.outputs kind).apply s.outputs
  { s with
    sources := d.sources.apply s.sources
    outputs := outputs
    sideFiles := if d.announced then s.sideFiles.request outputs now else s.sideFiles }

/-- What a deed makes of a file: nothing, or the text that it has from then on, if any. -/
def text? (root : Path) (kind : OutputKind) : Deed → Path → Option (Option String)
  | rebuilt source text, q => if (root.join (output source kind)).same q then some (some text) else none
  | listed source text, q => if (root.join (output source kind)).same q then some (some text) else none
  | dropped _ deleted, q => if deleted.any (·.same q) then some none else none
  | _, _ => none

/-- A deed has been done to a run. -/
structure Done (root : Path) (kind : OutputKind) (now : Nat) (d : Deed) (r : Run Memory)
    (answer : Outcome × Run Memory) : Prop where
  outcome : answer.1 = d.outcome
  session : answer.2.session = d.after kind now r.session
  faults : answer.2.world.faults = r.world.faults
  lookup : ∀ q, answer.2.world.lookup? q = (d.text? root kind q).getD (r.world.lookup? q)

/-- The sources that a deed is about. -/
def about : Deed → List Path
  | rebuilt source _ => [source]
  | listed source _ => [source]
  | dropped gone _ => gone
  | _ => []

/-- A deed is about sources at or below a path, and deletes no other outputs than theirs. -/
structure Within (root : Path) (kind : OutputKind) (p : Path) (d : Deed) : Prop where
  near : ∀ s ∈ d.about, Near p s
  deleted : ∀ gone deleted, d = .dropped gone deleted →
    ∀ o ∈ deleted, ∃ s ∈ gone, o = root.join (output s kind)

end Deed

namespace Run

/-- The deed of a build. -/
def deedOfBuild (root : Path) (kind : OutputKind)
    (compile : String → Path → Except CompileError String) (r : Run Memory) (source : Path) : Deed :=
  match writtenText? root kind compile source r.world with
  | none => .failed
  | some text =>
    if r.session.sources.contains source && r.session.outputs.contains (output source kind) then
      .rebuilt source text
    else .listed source text

/-- The deed of dropping sources. -/
def deedOfDrop (root : Path) (kind : OutputKind) (r : Run Memory) (gone : List Path) : Deed :=
  if gone = [] then .ignored
  else .dropped gone
    ((gone.map fun source => root.join (output source kind)).filter r.world.mayRemove)

/-- The deed of a change. -/
def deed (root : Path) (kind : OutputKind) (compile : String → Path → Except CompileError String)
    (r : Run Memory) (c : Change) : Deed :=
  if r.session.phase ≠ .watching then .ignored
  else
    match c.kind with
    | .unlink => deedOfDrop root kind r <|
        if r.session.sources.contains c.path then (if isSource c.path then [c.path] else [])
        else if c.path.chars = [] then [] else r.below c.path
    | .add => if isSource c.path then deedOfBuild root kind compile r c.path else .ignored
    | .change =>
      if isSource c.path && r.session.sources.contains c.path then
        deedOfBuild root kind compile r c.path
      else .ignored

/-! ## What changes do -/

section Handle

variable {r : Run Memory} {now : Nat}

/-- A change that is none of the session's business. -/
theorem done_ignored (root : Path) (kind : OutputKind) (now : Nat) (r : Run Memory) :
    Deed.ignored.Done root kind now r (.ignored, r) :=
  ⟨rfl, rfl, rfl, fun _ => rfl⟩

/-- A text that is put under a path is the one found there. -/
theorem lookup_put_eq (m : Memory) (p q : Path) (text : String) :
    (m.put p text).lookup? q =
      (if p.same q then some (some text) else none).getD (m.lookup? q) := by
  cases hsame : p.same q with
  | true => rw [← Memory.lookup_congr _ hsame, Memory.lookup_put]; rfl
  | false => exact Memory.lookup_put_of_ne m hsame text

/-- A source that appears is built. -/
theorem done_onAdd {source : Path} (hfresh : r.session.sources.contains source = false) :
    (deedOfBuild root kind compile r source).Done root kind now r
      (r.onAdd (.overMemory root kind compile) source now) := by
  have hbuild := build_overMemory root kind compile source r.world
  unfold onAdd Run.build deedOfBuild
  cases htext : writtenText? root kind compile source r.world with
  | none =>
    rw [htext] at hbuild
    obtain ⟨e, hbuild⟩ := hbuild
    rw [hbuild]
    exact ⟨rfl, rfl, rfl, fun _ => rfl⟩
  | some text =>
    rw [htext] at hbuild
    simp only [hbuild, hfresh, Bool.false_and, Bool.false_eq_true, if_false]
    exact ⟨rfl, rfl, rfl, fun q => lookup_put_eq r.world _ q text⟩

/-- A source that changes is built. -/
theorem done_onChange {source : Path} (htracked : r.session.sources.contains source = true) :
    (deedOfBuild root kind compile r source).Done root kind now r
      (r.onChange (.overMemory root kind compile) source now) := by
  have hbuild := build_overMemory root kind compile source r.world
  unfold onChange Run.build deedOfBuild
  cases htext : writtenText? root kind compile source r.world with
  | none =>
    rw [htext] at hbuild
    obtain ⟨e, hbuild⟩ := hbuild
    rw [hbuild]
    exact ⟨rfl, rfl, rfl, fun _ => rfl⟩
  | some text =>
    rw [htext] at hbuild
    simp only [hbuild, htracked, Bool.true_and, emit]
    cases hlisted : r.session.outputs.contains (output source kind) with
    | true => exact ⟨rfl, rfl, rfl, fun q => lookup_put_eq r.world _ q text⟩
    | false =>
      refine ⟨rfl, ?_, rfl, fun q => lookup_put_eq r.world _ q text⟩
      -- taking in what is tracked changes nothing
      simp [Deed.after, Deed.sources, Deed.outputs, Deed.announced, SetEdit.apply, list,
        requestSync, PathSet.insert_of_contains htracked]

/-- A source that is dropped takes its output along. -/
theorem world_onUnlink (r : Run Memory) (source : Path) :
    (onUnlink (.overMemory root kind compile) now r source).world =
      (Memory.fileSystem.remove (root.join (output source kind)) r.world).2 := by
  rw [onUnlink, requestSync, emit, deleteOutput_world]
  rfl

/-- The session after sources were dropped, one after another: only the latest request counts. -/
theorem session_foldl_onUnlink {gone : List Path} (hne : gone ≠ []) (r : Run Memory) :
    (gone.foldl (onUnlink (.overMemory root kind compile) now) r).session =
      (Deed.dropped gone []).after kind now r.session := by
  induction gone generalizing r with
  | nil => exact absurd rfl hne
  | cons source rest ih =>
    rw [List.foldl_cons]
    by_cases hrest : rest = []
    · subst hrest
      rw [List.foldl_nil, onUnlink_session]
      rfl
    · rw [ih hrest, onUnlink_session]
      simp only [Deed.after, Deed.announced, if_true, SideFiles.request_request]
      rfl

/-- The files after sources were dropped, one after another. -/
theorem world_foldl_onUnlink (root : Path) (kind : OutputKind)
    (compile : String → Path → Except CompileError String) (now : Nat) (gone : List Path)
    (r : Run Memory) :
    (gone.foldl (onUnlink (.overMemory root kind compile) now) r).world.faults = r.world.faults ∧
      ∀ q, (gone.foldl (onUnlink (.overMemory root kind compile) now) r).world.lookup? q =
        if ((gone.map fun source => root.join (output source kind)).filter
          r.world.mayRemove).any (·.same q) then none else r.world.lookup? q := by
  induction gone generalizing r with
  | nil => exact ⟨rfl, fun _ => rfl⟩
  | cons source rest ih =>
    have hfirst : (onUnlink (.overMemory root kind compile) now r source).world =
        (Memory.fileSystem.remove (root.join (output source kind)) r.world).2 :=
      world_onUnlink r source
    have hmay : (onUnlink (.overMemory root kind compile) now r source).world.mayRemove =
        r.world.mayRemove := by
      funext p
      rw [Memory.mayRemove, hfirst, Memory.faults_remove, Memory.mayRemove]
    obtain ⟨hfaults, hlookup⟩ := ih (onUnlink (.overMemory root kind compile) now r source)
    refine ⟨by rw [List.foldl_cons, hfaults, hfirst, Memory.faults_remove], fun q => ?_⟩
    rw [List.foldl_cons, hlookup, hmay, hfirst, Memory.lookup_remove, List.map_cons,
      List.filter_cons]
    -- the first output is deleted, or one of the others, or none
    by_cases hrest : ((rest.map fun source => root.join (output source kind)).filter
        r.world.mayRemove).any (·.same q) = true
    · rw [if_pos hrest, if_pos]
      split
      · rw [List.any_cons, hrest, Bool.or_true]
      · exact hrest
    · rw [if_neg hrest]
      rw [Bool.not_eq_true] at hrest
      cases r.world.mayRemove (root.join (output source kind)) <;> simp [hrest]

/-- Sources that are dropped, one after another. -/
theorem done_drop {gone : List Path} (hne : gone ≠ []) (r : Run Memory) :
    (deedOfDrop root kind r gone).Done root kind now r
      (.removed, gone.foldl (onUnlink (.overMemory root kind compile) now) r) := by
  obtain ⟨hfaults, hlookup⟩ := world_foldl_onUnlink root kind compile now gone r
  rw [deedOfDrop, if_neg hne]
  refine ⟨rfl, session_foldl_onUnlink hne r, hfaults, fun q => ?_⟩
  rw [hlookup, Deed.text?]
  split <;> rfl

/-- What was no tracked source is gone, with the sources below it. -/
theorem done_onUnlinkTree (dir : Path) (r : Run Memory) :
    (deedOfDrop root kind r (if dir.chars = [] then [] else r.below dir)).Done root kind now r
      (r.onUnlinkTree (.overMemory root kind compile) dir now) := by
  simp only [onUnlinkTree, below]
  generalize (if dir.chars = [] then [] else r.session.sources.paths.filter (·.startsWith dir)) = gone
  split
  · next hnone =>
    rw [deedOfDrop, if_pos hnone]
    exact done_ignored root kind now r
  · next hgone => exact done_drop hgone r

/-- Every change does its deed. -/
theorem done_handle (root : Path) (kind : OutputKind)
    (compile : String → Path → Except CompileError String) (now : Nat) (r : Run Memory)
    (c : Change) : (r.deed root kind compile c).Done root kind now r
      (r.handle (.overMemory root kind compile) c now) := by
  have hignored := done_ignored root kind now r
  unfold deed handle
  split
  · exact hignored
  · cases htracked : r.session.sources.contains c.path with
    | true =>
      cases hsource : isSource c.path with
      | true =>
        cases c.kind with
        | unlink => exact done_drop (by simp) r
        | add => exact done_onChange htracked
        | change => exact done_onChange htracked
      | false => cases c.kind <;> exact hignored
    | false =>
      cases hkind : c.kind with
      | unlink => exact done_onUnlinkTree c.path r
      | add =>
        cases hsource : isSource c.path with
        | true => exact done_onAdd htracked
        | false => exact hignored
      | change =>
        simp only [Bool.and_false, Bool.false_eq_true, if_false]
        exact hignored

end Handle

/-! ## What a deed depends on -/

/-- Two runs look alike to changes of a path. -/
structure SameView (root : Path) (kind : OutputKind) (p : Path) (r r' : Run Memory) : Prop where
  phase : r.session.phase = r'.session.phase
  faults : r.world.faults = r'.world.faults
  tracked : r.session.sources.contains p = r'.session.sources.contains p
  below : r.below p = r'.below p
  listed : isSource p = true →
    r.session.outputs.contains (output p kind) = r'.session.outputs.contains (output p kind)
  text : isSource p = true → r.world.lookup? (root.join p) = r'.world.lookup? (root.join p)

/-- Runs that look alike to a change have the same deed done to them. -/
theorem SameView.deed_eq {r r' : Run Memory} {c : Change} (h : SameView root kind c.path r r') :
    r.deed root kind compile c = r'.deed root kind compile c := by
  have hmay : r.world.mayRemove = r'.world.mayRemove := by
    funext p
    rw [Memory.mayRemove, h.faults, Memory.mayRemove]
  have hbuild (hsource : isSource c.path = true) :
      deedOfBuild root kind compile r c.path = deedOfBuild root kind compile r' c.path := by
    rw [deedOfBuild, deedOfBuild, writtenText_congr h.faults (h.text hsource), h.tracked,
      h.listed hsource]
  have hdrop (gone : List Path) : deedOfDrop root kind r gone = deedOfDrop root kind r' gone := by
    rw [deedOfDrop, deedOfDrop, hmay]
  unfold deed
  rw [h.phase, h.tracked, h.below, hdrop]
  cases hsource : isSource c.path with
  | true => rw [hbuild hsource]
  | false => rfl

/-- A deed is about sources at or below the path of the change. -/
theorem within_deed (root : Path) (kind : OutputKind)
    (compile : String → Path → Except CompileError String) {r : Run Memory} {c : Change}
    (hc : c.path.IsPlain) (hr : ∀ s ∈ r.session.sources.paths, s.IsPlain) :
    (r.deed root kind compile c).Within root kind c.path := by
  have hignored : Deed.ignored.Within root kind c.path := ⟨by simp [Deed.about], by simp⟩
  have hbuild (hsource : isSource c.path = true) :
      (deedOfBuild root kind compile r c.path).Within root kind c.path := by
    have hown : Near c.path c.path := .own hc hsource
    unfold deedOfBuild
    split
    · exact ⟨by simp [Deed.about], by simp⟩
    · split
      · exact ⟨by simpa [Deed.about] using hown, by simp⟩
      · exact ⟨by simpa [Deed.about] using hown, by simp⟩
  have hdrop {gone : List Path} (hgone : ∀ s ∈ gone, Near c.path s) :
      (deedOfDrop root kind r gone).Within root kind c.path := by
    unfold deedOfDrop
    split
    · exact hignored
    · refine ⟨hgone, ?_⟩
      rintro _ _ ⟨⟩ o ho
      obtain ⟨s, hs, rfl⟩ := List.mem_map.mp (List.mem_filter.mp ho).1
      exact ⟨s, hs, rfl⟩
  unfold deed
  split
  · exact hignored
  · split
    · refine hdrop fun s hs => ?_
      split at hs
      · split at hs
        · next hsource =>
          obtain rfl := List.mem_singleton.mp hs
          exact .own hc hsource
        · cases hs
      · next htracked =>
        split at hs
        · cases hs
        · -- what is tracked below the path is not the path
          obtain ⟨hs, hbelow⟩ := List.mem_filter.mp hs
          rw [startsWith_iff] at hbelow
          obtain ⟨rest, hrest⟩ := hbelow
          have hnamed : rest ≠ [] := by
            rintro rfl
            rw [List.append_nil] at hrest
            exact htracked (PathSet.contains_iff.mpr ⟨s, hs, same_iff.mpr hrest.symm⟩)
          exact .below (hr s hs) hnamed hrest.symm
    · split
      · next hsource => exact hbuild hsource
      · exact hignored
    · split
      · next h => exact hbuild (Bool.and_eq_true_iff.mp h).1
      · exact hignored

end Run

namespace Deed

open Run

variable {p q : Path} {d e : Deed} {now : Nat} {r : Run Memory} {answer : Outcome × Run Memory}

/-- A deed takes in or drops what it is about. -/
theorem Within.sources (h : d.Within root kind p) : ∀ s ∈ d.sources.reach, Near p s := by
  intro s hs
  cases d with
  | listed source text => exact h.near s hs
  | dropped gone deleted => exact h.near s hs
  | ignored | failed | rebuilt source text => cases hs

/-- A deed lists or drops outputs of what it is about. -/
theorem Within.outputs (h : d.Within root kind p) :
    ∀ o ∈ (d.outputs kind).reach, ∃ s, Near p s ∧ o = output s kind := by
  intro o ho
  cases d with
  | listed source text =>
    exact ⟨source, h.near source (by simp [about]), by simpa [Deed.outputs, SetEdit.reach] using ho⟩
  | dropped gone deleted =>
    obtain ⟨s, hs, rfl⟩ := List.mem_map.mp ho
    exact ⟨s, h.near s hs, rfl⟩
  | ignored | failed | rebuilt source text => cases ho

/-- A deed writes or deletes outputs of what it is about. -/
theorem Within.text (h : d.Within root kind p) {q : Path} (hq : d.text? root kind q ≠ none) :
    ∃ s, Near p s ∧ (root.join (output s kind)).same q = true := by
  have hbuilt {source : Path} {text : String} (hnear : Near p source)
      (hq : (if (root.join (output source kind)).same q then some (some text) else none) ≠ none) :
      ∃ s, Near p s ∧ (root.join (output s kind)).same q = true :=
    ⟨source, hnear, by simpa using hq⟩
  cases d with
  | rebuilt source text => exact hbuilt (h.near source (by simp [about])) hq
  | listed source text => exact hbuilt (h.near source (by simp [about])) hq
  | dropped gone deleted =>
    simp only [text?, ne_eq, ite_eq_right_iff, reduceCtorEq, imp_false, not_not,
      List.any_eq_true] at hq
    obtain ⟨o, ho, hsame⟩ := hq
    obtain ⟨s, hs, rfl⟩ := h.deleted gone deleted rfl o ho
    exact ⟨s, h.near s hs, hsame⟩
  | ignored | failed => exact absurd rfl hq

/-- What is done about one path does not show to changes of another. -/
theorem Done.sameView (h : d.Done root kind now r answer) (hd : d.Within root kind q)
    (hap : Apart p q) (hp : p.IsPlain) : SameView root kind p answer.2 r where
  phase := by rw [h.session]; rfl
  faults := h.faults
  tracked := by
    rw [h.session]
    refine SetEdit.contains_apply fun s hs => ?_
    by_contra hsame
    rw [Bool.not_eq_false, same_iff] at hsame
    exact hap.not_both (List.prefix_refl _) (hsame ▸ (hd.sources s hs).isPrefix)
  below := by
    rw [below, below, h.session]
    refine SetEdit.filter_apply (fun s t hst => ?_) fun s hs => ?_
    · rw [startsWith, startsWith, same_iff.mp hst]
    · by_contra hbelow
      rw [Bool.not_eq_false, startsWith_iff] at hbelow
      exact hap.not_both hbelow (hd.sources s hs).isPrefix
  listed := by
    intro hsource
    rw [h.session]
    refine SetEdit.contains_apply fun o ho => ?_
    obtain ⟨s, hs, rfl⟩ := hd.outputs o ho
    exact hs.output_ne (.own hp hsource) hap.symm kind
  text := by
    intro hsource
    rw [h.lookup]
    cases htext : d.text? root kind (root.join p) with
    | none => rfl
    | some text =>
      obtain ⟨s, hs, hsame⟩ := hd.text (by rw [htext]; simp)
      rw [hs.place_ne_source hap.symm hp hsource] at hsame
      cases hsame

/-- Two deeds about different paths make the same of a session in either order. -/
theorem after_comm (hd : d.Within root kind p) (he : e.Within root kind q) (hap : Apart p q)
    (s : Session) : e.after kind now (d.after kind now s) = d.after kind now (e.after kind now s) := by
  have hsources := SetEdit.apply_comm (fun a ha b hb =>
    (hd.sources a ha).ne (he.sources b hb) hap) s.sources
  have hreach : ∀ a ∈ (d.outputs kind).reach, ∀ b ∈ (e.outputs kind).reach, a.same b = false := by
    intro a ha b hb
    obtain ⟨a, hnear, rfl⟩ := hd.outputs a ha
    obtain ⟨b, hnear', rfl⟩ := he.outputs b hb
    exact hnear.output_ne hnear' hap kind
  have houtputs := SetEdit.apply_comm hreach s.outputs
  have hkeep (d : Deed) (hquiet : d.announced = false) (t : PathSet) :
      (d.outputs kind).apply t = t := by
    cases d <;> first | rfl | cases hquiet
  simp only [after, hsources, houtputs, Session.mk.injEq, true_and, and_true]
  -- the last request counts, and a deed that makes none has not changed the outputs
  cases hannounced : d.announced with
  | true =>
    cases hannounced' : e.announced with
    | true => simp [SideFiles.request_request]
    | false => simp [hkeep e hannounced']
  | false =>
    cases hannounced' : e.announced with
    | true => simp [hkeep d hannounced]
    | false => simp

/-- Two deeds about different paths make the same of a file in either order. -/
theorem text_comm (hd : d.Within root kind p) (he : e.Within root kind q) (hap : Apart p q)
    (path : Path) (old : Option String) :
    (e.text? root kind path).getD ((d.text? root kind path).getD old) =
      (d.text? root kind path).getD ((e.text? root kind path).getD old) := by
  cases htext : d.text? root kind path with
  | none => rfl
  | some text =>
    cases htext' : e.text? root kind path with
    | none => rfl
    | some text' =>
      obtain ⟨s, hs, hsame⟩ := hd.text (by rw [htext]; simp)
      obtain ⟨t, ht, hsame'⟩ := he.text (by rw [htext']; simp)
      rw [same_comm] at hsame'
      have hne := hs.place_ne ht hap kind root
      rw [same_trans hsame hsame'] at hne
      cases hne

end Deed

namespace Run

/-- Changes of paths of which neither lies at or below the other may come in either order: each has
the same outcome, the session ends in the same state with the same updates pending, and every file
ends with the same text, whatever faults there are. -/
theorem handle_comm (root : Path) (kind : OutputKind)
    (compile : String → Path → Except CompileError String) (now : Nat) (r : Run Memory)
    (hr : ∀ s ∈ r.session.sources.paths, s.IsPlain) (b c : Change) (hb : b.path.IsPlain)
    (hc : c.path.IsPlain) (hap : Apart b.path c.path) :
    let x := Executor.overMemory root kind compile
    let first := r.handle x b now
    let second := first.2.handle x c now
    let first' := r.handle x c now
    let second' := first'.2.handle x b now
    second.2.session = second'.2.session ∧
      (∀ p, second.2.world.lookup? p = second'.2.world.lookup? p) ∧
      first.1 = second'.1 ∧ second.1 = first'.1 := by
  intro x first second first' second'
  have hwithinB := within_deed root kind compile hb hr
  have hwithinC := within_deed root kind compile hc hr
  have hfirst := done_handle root kind compile now r b
  have hfirst' := done_handle root kind compile now r c
  -- neither change shows to the other, so the deeds are the same in both orders
  have hsecond := done_handle root kind compile now first.2 c
  rw [(hfirst.sameView hwithinB hap.symm hc).deed_eq] at hsecond
  have hsecond' := done_handle root kind compile now first'.2 b
  rw [(hfirst'.sameView hwithinC hap hb).deed_eq] at hsecond'
  refine ⟨?_, fun p => ?_, hfirst.outcome.trans hsecond'.outcome.symm,
    hsecond.outcome.trans hfirst'.outcome.symm⟩
  · rw [hsecond.session, hsecond'.session, hfirst.session, hfirst'.session]
    exact Deed.after_comm hwithinB hwithinC hap r.session
  · rw [hsecond.lookup, hsecond'.lookup, hfirst.lookup, hfirst'.lookup]
    exact Deed.text_comm hwithinB hwithinC hap p _

/-- A folder disappears and a source appears elsewhere, in either order. -/
theorem handle_comm_folder :
    let source : Path := .ofString "lib/a.civet"
    let new : Path := .ofString "b.civet"
    let m : Memory := ⟨[(.ofString "/b.civet", "b"), (.ofString "/lib/a.ts", "a")], []⟩
    let r : Run Memory := ⟨⟨PathSet.empty.insert source, PathSet.empty.insert (output source .ts),
      .new ⟨['/']⟩ true true 50, .watching⟩, m, []⟩
    let x : Executor Memory := .overMemory ⟨['/']⟩ .ts fun text _ => .ok text
    let gone : Change := ⟨.unlink, .ofString "lib"⟩
    let added : Change := ⟨.add, new⟩
    ((∀ s ∈ r.session.sources.paths, s.IsPlain) ∧ gone.path.IsPlain ∧ added.path.IsPlain ∧
        Apart gone.path added.path) ∧
      ((r.handle x gone 7).2.handle x added 7).2.session =
        ((r.handle x added 7).2.handle x gone 7).2.session ∧
      (∀ p, ((r.handle x gone 7).2.handle x added 7).2.world.lookup? p =
        ((r.handle x added 7).2.handle x gone 7).2.world.lookup? p) ∧
      ((r.handle x added 7).2.handle x gone 7).1 = .removed ∧
      ((r.handle x gone 7).2.handle x added 7).1 = .built := by
  intro source new m r x gone added
  have hr : ∀ s ∈ r.session.sources.paths, s.IsPlain := by
    intro s hs
    obtain rfl : s = source := List.mem_singleton.mp hs
    exact ⟨["lib".toList, "a.civet".toList], by decide⟩
  have hgone : gone.path.IsPlain := ⟨["lib".toList], by decide⟩
  have hadded : added.path.IsPlain := ⟨["b.civet".toList], by decide⟩
  have hap : Apart gone.path added.path := ⟨by decide, by decide⟩
  obtain ⟨hsession, hlookup, hfirst, hsecond⟩ :=
    handle_comm ⟨['/']⟩ .ts (fun text _ => .ok text) 7 r hr gone added hgone hadded hap
  exact ⟨⟨hr, hgone, hadded, hap⟩, hsession, hlookup, hfirst.symm.trans (by decide),
    hsecond.trans (by decide)⟩

end Run

end ArtifactSync