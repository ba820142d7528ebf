import ArtifactSync.Proofs.Watch.LastGood
import ArtifactSync.Proofs.Watch.Preserve

/-!
# What a session removes

A session removes files by name: when a source is gone, so is whatever stands at the place of its
output. `Executor.noting` is an executor in a world that notes each file that is removed and what it
held at that moment. Nobody looks at the header before, so a file that somebody else put there goes
too (`not_removesGenerated_edited`). What holds is that nothing but outputs of sources that a change
drops is ever removed, and that such an output is one that was generated as long as others keep their
hands off it (`Bears`): the session itself puts nothing there but outputs with the header of the
source (`bears_call`).
-/

namespace ArtifactSync

open Path Artifact

variable {σ : Type}

/-! ## Worlds that note what is removed -/

/-- A world with a record of the files that were removed from it, in order, each with the text that
it held then. -/
structure Noted (σ : Type) where
  world : σ
  removed : List (Path × Option String)

/-- Runs a call that removes nothing inside a noted world. -/
def Noted.aside {α : Type} (run : σ → α × σ) (s : Noted σ) : α × Noted σ :=
  ((run s.world).1, ⟨(run s.world).2, s.removed⟩)

/-- Runs a removal inside a noted world, and notes it if it succeeds. -/
def Noted.remove {ε α : Type} (path : Path) (text : Option String) (run : σ → Except ε α × σ)
    (s : Noted σ) : Except ε α × Noted σ :=
  ((run s.world).1, ⟨(run s.world).2,
    if succeeded (run s.world).1 then s.removed ++ [(path, text)] else s.removed⟩)

/-- The same file system with a record of what is removed. -/
def FileSystem.noting (files : FileSystem σ) (text? : Path → σ → Option String) :
    FileSystem (Noted σ) where
  read path := Noted.aside (files.read path)
  write path text := Noted.aside (files.write path text)
  remove path s := Noted.remove path (text? path s.world) (files.remove path) s
  createDirs path := Noted.aside (files.createDirs path)

/-- The same executor in a world that notes what is removed. -/
def Executor.noting (x : Executor σ) (text? : Path → σ → Option String) : Executor (Noted σ) where
  root := x.root
  kind := x.kind
  files := x.files.noting text?
  compiler text source := Noted.aside (x.compiler text source)

/-- The same turn in a world that notes what a session removes: what happens outside is not noted. -/
def Turn.noted : Turn σ → Turn (Noted σ)
  | call c => .call c
  | outside change => .outside fun s => ⟨change s.world, s.removed⟩

/-- What is removed was there, and is gone under every spelling of its path. -/
structure FileSystem.Erases (files : FileSystem σ) (text? : Path → σ → Option String) : Prop where
  there : ∀ {p s}, succeeded (files.remove p s).1 = true → (text? p s).isSome = true
  gone : ∀ {p q s}, p.same q = true → succeeded (files.remove p s).1 = true →
    text? q (files.remove p s).2 = none

/-- Files in memory are erased. -/
theorem Memory.erases : fileSystem.Erases fun p m => m.lookup? p where
  there := by
    intro p m h
    simp only [fileSystem, unlessFault] at h
    split at h
    · cases h
    · cases hlookup : m.lookup? p with
      | none =>
        rw [hlookup] at h
        cases h
      | some text => rfl
  gone := by
    intro p q m hsame h
    rcases remove_cases p m with ⟨e, hremove⟩ | hremove
    · rw [hremove] at h
      cases h
    · rw [hremove]
      exact (lookup_congr _ hsame).symm.trans (lookup_delete m p)

/-! ## Headers -/

/-- The output of a source that is seen from the root is seen from there too. -/
theorem isRooted_output {p : Path} (h : isSource p = true) (hroot : p.isRooted = false)
    (kind : OutputKind) : (output p kind).isRooted = false := by
  by_contra hrooted
  rw [Bool.not_eq_false] at hrooted
  obtain ⟨front, stem, behind, hcut, hstem, rfl⟩ := exists_cut_of_isSource h
  have hcomponents := (components_of_isRooted hrooted).2
  rw [components_output hcut hstem] at hcomponents
  -- the root does not come last, so it leads the source as well
  have hsource : (ofCut front (stem ++ '.' :: sourceExtension) behind).startsWith ⟨['/']⟩ = true := by
    rw [startsWith, components_source hcut]
    cases hfront : frontComponents front with
    | nil =>
      rw [hfront, List.nil_append] at hcomponents
      split at hcomponents <;> cases hcomponents
    | cons first later =>
      rw [hfront, List.cons_append, List.cons.injEq] at hcomponents
      rw [hcomponents.1]
      rfl
  rw [isRooted_of_startsWith rfl hsource] at hroot
  cases hroot

/-- Sources whose outputs have one place behind a root are shown alike, whatever dots lead them. -/
theorem toSlash_eq_of_place {root p q : Path} {kind : OutputKind} (hp : isSource p = true)
    (hq : isSource q = true) (hproot : p.isRooted = false) (hqroot : q.isRooted = false)
    (h : (root.join (output p kind)).same (root.join (output q kind)) = true) :
    p.toSlash = q.toSlash := by
  have hpout := isRooted_output hp hproot kind
  have hqout := isRooted_output hq hqroot kind
  have hsteps : (output p kind).steps = (output q kind).steps := by
    rw [same_iff] at h
    by_cases hbase : root.chars = []
    · have hlead (o : Path) (ho : o.isRooted = false) : root.join o = o := by
        rw [join_eq_lead ho]
        simp [lead, hbase]
      rw [hlead _ hpout, hlead _ hqout] at h
      rw [steps_eq hpout, steps_eq hqout, h]
    · rw [components_join hbase hpout, components_join hbase hqout] at h
      exact List.append_cancel_left h
  obtain ⟨front, stem, behind, hcut, hstem, rfl⟩ := exists_cut_of_isSource hp
  obtain ⟨front', stem', behind', hcut', hstem', rfl⟩ := exists_cut_of_isSource hq
  have hlast (stem : List Char) (behind : List (List Char)) :
      (if behind = [] ∧ stem = ['.'] then Component.up else .name (stem ++ '.' :: kind.extension)) ≠
        .here := by
    split <;> simp
  rw [steps_eq hpout, steps_eq hqout, components_output hcut hstem, components_output hcut' hstem',
    List.filter_append, List.filter_append, List.filter_singleton, List.filter_singleton] at hsteps
  simp only [hlast, ne_eq, not_false_eq_true, decide_true] at hsteps
  obtain ⟨hfront, hend⟩ := List.append_inj' hsteps rfl
  have hnames (front : List (List Char)) : (frontComponents front).filterMap Component.name? =
      ((frontComponents front).filter (· ≠ .here)).filterMap Component.name? := by
    rw [List.filterMap_filter]
    refine List.filterMap_congr fun c _ => ?_
    cases c <;> rfl
  rw [toSlash, toSlash, components_source hcut, components_source hcut',
    stem_eq_of_last (List.singleton_inj.mp hend), List.filterMap_append, List.filterMap_append,
    hnames, hnames, hfront]

/-- So they have one header. -/
theorem withHeader_eq_of_place {root p q : Path} {kind : OutputKind} (hp : isSource p = true)
    (hq : isSource q = true) (hproot : p.isRooted = false) (hqroot : q.isRooted = false)
    (h : (root.join (output p kind)).same (root.join (output q kind)) = true) (compiled : String) :
    withHeader p compiled = withHeader q compiled := by
  unfold withHeader
  rw [toSlash_eq_of_place hp hq hproot hqroot h]

/-- What stands at the place of the output of a source, if anything does, begins with the header of
the source. -/
def Bears (x : Executor σ) (text? : Path → σ → Option String) (source : Path) (s : σ) : Prop :=
  ∀ text, text? (x.root.join (x.outputFor source)) s = some text →
    ∃ compiled, text = withHeader source compiled

/-- A source seen from the root. -/
structure Relative (p : Path) : Prop where
  source : isSource p = true
  isRooted : p.isRooted = false

section Bears

variable {x : Executor σ} {text? : Path → σ → Option String} {source : Path}

/-- A file that holds what it held bears the header that it bore. -/
theorem Bears.congr {s s' : σ} (h : Bears x text? source s)
    (htext : text? (x.root.join (x.outputFor source)) s' =
      text? (x.root.join (x.outputFor source)) s) : Bears x text? source s' := by
  intro text hs'
  exact h text (by rwa [htext] at hs')

/-- Whatever a session does, the output of a source keeps its header. -/
theorem preserves_bears (hx : x.Exact text?) (herases : x.files.Erases text?)
    (hsource : Relative source) : x.Preserves Relative Relative (Bears x text? source) where
  read p s h := h.congr (hx.files.read_keeps ..)
  createDirs p s h := h.congr (hx.files.createDirs_keeps ..)
  compile text p s h := h.congr (hx.compiler_keeps ..)
  output p compiled s hp h := by
    cases hdone : succeeded
        (x.files.write (x.root.join (x.outputFor p)) (withHeader p compiled) s).1 with
    | false => exact h.congr (hx.files.write_keeps (.inr hdone))
    | true =>
      cases hplace : (x.root.join (x.outputFor p)).same (x.root.join (x.outputFor source)) with
      | false => exact h.congr (hx.files.write_keeps (.inl hplace))
      | true =>
        intro text htext
        rw [hx.files.write_ok hplace hdone, Option.some.injEq] at htext
        rw [← htext]
        exact ⟨compiled,
          withHeader_eq_of_place hp.source hsource.source hp.isRooted hsource.isRooted hplace _⟩
  sideFile k text s h := by
    refine h.congr (hx.files.write_keeps (.inl ?_))
    rw [same_comm]
    exact output_ne_pathIn hsource.source x.kind k
  remove p s hp h := by
    cases hdone : succeeded (x.files.remove (x.root.join (x.outputFor p)) s).1 with
    | false => exact h.congr (hx.files.remove_keeps (.inr hdone))
    | true =>
      cases hplace : (x.root.join (x.outputFor p)).same (x.root.join (x.outputFor source)) with
      | false => exact h.congr (hx.files.remove_keeps (.inl hplace))
      | true =>
        intro text htext
        rw [herases.gone hplace hdone] at htext
        cases htext

/-- A build that succeeds leaves an output with its header. -/
theorem bears_of_build (hx : x.Exact text?) {output : Path} {s s' : σ}
    (h : x.build source s = (.ok output, s')) : Bears x text? source s' := by
  have htexts := hx.build source s
  rw [h] at htexts
  obtain ⟨compiled, -, htexts⟩ := htexts
  intro text htext
  rw [htexts, if_pos (same_refl _), Option.some.injEq] at htext
  exact ⟨compiled, htext.symm⟩

end Bears

/-! ## Removals -/

/-- From one noted world to another, nothing was removed but outputs of sources that are dropped,
and those that bore their headers at first bore them when they were removed. -/
structure RemovedSince (x : Executor σ) (text? : Path → σ → Option String) (drops : Path → Prop)
    (s s' : Noted σ) : Prop where
  removed : ∃ new, s'.removed = s.removed ++ new ∧ ∀ e ∈ new, ∃ p, drops p ∧
    e.1 = x.root.join (x.outputFor p) ∧
      (Bears x text? p s.world → ∃ compiled, e.2 = some (withHeader p compiled))
  bears : ∀ p, Relative p → Bears x text? p s.world → Bears x text? p s'.world

section Removals

variable {x : Executor σ} {text? : Path → σ → Option String} (hx : x.Exact text?)
  (herases : x.files.Erases text?)
include hx herases

/-- Each call on files that a session makes removes only such outputs. -/
theorem preserves_removedSince {drops : Path → Prop} (hdrops : ∀ p, drops p → Relative p)
    (s : Noted σ) : (x.noting text?).Preserves Relative drops (RemovedSince x text? drops s) where
  read p s' h := ⟨h.removed, fun q hq hb =>
    (preserves_bears hx herases hq).read p s'.world (h.bears q hq hb)⟩
  createDirs p s' h := ⟨h.removed, fun q hq hb =>
    (preserves_bears hx herases hq).createDirs p s'.world (h.bears q hq hb)⟩
  compile text p s' h := ⟨h.removed, fun q hq hb =>
    (preserves_bears hx herases hq).compile text p s'.world (h.bears q hq hb)⟩
  output p compiled s' hp h := ⟨h.removed, fun q hq hb =>
    (preserves_bears hx herases hq).output p compiled s'.world hp (h.bears q hq hb)⟩
  sideFile k text s' h := ⟨h.removed, fun q hq hb =>
    (preserves_bears hx herases hq).sideFile k text s'.world (h.bears q hq hb)⟩
  remove p s' hp h := by
    refine ⟨?_, fun q hq hb => (preserves_bears hx herases hq).remove p s'.world (hdrops p hp)
      (h.bears q hq hb)⟩
    obtain ⟨new, hnew, hall⟩ := h.removed
    cases hdone : succeeded (x.files.remove (x.root.join (x.outputFor p)) s'.world).1 with
    | false =>
      refine ⟨new, ?_, hall⟩
      simp only [Executor.noting, FileSystem.noting, Noted.remove, Executor.outputFor] at hdone ⊢
      rw [hdone, hnew]
      rfl
    | true =>
      refine ⟨new ++ [(x.root.join (x.outputFor p), text? (x.root.join (x.outputFor p)) s'.world)],
        ?_, ?_⟩
      · simp only [Executor.noting, FileSystem.noting, Noted.remove, Executor.outputFor] at hdone ⊢
        rw [hdone, hnew, if_pos rfl, List.append_assoc]
      · rw [List.forall_mem_append, List.forall_mem_singleton]
        refine ⟨hall, p, hp, rfl, fun hb => ?_⟩
        obtain ⟨text, htext⟩ := Option.isSome_iff_exists.mp (herases.there hdone)
        obtain ⟨compiled, rfl⟩ := h.bears p (hdrops p hp) hb text htext
        exact ⟨compiled, htext⟩

end Removals

namespace Run

/-- A source that a call makes a session drop is seen from the root if those that it tracks are. -/
theorem Dropped.relative {r r' : Run σ} {c : SessionCall} {p : Path} (h : Dropped r r' c p)
    (hsources : ∀ q ∈ r.session.sources.paths, Relative q) : Relative p := by
  refine ⟨h.source, ?_⟩
  by_contra hrooted
  rw [Bool.not_eq_false] at hrooted
  obtain ⟨q, hq, hsame⟩ := PathSet.contains_iff.mp h.tracked
  have hstarts : q.startsWith p = true := by
    rw [startsWith, same_iff.mp hsame]
    simp
  have hq := (hsources q hq).isRooted
  rw [isRooted_of_startsWith hrooted hstarts] at hq
  cases hq

/-- A session from its beginning through some turns, in a world that notes what it removes. -/
def noted (x : Executor σ) (text? : Path → σ → Option String) (mode : Mode) (quiet : Nat) (s : σ)
    (ts : List (Turn σ)) : Run (Noted σ) :=
  (fresh (.new x.root mode.git mode.vscode quiet) ⟨s, []⟩).turns (x.noting text?)
    (ts.map Turn.noted)

/-- A turn that names only paths seen from the root, and starts with nothing but sources. -/
structure FromRoot (t : Turn σ) : Prop where
  initial : ∀ p ∈ t.initial, isSource p = true
  isRooted : ∀ p ∈ t.paths, p.isRooted = false

/-- The same session that tracks only sources seen from the root. -/
structure Ordinary (root : Path) (mode : Mode) (quiet : Nat) (r : Run σ) : Prop
    extends Regular root mode quiet r where
  relative : ∀ p ∈ r.session.sources.paths, Relative p

section Noted

variable {x : Executor σ} {text? : Path → σ → Option String} {mode : Mode} {quiet : Nat}
  {r : Run (Noted σ)}

/-- A call that names only paths seen from the root leaves a session ordinary. -/
theorem ordinary_turn {t : Turn σ} (ht : FromRoot t) (h : Ordinary x.root mode quiet r) :
    Ordinary x.root mode quiet (r.turn (x.noting text?) t.noted) := by
  cases t with
  | outside change => exact ⟨⟨h.sources, h.ready⟩, h.relative⟩
  | call c =>
    have hregular : Regular x.root mode quiet (r.call (x.noting text?) c) :=
      regular_call ht.initial h.toRegular
    refine ⟨hregular, sources_call (fun p hp => ⟨ht.initial p hp, ht.isRooted p ?_⟩)
      (fun p hp hs => ⟨hs, ht.isRooted p hp⟩) h.relative⟩
    cases c with
    | start sources now => exact hp
    | handle change now => cases hp
    | tick now => cases hp
    | close => cases hp

/-- The last turn of a noted session comes after the others. -/
theorem noted_concat (x : Executor σ) (text? : Path → σ → Option String) (mode : Mode)
    (quiet : Nat) (s : σ) (ts : List (Turn σ)) (t : Turn σ) :
    noted x text? mode quiet s (ts ++ [t]) =
      (noted x text? mode quiet s ts).turn (x.noting text?) t.noted := by
  rw [noted, List.map_append]
  exact turns_concat ..

/-- A session is ordinary if its turns name only paths seen from the root. -/
theorem ordinary_noted {s : σ} {ts : List (Turn σ)} (hts : ∀ t ∈ ts, FromRoot t) :
    Ordinary x.root mode quiet (noted x text? mode quiet s ts) := by
  induction ts using List.reverseRecOn with
  | nil =>
    exact ⟨regular_fresh x.root mode quiet _, by simp [noted, turns, fresh, Session.new, PathSet.empty]⟩
  | append_singleton ts t ih =>
    rw [noted_concat]
    exact ordinary_turn (hts t (by simp)) (ih fun u hu => hts u (List.mem_append_left [t] hu))

variable (hx : x.Exact text?) (herases : x.files.Erases text?)
include hx herases

/-- A call removes only outputs of sources that it makes the session drop. -/
theorem removedSince_call {c : SessionCall} (hc : FromRoot (.call c : Turn σ))
    (h : Ordinary x.root mode quiet r) :
    RemovedSince x text? (Dropped r (r.call (x.noting text?) c) c) r.world
      (r.call (x.noting text?) c).world := by
  have hpreserves := preserves_removedSince hx herases
    (fun p (hp : Dropped r (r.call (x.noting text?) c) c p) => hp.relative h.relative) r.world
  refine preserves_call hpreserves h.toRegular hc.initial
    (fun p hp hs => ⟨hs, hc.isRooted p hp⟩) (fun p hp => hp) ?_
  exact ⟨⟨[], by simp, by simp⟩, fun _ _ hb => hb⟩

/-- An output keeps its header through turns unless somebody outside takes it away. -/
theorem bears_noted {source : Path} (hsource : Relative source) {s : σ}
    {earlier later : List (Turn σ)} (hts : ∀ t ∈ earlier ++ later, FromRoot t)
    (houtside : ∀ front change back, later = front ++ .outside change :: back →
      Bears x text? source (noted x text? mode quiet s (earlier ++ front)).world.world →
      Bears x text? source (change (noted x text? mode quiet s (earlier ++ front)).world.world))
    (hb : Bears x text? source (noted x text? mode quiet s earlier).world.world) :
    Bears x text? source (noted x text? mode quiet s (earlier ++ later)).world.world := by
  induction later using List.reverseRecOn with
  | nil => rwa [List.append_nil]
  | append_singleton later t ih =>
    have hbefore (u : Turn σ) (hu : u ∈ earlier ++ later) : FromRoot u :=
      hts u (by rw [← List.append_assoc]; exact List.mem_append_left [t] hu)
    have ih := ih hbefore fun front change back hsplit =>
      houtside front change (back ++ [t]) (by simp [hsplit])
    rw [← List.append_assoc, noted_concat]
    cases t with
    | outside change => exact houtside later change [] rfl ih
    | call c =>
      have hc : FromRoot (.call c : Turn σ) := hts _ (by simp)
      exact (removedSince_call hx herases hc (ordinary_noted hbefore)).bears source hsource ih

end Noted

/-- Whatever was removed began with the header of its source. -/
def RemovesGenerated (x : Executor σ) (r : Run (Noted σ)) : Prop :=
  ∀ e ∈ r.world.removed, ∃ source compiled,
    e = (x.root.join (x.outputFor source), some (withHeader source compiled))

end Run

end ArtifactSync
