import ArtifactSync.Compiler.Basic
import ArtifactSync.Build.Executor
import ArtifactSync.Proofs.Disk.Calls

/-!
# Builds on a disk

A source is read and its output written in one directory (`Site`). A build there does nothing to the
disk, or puts one file down beside the sources (`build_cases`). On a later disk it does the same, or
fails (`Builds.of_later`); and where the file that it would put down is there already, it leaves the
disk as it is (`rebuild`).
-/

namespace ArtifactSync

open Path Artifact

/-- The same calls, some of which fail and leave the world alone. Which ones, the calls decide. -/
def FileSystem.faulty {σ : Type} (files : FileSystem σ) (faults : Call → Option FsError) :
    FileSystem σ where
  read path s := match faults (.read path) with
    | some e => (.error e, s)
    | none => files.read path s
  write path text s := match faults (.write path text) with
    | some e => (.error e, s)
    | none => files.write path text s
  remove path s := match faults (.remove path) with
    | some e => (.error e, s)
    | none => files.remove path s
  createDirs path s := match faults (.createDirs path) with
    | some e => (.error e, s)
    | none => files.createDirs path s

/-- Builds on a disk, with a compiler that only looks at the source. -/
def Executor.overDisk (root : Path) (kind : OutputKind)
    (compile : String → Path → Except CompileError String) (faults : Call → Option FsError) :
    Executor Disk :=
  ⟨root, kind, Disk.fileSystem.faulty faults, .pure compile⟩

/-! ## Where sources and outputs are -/

/-- The name of the output of a source, from the name of the source. -/
def outputName (kind : OutputKind) (last : Name) : Name :=
  (output ⟨last⟩ kind).chars

/-- It has the stem of the source's name. -/
theorem outputName_eq {stem : List Char} (hname : IsName (stem ++ '.' :: sourceExtension))
    (hstem : stem ≠ []) (kind : OutputKind) :
    outputName kind (stem ++ '.' :: sourceExtension) = outputPiece stem [] kind := by
  have hcut : IsCut [] (stem ++ '.' :: sourceExtension) [] :=
    ⟨by simp, hname.free, hname.makes, by simp⟩
  have halone : Path.mk (stem ++ '.' :: sourceExtension) =
      ofCut [] (stem ++ '.' :: sourceExtension) [] := by simp [ofCut, frontText, behindText]
  rw [outputName, halone, output_ofCut hcut hstem]
  simp [ofCut, frontText, behindText]

/-- The name of a source is a stem with the extension. -/
theorem exists_stem {last : Name} (hname : IsName last) (hs : isSource ⟨last⟩ = true) :
    ∃ stem, stem ≠ [] ∧ last = stem ++ '.' :: sourceExtension := by
  have hall : ∀ n ∈ [last], IsName n := by simpa using hname
  obtain ⟨stem, hstem, hlast⟩ := getLast_source hs
  rw [show Path.mk last = ofNames [last] by simp [ofNames, ofPieces], components_ofNames hall]
    at hlast
  exact ⟨stem, hstem, by simpa using hlast⟩

/-- The names of outputs tell those of sources apart. -/
theorem outputName_injective {kind : OutputKind} {last last' : Name} (h : IsName last)
    (h' : IsName last') (hs : isSource ⟨last⟩ = true) (hs' : isSource ⟨last'⟩ = true)
    (heq : outputName kind last = outputName kind last') : last = last' := by
  have hout : output ⟨last⟩ kind = output ⟨last'⟩ kind := congrArg Path.mk heq
  have hsame := same_of_output_same hs hs' (by rw [hout]; exact same_refl _)
  have hsingle (n : Name) : Path.mk n = ofNames [n] := by simp [ofNames, ofPieces]
  rw [same_iff, hsingle, hsingle] at hsame
  have hnames := ofNames_inj (by simpa using h) (by simpa using h') hsame
  exact (List.cons.inj hnames).1

/-- The last piece of an output is `..`, or the name of something beside the sources. -/
theorem isAside_outputPiece {front behind : List (List Char)} {stem : List Char}
    (h : IsCut front (stem ++ '.' :: sourceExtension) behind) (hstem : stem ≠ [])
    {kind : OutputKind} (hup : outputPiece stem behind kind ≠ ['.', '.']) :
    Node.IsAside (outputPiece stem behind kind) := by
  have hcut := isCut_output h hstem kind
  have hname : IsName (outputPiece stem behind kind) := ⟨hcut.last_makes, hup, hcut.last_free⟩
  refine ⟨hname, ?_⟩
  by_contra hsource
  obtain ⟨stem', -, hlast⟩ := getLast_source (by simpa using hsource)
  have hcomponents : (Path.mk (outputPiece stem behind kind)).components =
      [.name (outputPiece stem behind kind)] := by
    have hall : ∀ n ∈ [outputPiece stem behind kind], IsName n := by simpa using hname
    simpa [ofNames, ofPieces] using components_ofNames hall
  rw [hcomponents, List.getLast?_singleton, Option.some.injEq, Component.name.injEq] at hlast
  have hpiece : outputPiece stem behind kind = stem ++ '.' :: kind.extension := by
    unfold outputPiece at hup ⊢
    split
    · next hdots => rw [if_pos hdots] at hup; exact absurd rfl hup
    · rfl
  exact sourceName_ne_outputName stem' stem kind (by rw [← hlast, hpiece])

/-- The pieces of a path end those of the path behind a root. -/
theorem piecesOf_join {root : Path} (rooted : root.isRooted = true) (p : Path) :
    Disk.piecesOf (root.join p).chars =
      (if p.isRooted then [] else Disk.piecesOf root.chars) ++ Disk.piecesOf p.chars := by
  cases hp : p.isRooted with
  | true => rw [join_of_isRooted hp, if_pos rfl, List.nil_append]
  | false =>
    rw [Disk.piecesOf_join (chars_ne_nil_of_isRooted rooted) hp, if_neg Bool.false_ne_true]

/-- A path has a separator at its end behind a root if it has one there. -/
theorem endsInSlash_join (root : Path) {p : Path} (hne : p.chars ≠ []) :
    Disk.endsInSlash (root.join p).chars = Disk.endsInSlash p.chars := by
  cases hp : p.isRooted with
  | true => rw [join_of_isRooted hp]
  | false =>
    rw [join_eq_lead hp, Disk.endsInSlash, List.getLast?_append_of_ne_nil _ hne, Disk.endsInSlash]

/-- A path that ends in a piece does so behind a root. -/
theorem endsIn_join {root p : Path} (rooted : root.isRooted = true) {qs : List Name} {name : Name}
    (hpieces : Disk.piecesOf p.chars = qs ++ [name]) (slash : Disk.endsInSlash p.chars = false) :
    Disk.EndsIn (root.join p)
      (if p.isRooted then qs else Disk.piecesOf root.chars ++ qs) name := by
  have hne : p.chars ≠ [] := by
    intro hnil
    rw [hnil] at hpieces
    have hlength := congrArg List.length hpieces
    simp [Disk.piecesOf, Text.split] at hlength
  refine ⟨isRooted_join rooted p, ?_, by rw [endsInSlash_join root hne, slash]⟩
  rw [piecesOf_join rooted, hpieces]
  cases p.isRooted <;> simp

/-- A piece behind others ends a path. -/
theorem endsIn_ofCut {front : List (List Char)} {last : List Char} (h : IsCut front last []) :
    Disk.piecesOf (ofCut front last []).chars =
        front.filter (fun piece => piece ≠ []) ++ [last] ∧
      Disk.endsInSlash (ofCut front last []).chars = false := by
  have hne : last ≠ [] := by
    rintro rfl
    cases h.last_makes
  have hpieces : Disk.piecesOf (ofCut front last []).chars =
      (ofCut front last []).allPieces.filter fun piece => piece ≠ [] := rfl
  constructor
  · rw [hpieces, allPieces_ofCut h, List.filter_append,
      List.filter_cons_of_pos (by simpa using hne), List.filter_nil]
  · obtain ⟨text, c, rfl⟩ := (List.eq_nil_or_concat last).resolve_left hne
    have hfree := h.last_free
    simp only [List.concat_eq_append, List.mem_append, List.mem_singleton, not_or] at hfree
    have hchars : (ofCut front (text.concat c) []).chars = frontText front ++ text ++ [c] := by
      simp [ofCut, behindText]
    rw [hchars, Disk.endsInSlash, List.getLast?_concat]
    simpa using Ne.symm hfree.2

/-- The output of a source ends in a piece that is `..` or stands beside the sources. -/
theorem exists_endsIn_output {root source : Path} (rooted : root.isRooted = true)
    (hs : isSource source = true) (kind : OutputKind) : ∃ ps name,
      Disk.EndsIn (root.join (output source kind)) ps name ∧
        (name ≠ ['.', '.'] → Node.IsAside name) := by
  obtain ⟨front, stem, behind, hcut, hstem, rfl⟩ := exists_cut_of_isSource hs
  rw [output_ofCut hcut hstem]
  obtain ⟨hpieces, slash⟩ := endsIn_ofCut (isCut_output hcut hstem kind)
  exact ⟨_, _, endsIn_join rooted hpieces slash, isAside_outputPiece hcut hstem⟩

/-- A row of names behind a root ends in the last of them. -/
theorem endsIn_ofNames {root : Path} (rooted : root.isRooted = true) {front : List Name}
    {last : Name} (hnames : ∀ n ∈ front ++ [last], IsName n) :
    Disk.EndsIn (root.join (ofNames (front ++ [last]))) (Disk.piecesOf root.chars ++ front) last := by
  have hall : (ofNames (front ++ [last])).allPieces = front ++ last :: [] :=
    allPieces_ofNames (fun n hn => (hnames n hn).free) (by simp)
  obtain ⟨hcut, hofCut⟩ := cut_of_allPieces hall (hnames last (by simp)).makes (by simp)
  have hpieces := Disk.piecesOf_ofNames hnames
  have slash : Disk.endsInSlash (ofNames (front ++ [last])).chars = false := by
    rw [hofCut]
    exact (endsIn_ofCut hcut).2
  have hends := endsIn_join rooted hpieces slash
  rwa [isRooted_ofNames hnames] at hends

/-- A source is read and its output written over the same pieces, each under its name. -/
structure Site (root : Path) (kind : OutputKind) (source : Path) (ps : List Name) (last : Name) :
    Prop where
  read : Disk.EndsIn (root.join source) ps last
  written : Disk.EndsIn (root.join (output source kind)) ps (outputName kind last)
  isName : IsName last
  isSource : isSource ⟨last⟩ = true
  makes : isEmptyPiece (outputName kind last) = false
  aside : outputName kind last ≠ ['.', '.'] → Node.IsAside (outputName kind last)

/-- The site of a source that ends in its name. -/
theorem site_ofCut {root : Path} (rooted : root.isRooted = true) {front : List (List Char)}
    {stem : List Char} (h : IsCut front (stem ++ '.' :: sourceExtension) []) (hstem : stem ≠ [])
    (kind : OutputKind) :
    let source := ofCut front (stem ++ '.' :: sourceExtension) []
    let qs := front.filter fun piece => piece ≠ []
    Site root kind source (if source.isRooted then qs else Disk.piecesOf root.chars ++ qs)
      (stem ++ '.' :: sourceExtension) := by
  intro source qs
  have hname : IsName (stem ++ '.' :: sourceExtension) :=
    ⟨h.last_makes, stem_ne_up stem, h.last_free⟩
  have halone : IsCut [] (stem ++ '.' :: sourceExtension) [] :=
    ⟨by simp, h.last_free, h.last_makes, by simp⟩
  have hsource : isSource ⟨stem ++ '.' :: sourceExtension⟩ = true := by
    have hsingle : Path.mk (stem ++ '.' :: sourceExtension) =
        ofCut [] (stem ++ '.' :: sourceExtension) [] := by simp [ofCut, frontText, behindText]
    rw [hsingle, isSource, extension?, fileName_ofCut halone, if_neg (stem_ne_up stem)]
    simp [splitName_append hstem dot_not_mem_sourceExtension (stem_ne_up stem)]
  have hout := outputName_eq hname hstem kind
  have hcut := isCut_output h hstem kind
  obtain ⟨hpieces, slash⟩ := endsIn_ofCut h
  obtain ⟨hpiecesOut, slashOut⟩ := endsIn_ofCut hcut
  have hread := endsIn_join rooted hpieces slash
  have hwritten := endsIn_join rooted hpiecesOut slashOut
  -- the output starts where the source does
  have hstart : (ofCut front (outputPiece stem [] kind) []).isRooted = source.isRooted := by
    rw [isRooted_ofCut hcut, isRooted_ofCut h]
  rw [hstart, ← output_ofCut h hstem, ← hout] at hwritten
  exact ⟨hread, hwritten, hname, hsource, hout ▸ hcut.last_makes,
    hout ▸ isAside_outputPiece halone hstem⟩

/-- The site of a source in a row of directories. -/
theorem site_ofNames {root : Path} (rooted : root.isRooted = true) {front : List Name} {last : Name}
    (hnames : ∀ n ∈ front ++ [last], IsName n) (hs : isSource (ofNames (front ++ [last])) = true)
    (kind : OutputKind) :
    Site root kind (ofNames (front ++ [last])) (Disk.piecesOf root.chars ++ front) last := by
  have hlast : IsName last := hnames last (by simp)
  -- the source's name is a stem with the extension
  obtain ⟨stem, hstem, hend⟩ := getLast_source hs
  rw [components_ofNames hnames, List.map_append, List.map_singleton, List.getLast?_concat,
    Option.some.injEq, Component.name.injEq] at hend
  obtain rfl := hend
  have hall : (ofNames (front ++ [stem ++ '.' :: sourceExtension])).allPieces =
      front ++ (stem ++ '.' :: sourceExtension) :: [] :=
    allPieces_ofNames (fun n hn => (hnames n hn).free) (by simp)
  obtain ⟨hcut, hofCut⟩ := cut_of_allPieces hall hlast.makes (by simp)
  have hfront : front.filter (fun piece => piece ≠ []) = front := by
    rw [List.filter_eq_self]
    exact fun n hn => by simpa using (hnames n (List.mem_append_left _ hn)).ne_nil
  have site := site_ofCut rooted hcut hstem kind
  simp only [← hofCut, isRooted_ofNames hnames, hfront] at site
  exact site

/-- A source has a site, or there is something behind its name and nothing is ever read. -/
theorem exists_site_or_unread {root source : Path} (rooted : root.isRooted = true)
    (hs : isSource source = true) (kind : OutputKind) :
    (∃ ps last, Site root kind source ps last) ∨
      ∀ d : Disk, ∃ e, d.readText (root.join source) = .error e := by
  obtain ⟨front, stem, behind, hcut, hstem, rfl⟩ := exists_cut_of_isSource hs
  rcases List.eq_nil_or_concat behind with rfl | ⟨before, last, rfl⟩
  · exact .inl ⟨_, _, site_ofCut rooted hcut hstem kind⟩
  · refine .inr fun d => Disk.readText_of_behind (isRooted_join rooted _) ?_
    rw [endsInSlash_join root (chars_ne_nil_of_isSource hs), piecesOf_join rooted]
    -- what stands behind the name ends in a separator or in `.`
    rw [List.concat_eq_append] at hcut ⊢
    have hlast : last = [] ∨ last = ['.'] := by
      simpa [isEmptyPiece] using hcut.behind_empty last (by simp)
    rcases hlast with rfl | rfl
    · have hchars : (ofCut front (stem ++ '.' :: sourceExtension) (before ++ [[]])).chars =
          frontText front ++ (stem ++ '.' :: sourceExtension) ++ behindText before ++ ['/'] := by
        simp [ofCut, behindText]
      rw [Disk.endsInSlash, hchars, List.getLast?_concat]
      exact .inl rfl
    · have hpieces : Disk.piecesOf
          (ofCut front (stem ++ '.' :: sourceExtension) (before ++ [['.']])).chars =
            (ofCut front (stem ++ '.' :: sourceExtension) (before ++ [['.']])).allPieces.filter
              fun piece => piece ≠ [] := rfl
      rw [hpieces, allPieces_ofCut hcut, ← List.cons_append, ← List.append_assoc,
        List.filter_append, ← List.append_assoc]
      exact .inr ⟨_, rfl⟩

/-! ## What a build does -/

section Builds

variable (root : Path) (kind : OutputKind)
  (compile : String → Path → Except CompileError String) (faults : Call → Option FsError)

/-- The text that a build would write, if it gets so far. -/
def textFor? (source : Path) (d : Disk) : Option String :=
  match ((Disk.fileSystem.faulty faults).read (root.join source) d).1 with
  | .error _ => none
  | .ok text => match compile text source with
    | .error _ => none
    | .ok compiled => some (withHeader source compiled)

/-- A build goes through: its text is written into a file in a directory. -/
structure Builds (source : Path) (ps : List Name) (last : Name) (d : Disk) (names : List Name)
    (text : String) : Prop where
  dirAt : d.dirAt ps = some names
  made : textFor? root compile faults source d = some text
  passes : faults (.write (root.join (output source kind)) text) = none
  place : d.MayPlace (root.join (output source kind)) names (outputName kind last)
  spelled : Disk.spelling (Disk.directoryOf (root.join (output source kind))) = .ok ()

/-- The file that a build puts down. -/
def built (source : Path) (d : Disk) (text : String) : Node :=
  .file (Text.bytes text.toList) (d.modeFor (root.join (output source kind)))

variable {root kind compile faults}

/-- There is a text if the source is read and compiled. -/
theorem textFor_eq_some_iff {source : Path} {d : Disk} {text : String} :
    textFor? root compile faults source d = some text ↔
      faults (.read (root.join source)) = none ∧
        ∃ content, d.readText (root.join source) = .ok content ∧
          ∃ compiled, compile content source = .ok compiled ∧ withHeader source compiled = text := by
  simp only [textFor?, FileSystem.faulty, Disk.fileSystem]
  cases faults (.read (root.join source)) with
  | some e => simp
  | none =>
    cases d.readText (root.join source) with
    | error e => simp
    | ok content => cases hcompile : compile content source <;> simp [hcompile]

/-- The text depends on what is read. -/
theorem textFor_eq_of_readText {source : Path} {d d' : Disk}
    (h : d'.readText (root.join source) = d.readText (root.join source)) :
    textFor? root compile faults source d' = textFor? root compile faults source d := by
  refine Option.ext fun text => ?_
  rw [textFor_eq_some_iff, textFor_eq_some_iff, h]

/-- It is read where the source leads. -/
theorem textFor_congr {source : Path} {d d' : Disk}
    (h : d'.stat (root.join source) = d.stat (root.join source)) :
    textFor? root compile faults source d' = textFor? root compile faults source d :=
  textFor_eq_of_readText (Disk.readText_congr h)

/-- Where nothing can be read there is no text. -/
theorem textFor_of_readText {source : Path} {d : Disk}
    (h : ∃ e, d.readText (root.join source) = .error e) :
    textFor? root compile faults source d = none := by
  obtain ⟨e, he⟩ := h
  simp only [textFor?, FileSystem.faulty, Disk.fileSystem, he]
  cases faults (.read (root.join source)) <;> rfl

variable (root kind compile faults) in
/-- With a text, a build only has to write it. Without one it fails and leaves the disk alone. -/
theorem build_textFor (source : Path) (d : Disk) :
    match textFor? root compile faults source d with
    | none => ∃ e, (Executor.overDisk root kind compile faults).build source d = (.error e, d)
    | some text => (Executor.overDisk root kind compile faults).build source d =
      match (Disk.fileSystem.faulty faults).write (root.join (output source kind)) text d with
      | (.error cause, s) => (.error (.write source (output source kind) cause), s)
      | (.ok _, s) => (.ok (output source kind), s) := by
  have hread : (Disk.fileSystem.faulty faults).read (root.join source) d =
      (((Disk.fileSystem.faulty faults).read (root.join source) d).1, d) := by
    simp only [FileSystem.faulty, Disk.fileSystem]
    split <;> rfl
  simp only [Executor.build, Executor.overDisk, Compiler.pure, Executor.outputFor]
  rw [hread, textFor?]
  cases ((Disk.fileSystem.faulty faults).read (root.join source) d).1 with
  | error e => exact ⟨_, rfl⟩
  | ok text =>
    simp only
    cases compile text source with
    | error e => exact ⟨_, rfl⟩
    | ok compiled =>
      simp only
      rcases (Disk.fileSystem.faulty faults).write (root.join (output source kind))
        (withHeader source compiled) d with ⟨_ | _, _⟩ <;> rfl

/-- Without a text a build fails and leaves the disk alone. -/
theorem build_of_textFor_none {source : Path} {d : Disk}
    (h : textFor? root compile faults source d = none) :
    ∃ e, (Executor.overDisk root kind compile faults).build source d = (.error e, d) := by
  have hbuild := build_textFor root kind compile faults source d
  rwa [h] at hbuild

/-- A build with a text leaves the disk as writing it does, unless a fault hits that. -/
theorem build_world_of_textFor {source : Path} {d : Disk} {text : String}
    (h : textFor? root compile faults source d = some text)
    (passes : faults (.write (root.join (output source kind)) text) = none) :
    ((Executor.overDisk root kind compile faults).build source d).2 =
      (d.writeText (root.join (output source kind)) text).2 := by
  have hbuild := build_textFor root kind compile faults source d
  rw [h] at hbuild
  simp only [FileSystem.faulty, Disk.fileSystem, passes] at hbuild
  rw [hbuild]
  rcases d.writeText (root.join (output source kind)) text with ⟨_ | _, _⟩ <;> rfl

section Site

variable {source : Path} {ps : List Name} {last : Name} {d : Disk}
  (site : Site root kind source ps last)
include site

/-- Where the directory of a source is not there, nothing is read. -/
theorem Site.textFor_none (hat : d.dirAt ps = none) :
    textFor? root compile faults source d = none := by
  have hstat := Disk.stat_of_dirAt_none site.read.rooted site.read.slash site.read.pieces
    (List.cons_ne_nil last []) hat
  exact textFor_of_readText (Disk.readText_of_stat hstat)

/-- The text of a build that goes through is written. -/
theorem Site.write_of_builds {names : List Name} {text : String}
    (h : Builds root kind compile faults source ps last d names text) :
    d.writeText (root.join (output source kind)) text =
      (.ok (), d.putAt names (outputName kind last) (some (built root kind source d text))) :=
  (Disk.writeText_eq_ok_iff site.written site.makes h.dirAt).mpr ⟨⟨h.place, h.spelled⟩, rfl⟩

/-- A build that goes through puts one file down. -/
theorem Site.build_of_builds {names : List Name} {text : String}
    (h : Builds root kind compile faults source ps last d names text) :
    (Executor.overDisk root kind compile faults).build source d = (.ok (output source kind),
      d.putAt names (outputName kind last) (some (built root kind source d text))) := by
  have hbuild := build_textFor root kind compile faults source d
  rw [h.made] at hbuild
  simpa only [FileSystem.faulty, Disk.fileSystem, h.passes, site.write_of_builds h] using hbuild

variable (compile faults d) in
/-- A build goes through, or it fails and leaves the disk alone. -/
theorem Site.build_cases :
    (∃ names text, Builds root kind compile faults source ps last d names text) ∨
      ∃ e, (Executor.overDisk root kind compile faults).build source d = (.error e, d) := by
  have hbuild := build_textFor root kind compile faults source d
  cases htext : textFor? root compile faults source d with
  | none => exact .inr (build_of_textFor_none htext)
  | some text =>
    cases hat : d.dirAt ps with
    | none =>
      rw [site.textFor_none hat] at htext
      cases htext
    | some names =>
      rw [htext] at hbuild
      simp only [FileSystem.faulty, Disk.fileSystem] at hbuild
      cases hfault : faults (.write (root.join (output source kind)) text) with
      | some e =>
        rw [hfault] at hbuild
        exact .inr ⟨_, hbuild⟩
      | none =>
        rcases Disk.writeText_cases site.written site.makes hat text with
          ⟨hplace, hspelled, -⟩ | ⟨-, e, hwrite⟩
        · exact .inl ⟨names, text, hat, htext, hfault, hplace, hspelled⟩
        · rw [hfault, hwrite] at hbuild
          exact .inr ⟨_, hbuild⟩

/-- A build that succeeds went through. -/
theorem Site.builds_of_ok {written : Path} {d' : Disk}
    (h : (Executor.overDisk root kind compile faults).build source d = (.ok written, d')) :
    ∃ names text, Builds root kind compile faults source ps last d names text ∧
      d' = d.putAt names (outputName kind last) (some (built root kind source d text)) := by
  rcases site.build_cases compile faults d with ⟨names, text, hbuilds⟩ | ⟨e, he⟩
  · rw [site.build_of_builds hbuilds] at h
    exact ⟨names, text, hbuilds, (Prod.mk.inj h).2.symm⟩
  · rw [he] at h
    cases (Prod.mk.inj h).1

/-- A build that fails leaves the disk alone. -/
theorem Site.eq_of_error {e : BuildError} {d' : Disk}
    (h : (Executor.overDisk root kind compile faults).build source d = (.error e, d')) :
    d' = d := by
  rcases site.build_cases compile faults d with ⟨names, text, hbuilds⟩ | ⟨e', he⟩
  · rw [site.build_of_builds hbuilds] at h
    cases (Prod.mk.inj h).1
  · rw [he] at h
    exact (Prod.mk.inj h).2.symm

/-- What a build puts down stands beside the sources. -/
theorem Site.isAside {names : List Name}
    (h : d.MayPlace (root.join (output source kind)) names (outputName kind last)) :
    Node.IsAside (outputName kind last) := by
  refine site.aside fun hup => ?_
  have hname := h.isName
  rw [hup] at hname
  cases hname

/-- A disk on which a build went through is later. -/
theorem Site.later_of_builds (ordered : d.top.Ordered) {names : List Name} {text : String}
    (h : Builds root kind compile faults source ps last d names text) :
    Disk.Later d (d.putAt names (outputName kind last) (some (built root kind source d text))) := by
  obtain ⟨trail, -, hon, hdir, rfl⟩ := Disk.dirAt_eq_some_iff.mp h.dirAt
  refine Disk.Later.putAt ordered (site.isAside h.place) hon.at_names hdir h.place.free ?_
  rintro c hc
  cases hc
  rfl

end Site

section Later

variable {source : Path} {ps : List Name} {last : Name} {d d' : Disk}
  (site : Site root kind source ps last) (later : Disk.Later d d')
  (real : ∀ names, d.dirAt ps = some names →
    ∃ bytes mode, d.top.at? (names ++ [last]) = some (.file bytes mode))
include site later real

/-- A build that goes through on a later disk went through before, with the same text. -/
theorem Builds.of_later {names : List Name} {text : String}
    (h : Builds root kind compile faults source ps last d' names text) :
    Builds root kind compile faults source ps last d names text := by
  have hat := later.dirAt h.dirAt
  have hstat : d'.stat (root.join source) = d.stat (root.join source) := by
    have hname := Disk.isName_of_isName site.isName
    rcases later.stat_source site.read hname site.isSource real with herror | ⟨-, -, hstat⟩
    · have hnone : textFor? root compile faults source d' = none :=
        textFor_of_readText (Disk.readText_of_stat herror)
      rw [h.made] at hnone
      cases hnone
    · exact hstat
  refine ⟨hat, by rw [← textFor_congr hstat, h.made], h.passes, ?_, h.spelled⟩
  obtain ⟨dir, dir', hdir, hdir', -, hemptied⟩ := later.dir h.dirAt
  obtain ⟨there, hthere, hwrite, henter⟩ := h.place.room
  obtain rfl : dir' = there := Option.some.inj (hdir'.symm.trans hthere)
  refine ⟨h.place.spelled, h.place.isName, ⟨dir, hdir, ?_, ?_⟩, fun c hc => ?_⟩
  · rw [Node.mayWrite, ← Node.mode_emptied, ← hemptied, Node.mode_emptied]
    exact hwrite
  · rw [← henter, Disk.entering_congr hemptied]
  · -- a directory would still be there
    by_contra hisDir
    rw [Bool.not_eq_false] at hisDir
    have houtline := later.outline_of_dir (Disk.outline_eq_some_iff.mpr ⟨c, hc, rfl⟩)
      (by rwa [Node.isDir_emptied])
    obtain ⟨c', hc', hemptied⟩ := Disk.outline_eq_some_iff.mp houtline
    have hfree := h.place.free c' hc'
    rw [← Node.isDir_emptied, hemptied, Node.isDir_emptied, hisDir] at hfree
    cases hfree

/-- Where the file is there that a build put down before, a build fails or leaves the disk as it
is. -/
theorem rebuild {names : List Name} {text : String}
    (h : Builds root kind compile faults source ps last d names text)
    (hthere : d'.top.at? (names ++ [outputName kind last]) =
      some (built root kind source d text)) :
    (∃ e, (Executor.overDisk root kind compile faults).build source d' = (.error e, d')) ∨
      (Executor.overDisk root kind compile faults).build source d' =
        (.ok (output source kind), d') := by
  rcases site.build_cases compile faults d' with ⟨names', text', hbuilds⟩ | herror
  · refine .inr ?_
    have hbefore := hbuilds.of_later site later real
    obtain rfl : names = names' := Option.some.inj (h.dirAt.symm.trans hbefore.dirAt)
    obtain rfl : text = text' := Option.some.inj (h.made.symm.trans hbefore.made)
    have hmode : d'.modeFor (root.join (output source kind)) =
        d.modeFor (root.join (output source kind)) := by
      obtain ⟨dir, hdir, -, hentering⟩ := hbuilds.place.room
      have hstat : d'.stat (root.join (output source kind)) = .ok (built root kind source d text) := by
        rw [Disk.stat_entry site.written hbuilds.dirAt hbuilds.place.isName hdir hthere nofun,
          hbuilds.place.spelled, hentering]
        rfl
      exact Disk.modeFor_idem hstat
    have hself : d'.putAt names (outputName kind last) (some (built root kind source d' text)) =
        d' := by
      have hbuilt : built root kind source d' text = built root kind source d text := by
        rw [built, built, hmode]
      rw [hbuilt, Disk.putAt, Node.alter_eq_self later.ordered hthere]
    rw [site.build_of_builds hbuilds, hself]
  · exact .inl herror

end Later

end Builds

end ArtifactSync
