import ArtifactSync.Config.Load
import ArtifactSync.Proofs.Config.Suggest
import ArtifactSync.Proofs.Config.Unknown
import ArtifactSync.Proofs.Text.Lines
import ArtifactSync.Proofs.Toml.Spelling
import Mathlib.Data.List.Forall2
import Mathlib.Data.List.TakeWhile

/-!
# Warnings about unknown settings

There is one warning for each unknown key of an accepted text, and one more for each section that is
given as a date. A warning is made of the last piece of the key's name alone, and looks for the line
again, so it says what it should (`Points`) only if that name can be found by itself
(`UnknownKey.Findable`): it has no dot in it, no setting of another section has it, and no line in
front of the key's own mentions it. `ofText_points_iff` says that these are all the conditions.

A key is written on the line of its place, since it stands where the parser says
(`Key.StandsIn.exists_line`); so that line mentions its name, unless it is written with a backslash.
-/

namespace ArtifactSync

open Toml

namespace Suggest

/-- The line of a number, counted from zero, is the first one that mentions a name. -/
structure FirstMention (cs name : List Char) (n : Nat) : Prop where
  here : ∃ line, (Text.lines cs)[n]? = some line ∧ name <:+: line
  before : ∀ i < n, ∀ line, (Text.lines cs)[i]? = some line → ¬ name <:+: line

/-- Lines are looked for from the start of the text. -/
theorem lineOf_eq_some_iff {cs name : List Char} {n : Nat} :
    lineOf? cs name = some (n + 1) ↔ FirstMention cs name n := by
  rw [lineOf?, Option.map_eq_some_iff]
  constructor
  · rintro ⟨m, hfind, hm⟩
    obtain rfl := Nat.succ.inj hm
    obtain ⟨hlt, hhere, hbefore⟩ := List.findIdx?_eq_some_iff_getElem.mp hfind
    refine ⟨⟨_, List.getElem?_eq_getElem hlt, Text.contains_iff.mp hhere⟩,
      fun i hi line hline => ?_⟩
    obtain ⟨hlt', rfl⟩ := List.getElem?_eq_some_iff.mp hline
    exact fun hinfix => hbefore i hi (Text.contains_iff.mpr hinfix)
  · rintro ⟨⟨line, hline, hinfix⟩, hbefore⟩
    obtain ⟨hlt, rfl⟩ := List.getElem?_eq_some_iff.mp hline
    refine ⟨n, List.findIdx?_eq_some_iff_getElem.mpr
      ⟨hlt, Text.contains_iff.mpr hinfix, fun i hi => ?_⟩, rfl⟩
    exact fun hcontains => hbefore i hi _ (List.getElem?_eq_getElem (hi.trans hlt))
      (Text.contains_iff.mp hcontains)

end Suggest

/-- A key is written on the line of its place, and without a backslash between double quotes its
name is mentioned there. -/
theorem Toml.Key.StandsIn.exists_line {cs : List Char} {key : Key} (h : key.StandsIn cs) :
    ∃ line, (Text.lines cs)[Text.lineIndex cs key.span.start]? = some line ∧
      key.spelling cs <:+: line ∧ (¬ key.IsEscaped cs → key.text <:+: line) := by
  obtain ⟨line, hline, hinfix⟩ := Text.exists_line_of_prefix h.spelling_ne_nil
    (h.not_mem_spelling rfl) (h.not_mem_spelling rfl) (List.take_prefix _ _)
  exact ⟨line, hline, hinfix, fun hescaped => (h.text_infix hescaped).trans hinfix⟩

/-- The last piece of a name is the name if there is no dot in it. -/
theorem Decode.lastPiece_eq_self_iff {name : List Char} :
    lastPiece name = name ↔ '.' ∉ name := by
  rw [lastPiece, List.reverse_eq_iff, List.takeWhile_eq_self_iff]
  simp only [List.mem_reverse, decide_eq_true_eq]
  exact ⟨fun h hmem => h '.' hmem rfl, fun h c hc heq => h (heq ▸ hc)⟩

namespace Config

variable {file : Path} {cs : List Char}

/-- A warning that points at an unknown key: it has the name of the key, the number of the line on
which the key stands, and suggests nothing but other names. -/
structure Points (file : Path) (cs : List Char) (u : UnknownKey) (w : ConfigWarning) : Prop where
  key : w.key = String.ofList u.key.text
  file : w.file = file
  line : w.line = some (Text.lineIndex cs u.key.span.start + 1)
  suggestion : w.suggestion ≠ some w.key

/-- An unknown key that is found by its name alone. -/
structure UnknownKey.Findable (cs : List Char) (u : UnknownKey) : Prop where
  undotted : '.' ∉ u.key.text
  noSetting : String.ofList u.key.text ∉ Suggest.candidates
  first : Suggest.FirstMention cs u.key.text (Text.lineIndex cs u.key.span.start)

/-- The warning about a key points at it exactly if the key is found by its name. -/
theorem points_warning_iff {u : UnknownKey} :
    Points file cs u (warning file cs (Decode.lastPiece u.key.text)) ↔ u.Findable cs := by
  constructor
  · rintro ⟨hkey, -, hline, hsuggestion⟩
    -- the right name is the whole name, so line and suggestion are those of the whole name too
    have hpiece : Decode.lastPiece u.key.text = u.key.text := by
      simpa [warning] using congrArg String.toList hkey
    rw [hpiece] at hline hsuggestion
    exact ⟨Decode.lastPiece_eq_self_iff.mp hpiece, mt Suggest.suggest_self_iff.mpr hsuggestion,
      Suggest.lineOf_eq_some_iff.mp hline⟩
  · rintro ⟨hundotted, hsetting, hfirst⟩
    rw [Decode.lastPiece_eq_self_iff.mpr hundotted]
    exact ⟨rfl, rfl, Suggest.lineOf_eq_some_iff.mpr hfirst, mt Suggest.suggest_self_iff.mp hsetting⟩

/-- There is one name for each unknown key and one for each section that is given as a date. -/
theorem length_flatMap_passedOver (members : List (Key × Value)) :
    (members.flatMap passedOver).length =
      (members.flatMap unknownIn).length + (members.filter isDatedSection).length := by
  induction members with
  | nil => rfl
  | cons m members ih =>
    rw [List.flatMap_cons, List.flatMap_cons, List.length_append, List.length_append, ih,
      List.filter_cons, passedOver]
    split
    · simp only [List.length_append, List.length_map, List.length_cons, List.length_nil]
      omega
    · simp only [List.append_nil, List.length_map]
      omega

/-- Without such a section the names are those of the unknown keys, so the warnings point at these
exactly if each of them is found by its name. -/
theorem forall₂_points_iff {members : List (Key × Value)}
    (h : ∀ m ∈ members, isDatedSection m = false) :
    List.Forall₂ (Points file cs) (members.flatMap unknownIn)
        ((members.flatMap passedOver).map (warning file cs)) ↔
      ∀ u ∈ members.flatMap unknownIn, u.Findable cs := by
  have hnames : members.flatMap passedOver =
      (members.flatMap unknownIn).map fun u => Decode.lastPiece u.key.text := by
    rw [List.map_flatMap]
    refine List.flatMap_congr fun m hm => ?_
    rw [passedOver, h m hm]
    exact List.append_nil _
  rw [hnames, List.map_map, List.forall₂_map_right_iff, List.forall₂_same]
  exact forall₂_congr fun u _ => points_warning_iff

/-- As many warnings as unknown keys leave none for a section that is given as a date. -/
theorem not_isDatedSection_of_forall₂ {members : List (Key × Value)}
    (h : List.Forall₂ (Points file cs) (members.flatMap unknownIn)
      ((members.flatMap passedOver).map (warning file cs))) :
    ∀ m ∈ members, isDatedSection m = false := by
  -- each such section would make one name more than there are unknown keys
  have hlength := h.length_eq
  rw [List.length_map, length_flatMap_passedOver] at hlength
  have hnone : members.filter isDatedSection = [] := List.length_eq_zero_iff.mp (by omega)
  simpa using List.filter_eq_nil_iff.mp hnone

/-- For each text that is accepted: the unknown keys are told apart by the names that lead to them,
and each of them is written at its place, on a line that mentions its name if there is no backslash
in it. There is one warning for each of them and one for each section that is given as a date. The
warnings are one for each unknown key, in their order, and point at them, exactly if no section is
given as a date and each unknown key is found by its name. -/
theorem warnings_point {config : Config} {ws : List ConfigWarning}
    (h : ofText file cs = .ok (config, ws)) :
    ∃ top, Toml.parse cs = some top ∧
      ((unknownKeys top).map UnknownKey.path).Nodup ∧
      (∀ u ∈ unknownKeys top, u.key.StandsIn cs ∧
        ∃ line, (Text.lines cs)[Text.lineIndex cs u.key.span.start]? = some line ∧
          u.key.spelling cs <:+: line ∧ (¬ u.key.IsEscaped cs → u.key.text <:+: line)) ∧
      ws.length = (unknownKeys top).length + (top.members.filter isDatedSection).length ∧
      (List.Forall₂ (Points file cs) (unknownKeys top) ws ↔
        (∀ m ∈ top.members, isDatedSection m = false) ∧
          ∀ u ∈ unknownKeys top, u.Findable cs) := by
  rw [ofText] at h
  split at h
  · cases h
  · next top hparse =>
    split at h
    · cases h
    · next config unknown hdecode =>
      cases h
      have hkeyed := parse_wellKeyed hparse
      rw [Decode.config_unknown hdecode]
      refine ⟨top, hparse, nodup_path_unknownKeys hkeyed, fun u hu => ?_, ?_, ?_, ?_⟩
      · have hstands := standsIn_of_mem_unknownKeys hkeyed hu
        exact ⟨hstands, hstands.exists_line⟩
      · rw [List.length_map, length_flatMap_passedOver, unknownKeys]
      · intro hall
        have hdates := not_isDatedSection_of_forall₂ hall
        exact ⟨hdates, (forall₂_points_iff hdates).mp hall⟩
      · rintro ⟨hdates, hfindable⟩
        exact (forall₂_points_iff hdates).mpr hfindable

/-- A misspelled setting that nothing else in the text mentions is pointed at. -/
theorem warnings_point_misspelled : ∃ top,
    Toml.parse "[sync]\ngit = false\nvscod = false\n".toList = some top ∧
      List.Forall₂ (Points (.ofString fileName) "[sync]\ngit = false\nvscod = false\n".toList)
        (unknownKeys top) [⟨"vscod", .ofString fileName, some 3, some "vscode"⟩] := by
  have haccepted : ofText (.ofString fileName) "[sync]\ngit = false\nvscod = false\n".toList =
      .ok ({ defaults with sync := ⟨false, true, 1000⟩ },
        [⟨"vscod", .ofString fileName, some 3, some "vscode"⟩]) := by
    decide +kernel
  have hread : (Toml.parse "[sync]\ngit = false\nvscod = false\n".toList).map
      (fun top => (unknownKeys top, top.members.any isDatedSection)) =
        some ([⟨some ⟨"sync".toList, ⟨1, 5⟩⟩, ⟨"vscod".toList, ⟨19, 24⟩⟩⟩], false) := by
    decide +kernel
  obtain ⟨top, hparse, -, -, -, hpoint⟩ := warnings_point haccepted
  rw [hparse, Option.map_some, Option.some.injEq, Prod.mk.injEq] at hread
  refine ⟨top, hparse, hpoint.mpr ⟨fun m hm => ?_, fun u hu => ?_⟩⟩
  · simpa using List.any_eq_false.mp hread.2 m hm
  · rw [hread.1] at hu
    obtain rfl := List.mem_singleton.mp hu
    exact ⟨by decide, by decide +kernel, Suggest.lineOf_eq_some_iff.mp (by decide +kernel)⟩

/-- A comment that mentions an unknown key is taken for the line of the key. -/
theorem not_point_comment : ¬ ∀ (file : Path) (cs : List Char) (config : Config)
    (ws : List ConfigWarning), ofText file cs = .ok (config, ws) → ∃ top,
      Toml.parse cs = some top ∧ List.Forall₂ (Points file cs) (unknownKeys top) ws := by
  intro h
  obtain ⟨top, hparse, hall⟩ := h (.ofString fileName) "# colour\n[build]\ncolour = 1\n".toList
    defaults [⟨"colour", .ofString fileName, some 1, none⟩] (by decide +kernel)
  have hread : (Toml.parse "# colour\n[build]\ncolour = 1\n".toList).map unknownKeys =
      some [⟨some ⟨"build".toList, ⟨10, 15⟩⟩, ⟨"colour".toList, ⟨17, 23⟩⟩⟩] := by
    decide +kernel
  rw [hparse, Option.map_some, Option.some.injEq] at hread
  rw [hread] at hall
  obtain ⟨hpoints, -⟩ := List.forall₂_cons.mp hall
  exact absurd hpoints.line (by decide +kernel)

end Config

end ArtifactSync
