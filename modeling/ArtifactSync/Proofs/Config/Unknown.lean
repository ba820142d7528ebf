import ArtifactSync.Config.Decode
import ArtifactSync.Proofs.Toml.Keys

/-!
# Names that no setting has

Which members of a configuration table are unknown is told by their names alone: at the top those
that no section has, and in the table of a section those that none of its settings has. Nothing in
an unknown member counts (`unknownKeys`). What decoding passes over are these members, in the order
of the text and by the last pieces of their names, and one name more for each section that is given
as a date (`config_unknown`).
-/

namespace ArtifactSync

open Toml

namespace Config

/-- The sections, with the names of the settings in each. -/
def sectionNames : List (String × List String) :=
  [("build", ["tsx"]), ("sync", ["git", "vscode", "debounce_ms"]),
    ("compiler", ["command", "args"]), ("discovery", ["exclude"])]

/-- The names of the settings in the section of a name. -/
def settings? (name : List Char) : Option (List String) :=
  (sectionNames.find? fun s => s.1.toList = name).map Prod.snd

/-- A key that no setting has, with the key of the section it stands in, if it stands in one. -/
structure UnknownKey where
  owner : Option Key
  key : Key
  deriving DecidableEq, Repr

/-- The names that lead to an unknown key. -/
def UnknownKey.path (u : UnknownKey) : List (List Char) :=
  u.owner.toList.map Key.text ++ [u.key.text]

/-- The keys of members that have none of the names given. -/
def foreign (names : List String) (members : List (Key × Value)) : List Key :=
  (members.filter fun m => m.1.text ∉ names.map String.toList).map Prod.fst

/-- The unknown keys of a member of the top table: its own, or those in its section. -/
def unknownIn (m : Key × Value) : List UnknownKey :=
  match settings? m.1.text with
  | none => [⟨none, m.1⟩]
  | some names => (foreign names m.2.members).map fun key => ⟨some m.1, key⟩

/-- The unknown keys of a text's table. -/
def unknownKeys (top : Value) : List UnknownKey :=
  top.members.flatMap unknownIn

/-- Whether a value is a date. -/
def isDate : Value → Bool
  | .scalar .date _ => true
  | _ => false

/-- Whether a member of the top table is a section that is given as a date. -/
def isDatedSection (m : Key × Value) : Bool :=
  (settings? m.1.text).isSome && isDate m.2

/-- What is passed over in a member of the top table. -/
def passedOver (m : Key × Value) : List (List Char) :=
  (unknownIn m).map (fun u => Decode.lastPiece u.key.text) ++
    if isDatedSection m then [Decode.dateMember] else []

variable {m : Key × Value}

/-- A member of the top table that is no section is unknown. -/
theorem unknownIn_of_none (h : settings? m.1.text = none) : unknownIn m = [⟨none, m.1⟩] := by
  rw [unknownIn, h]

/-- Of a section, the members that none of its settings has are unknown. -/
theorem unknownIn_of_some {names : List String} (h : settings? m.1.text = some names) :
    unknownIn m = (foreign names m.2.members).map fun key => ⟨some m.1, key⟩ := by
  rw [unknownIn, h]

/-- The names that lead to an unknown key begin with that of the member of the top table. -/
theorem head_path_of_mem {path : List (List Char)}
    (h : path ∈ (unknownIn m).map UnknownKey.path) : path.head? = some m.1.text := by
  obtain ⟨u, hu, rfl⟩ := List.mem_map.mp h
  cases hsettings : settings? m.1.text with
  | none =>
    rw [unknownIn_of_none hsettings] at hu
    obtain rfl := List.mem_singleton.mp hu
    rfl
  | some names =>
    rw [unknownIn_of_some hsettings] at hu
    obtain ⟨key, -, rfl⟩ := List.mem_map.mp hu
    rfl

/-- Unknown keys of a parsed text stand at their places. -/
theorem standsIn_of_mem_unknownKeys {cs : List Char} {top : Value} (h : top.WellKeyed cs)
    {u : UnknownKey} (hu : u ∈ unknownKeys top) : u.key.StandsIn cs := by
  obtain ⟨m, hm, hu⟩ := List.mem_flatMap.mp hu
  cases hsettings : settings? m.1.text with
  | none =>
    rw [unknownIn_of_none hsettings] at hu
    obtain rfl := List.mem_singleton.mp hu
    exact h.standsIn hm
  | some names =>
    rw [unknownIn_of_some hsettings] at hu
    obtain ⟨key, hkey, rfl⟩ := List.mem_map.mp hu
    obtain ⟨field, hfield, rfl⟩ := List.mem_map.mp hkey
    exact (h.of_mem hm).standsIn (List.mem_of_mem_filter hfield)

/-- No two unknown keys of a parsed text are led to by the same names. -/
theorem nodup_path_unknownKeys {cs : List Char} {top : Value} (h : top.WellKeyed cs) :
    ((unknownKeys top).map UnknownKey.path).Nodup := by
  -- within a section names differ, and in different members of the top table the first names do
  rw [unknownKeys, List.map_flatMap, List.nodup_flatMap]
  constructor
  · intro m hm
    cases hsettings : settings? m.1.text with
    | none =>
      rw [unknownIn_of_none hsettings]
      exact List.nodup_singleton _
    | some names =>
      have hnames : ((foreign names m.2.members).map Key.text).Nodup := by
        rw [foreign, List.map_map]
        exact (h.of_mem hm).nodup.sublist (List.filter_sublist.map _)
      have hpaths : (unknownIn m).map UnknownKey.path =
          ((foreign names m.2.members).map Key.text).map fun name => [m.1.text, name] := by
        rw [unknownIn_of_some hsettings, List.map_map, List.map_map]
        rfl
      rw [hpaths]
      exact hnames.map fun a b hab => (List.cons.inj (List.cons.inj hab).2).1
  · refine (List.pairwise_map.mp h.nodup).imp fun hne path hpath hpath' => ?_
    exact hne (Option.some.inj ((head_path_of_mem hpath).symm.trans (head_path_of_mem hpath')))

end Config

namespace Decode

open Config

/-- Of the members of a section, those that no field has are passed over. -/
theorem fromMembers_unknown {α : Type} {fields : List (Field α)} {value v : α}
    {members : List (Key × Value)} {unknown : Unknown}
    (h : fromMembers fields value members = .ok (v, unknown)) :
    unknown = (foreign (fields.map Field.name) members).map fun key => lastPiece key.text := by
  induction members generalizing value v unknown with
  | nil =>
    cases h
    rfl
  | cons m members ih =>
    obtain ⟨key, node⟩ := m
    rw [fromMembers] at h
    split at h
    · next hfind =>
      have hnone : ∀ f ∈ fields, f.name.toList ≠ key.text := by
        simpa using hfind
      split at h
      · cases h
      · next hrest =>
        cases h
        have hkeep : foreign (fields.map Field.name) ((key, node) :: members) =
            key :: foreign (fields.map Field.name) members := by
          rw [foreign, List.filter_cons, if_pos (by simpa using hnone)]
          rfl
        rw [ih hrest, hkeep, List.map_cons]
    · next field hfind =>
      have hname : field.name.toList = key.text := by
        simpa using List.find?_some hfind
      split at h
      · cases h
      · have hdrop : foreign (fields.map Field.name) ((key, node) :: members) =
            foreign (fields.map Field.name) members := by
          have hmem := List.mem_of_find?_eq_some hfind
          rw [foreign, List.filter_cons, if_neg (by simpa using ⟨field, hmem, hname⟩)]
          rfl
        rw [ih h, hdrop]

/-- What was made of a decoded value was made of the value and the names passed over. -/
theorem ok_of_map {α β : Type} {decoded : Except Complaint α} {f : α → β} {b : β}
    (h : decoded.map f = .ok b) : ∃ a, decoded = .ok a ∧ f a = b := by
  cases decoded with
  | error e => cases h
  | ok a => exact ⟨a, rfl, Except.ok.inj h⟩

/-- What a section passes over. -/
theorem fromSection_unknown {α : Type} {name : String} {fields : List (Field α)} {defaults v : α}
    {place : Span} {key : Key} {node : Value} {unknown : Unknown}
    (hsettings : settings? key.text = some (fields.map Field.name))
    (h : fromSection name fields defaults place node = .ok (v, unknown)) :
    unknown = passedOver (key, node) := by
  rw [passedOver, unknownIn_of_some hsettings, List.map_map]
  cases node with
  | table form members span =>
    have hdated : isDatedSection (key, .table form members span) = false := Bool.and_false _
    rw [fromMembers_unknown h, hdated]
    exact (List.append_nil _).symm
  | array items span =>
    obtain ⟨value, -, h⟩ := ok_of_map h
    cases h
    simp [isDatedSection, isDate, foreign, Value.members]
  | tables items =>
    obtain ⟨value, -, h⟩ := ok_of_map h
    cases h
    simp [isDatedSection, isDate, foreign, Value.members]
  | scalar value span =>
    cases value with
    | date =>
      -- a date counts as a table with one member that no section has
      cases h
      rw [isDatedSection, hsettings]
      rfl
    | string => cases h
    | integer => cases h
    | number => cases h
    | boolean => cases h

/-- What is passed over in one member of the top table. -/
theorem member_unknown {c c' : Config} {key : Key} {node : Value} {unknown : Unknown}
    (h : member c key node = .ok (c', unknown)) : unknown = passedOver (key, node) := by
  -- each section is taken in the same way, and keeps what it passes over
  have hsection {α : Type} {name : String} {fields : List (Field α)} {defaults : α} {place : Span}
      {f : α × Unknown → Config × Unknown}
      (h : (fromSection name fields defaults place node).map f = .ok (c', unknown))
      (hf : ∀ x, (f x).2 = x.2) (hsettings : settings? key.text = some (fields.map Field.name)) :
      unknown = passedOver (key, node) := by
    obtain ⟨⟨v, u⟩, hread, h⟩ := ok_of_map h
    have hu : u = unknown := (hf (v, u)).symm.trans (congrArg Prod.snd h)
    exact hu ▸ fromSection_unknown hsettings hread
  simp only [member] at h
  split at h
  · next hkey => exact hsection h (fun _ => rfl) (by rw [hkey]; rfl)
  · split at h
    · next hkey => exact hsection h (fun _ => rfl) (by rw [hkey]; rfl)
    · split at h
      · next hkey => exact hsection h (fun _ => rfl) (by rw [hkey]; rfl)
      · split at h
        · next hkey => exact hsection h (fun _ => rfl) (by rw [hkey]; rfl)
        · next hbuild hsync hcompiler hdiscovery =>
          cases h
          have hnone : settings? key.text = none := by
            rw [settings?, Option.map_eq_none_iff, List.find?_eq_none]
            simp only [sectionNames, List.forall_mem_cons, decide_eq_true_eq]
            exact ⟨Ne.symm hbuild, Ne.symm hsync, Ne.symm hcompiler, Ne.symm hdiscovery, by simp⟩
          rw [passedOver, unknownIn_of_none hnone, isDatedSection, hnone]
          rfl

/-- What is passed over in a text's table. -/
theorem config_unknown {top : Value} {c : Config} {unknown : Unknown}
    (h : config top = .ok (c, unknown)) : unknown = top.members.flatMap passedOver := by
  rw [config] at h
  generalize Config.defaults = c₀ at h
  generalize top.members = members at h ⊢
  induction members generalizing c₀ unknown with
  | nil =>
    cases h
    rfl
  | cons m members ih =>
    rw [Decode.members] at h
    split at h
    · cases h
    · next hmember =>
      split at h
      · cases h
      · next hrest =>
        cases h
        rw [List.flatMap_cons, ih _ hrest, ← member_unknown hmember]

end Decode

end ArtifactSync
