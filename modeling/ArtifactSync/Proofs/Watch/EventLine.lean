import ArtifactSync.Proofs.Jsonc.Line
import ArtifactSync.Watch.Event

/-!
# Events as lines

Both commands report every event on a line of its own. A line is an object on one line, so that much
is known of it from its members (`Json.readObject_renderObject`). What is left is to get the event
from the members: `CommandEvent.ofFields?` looks up the command and the name of the event, and then
the fields of that event, each under its name. Nothing is lost on the way (`Recoverable`): the names
are different ones, the name of the event is that of no other variant, and the values are those of
the event.
-/

namespace ArtifactSync

open Json

/-! ## Getting events from fields -/

/-- The trigger with a name. -/
def Trigger.ofName? (name : String) : Option Trigger :=
  [initial, add, change].find? (·.name = name)

/-- The event of a batch build with these fields. -/
def BuildEvent.ofFields? (fields : List (String × Scalar)) : Option BuildEvent := do
  match ← text? fields "event" with
  | "build_started" => return .buildStarted (← text? fields "root") (← number? fields "sources")
  | "file_built" => return .fileBuilt (← text? fields "source") (← text? fields "output")
  | "file_failed" =>
    return .fileFailed (← text? fields "source") (← text? fields "stage") (← text? fields "message")
  | "side_file_synced" =>
    return .sideFileSynced (← text? fields "file") (← number? fields "entries")
  | "warning" => return .warning (← text? fields "message")
  | "build_complete" => return .buildComplete (← number? fields "built") (← number? fields "failed")
  | _ => none

/-- The event of a watch with these fields. -/
def WatchEvent.ofFields? (fields : List (String × Scalar)) : Option WatchEvent := do
  match ← text? fields "event" with
  | "watch_started" => return .watchStarted (← text? fields "root") (← number? fields "sources")
  | "file_built" =>
    return .fileBuilt (← text? fields "source") (← text? fields "output")
      (← Trigger.ofName? (← text? fields "trigger"))
  | "file_failed" =>
    return .fileFailed (← text? fields "source") (← text? fields "stage") (← text? fields "message")
  | "file_removed" => return .fileRemoved (← text? fields "source") (← text? fields "output")
  | "initial_build_complete" =>
    return .initialBuildComplete (← number? fields "built") (← number? fields "failed")
  | "side_file_synced" =>
    return .sideFileSynced (← text? fields "file") (← number? fields "entries")
  | "warning" => return .warning (← text? fields "message")
  | "error" => return .error (← text? fields "message")
  | "shutdown" => return .shutdown
  | _ => none

/-- An event of one of the two commands. -/
inductive CommandEvent where
  | build (e : BuildEvent)
  | dev (e : WatchEvent)

namespace CommandEvent

/-- The command that reports an event. -/
def command : CommandEvent → String
  | build _ => "build"
  | dev _ => "dev"

/-- The line that it is reported on. -/
def line : CommandEvent → String
  | build e => e.toJson
  | dev e => e.toJson

/-- The name of an event and its fields. -/
def fields : CommandEvent → List (String × Scalar)
  | build e => e.members
  | dev e => e.members

/-- Which of its command's events it is. -/
def variant : CommandEvent → Nat
  | build e => e.ctorIdx
  | dev e => e.ctorIdx

/-- The event with these fields, the command among them. -/
def ofFields? (fields : List (String × Scalar)) : Option CommandEvent := do
  match ← text? fields "command" with
  | "build" => return .build (← BuildEvent.ofFields? fields)
  | "dev" => return .dev (← WatchEvent.ofFields? fields)
  | _ => none

/-- The members on the line of an event. -/
def members (e : CommandEvent) : List (String × Scalar) :=
  e.fields ++ [("command", .text e.command)]

/-- They are what is written. -/
theorem line_eq (e : CommandEvent) : e.line = renderObject e.members := by
  cases e <;> rfl

/-- An event is got from its members. -/
theorem ofFields_members (e : CommandEvent) : ofFields? e.members = some e := by
  cases e with
  | build e =>
    cases e <;> rfl
  | dev e =>
    cases e with
    | fileBuilt source output trigger => cases trigger <;> rfl
    | _ => rfl

/-- No two members have the same name. -/
theorem nodup_names (e : CommandEvent) : (e.members.map Prod.fst).Nodup := by
  cases e with
  | build e => cases e <;> simp [members, fields, BuildEvent.members]
  | dev e => cases e <;> simp [members, fields, WatchEvent.members]

/-- The names of the events of a command, in the order in which the variants are declared. -/
def eventNames (command : String) : List String :=
  if command = "build" then
    ["build_started", "file_built", "file_failed", "side_file_synced", "warning", "build_complete"]
  else
    ["watch_started", "file_built", "file_failed", "file_removed", "initial_build_complete",
      "side_file_synced", "warning", "error", "shutdown"]

/-- An event has the name of its variant. -/
theorem exists_event (e : CommandEvent) : ∃ name, text? e.fields "event" = some name ∧
    (eventNames e.command)[e.variant]? = some name := by
  cases e with
  | build e => cases e <;> exact ⟨_, rfl, rfl⟩
  | dev e => cases e <;> exact ⟨_, rfl, rfl⟩

/-- No two events of a command have the same name. -/
theorem nodup_eventNames (command : String) : (eventNames command).Nodup := by
  unfold eventNames
  split <;> decide

/-- So the events of a command with the same name are of the same variant. -/
theorem event_eq_iff {e e' : CommandEvent} (h : e.command = e'.command) :
    text? e.fields "event" = text? e'.fields "event" ↔ e.variant = e'.variant := by
  obtain ⟨name, hname, hvariant⟩ := e.exists_event
  obtain ⟨name', hname', hvariant'⟩ := e'.exists_event
  rw [← h] at hvariant'
  have hlength := (List.getElem?_eq_some_iff.mp hvariant).1
  rw [hname, hname', ← hvariant, ← hvariant']
  exact List.getElem?_inj hlength (nodup_eventNames e.command)

/-- Everything about an event is on its line. -/
structure Recoverable (e : CommandEvent) : Prop where
  /-- No control character is on it, so nothing ends the line in front of its end. -/
  oneLine : ∀ c ∈ e.line.toList, 32 ≤ c.toNat
  /-- It is an object that has the name of the event, its fields and the command. -/
  members : readObject? e.line = some (e.fields ++ [("command", .text e.command)])
  /-- No two of them have the same name. -/
  distinct : ((e.fields ++ [("command", Scalar.text e.command)]).map Prod.fst).Nodup
  /-- The name of the event tells the variants of the command's events apart. -/
  event : ∀ e' : CommandEvent, e.command = e'.command →
    (text? e.fields "event" = text? e'.fields "event" ↔ e.variant = e'.variant)
  recovered : (readObject? e.line).bind ofFields? = some e

/-- Whatever texts and numbers an event holds, everything about it is on its line, so events on the
same line are the same. -/
theorem recoverable_of_line :
    (∀ e : CommandEvent, e.Recoverable) ∧ Function.Injective line := by
  have hread (e : CommandEvent) : readObject? e.line = some e.members := by
    rw [line_eq]
    exact readObject_renderObject e.members
  have hrecovered (e : CommandEvent) : (readObject? e.line).bind ofFields? = some e := by
    rw [hread, Option.bind_some, ofFields_members]
  constructor
  · intro e
    constructor
    · rw [line_eq]
      exact fun c => le_of_mem_renderObject
    · exact hread e
    · exact nodup_names e
    · exact fun e' => event_eq_iff
    · exact hrecovered e
  · intro e e' hline
    have hsome : some e = some e' := by
      rw [← hrecovered e, ← hrecovered e', hline]
    exact Option.some.inj hsome

end CommandEvent

end ArtifactSync
