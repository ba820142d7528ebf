import ArtifactSync.Process.Shell.State

/-!
# Redirections

A redirection lets a stream stand for a file, for what another stream stands for, or for a text of
the script. What cannot be opened is complained about.
-/

namespace ArtifactSync.Process

/-- Why something could not be opened or made, in a shell's words. -/
def reasonOf (missing : String) (e : Errno) : String :=
  if e = .noEntry || e = .notDirectory then missing else reason e

/-- The number of the stream that a path names, if it names one. -/
def streamNamed? (path : Word) : Option Nat :=
  let names := [("/dev/stdin", 0), ("/dev/stdout", 1), ("/dev/stderr", 2), ("/dev/fd/0", 0),
    ("/dev/fd/1", 1), ("/dev/fd/2", 2)]
  (names.find? fun n => n.1.toList = path).map Prod.snd

/-- Complains about something that could not be opened. -/
def cannot (what : String) (target : Word) (why : String) : Act Bool := do
  Act.complains s!"cannot {what} {String.ofList target}: {why}"
  return false

/-- Lets a stream print to a file, behind what is there or in its place. A shell may be told not to
overwrite files. -/
def openForPrinting (stream : Nat) (appends keeps : Bool) (target : Word) : Act Bool := do
  let s ← get
  let path := Word.path target
  match streamNamed? target with
  | some n =>
    Act.change fun s => s.setChannel stream (s.channel? n)
    return true
  | none =>
    if target = "/dev/null".toList then
      Act.change fun s => s.setChannel stream (some (.sink .nowhere))
      return true
    else if keeps && s.disk.isFile path then cannot "create" target "File exists"
    else
      let there := if appends then (s.disk.readBytes path).toOption.getD [] else []
      match s.disk.putBytes path there with
      | .error e => cannot "create" target (reasonOf "Directory nonexistent" e)
      | .ok disk =>
        let place := s.disk.cwdPath.join path
        Act.change fun s =>
          { s with disk := disk }.setChannel stream (some (.sink (.file place)))
        return true

/-- Lets a stream be read from a file. -/
def openForReading (stream : Nat) (target : Word) : Act Bool := do
  let s ← get
  match streamNamed? target with
  | some n =>
    Act.change fun s => s.setChannel stream (s.channel? n)
    return true
  | none =>
    let bytes : Except Errno (List UInt8) := if target = "/dev/null".toList then .ok []
      else if target = "/dev/zero".toList then .ok (List.replicate endlessBytes 0)
      else match s.disk.readBytes (Word.path target) with
        -- a directory can be opened, but there is nothing to read
        | .error .isDirectory => .ok []
        | bytes => bytes
    match bytes with
    | .error e => cannot "open" target (reasonOf "No such file" e)
    | .ok bytes =>
      Act.change fun s => s.readFrom stream ⟨bytes, true⟩
      return true

/-- Lets a stream stand for what another one stands for, or for nothing. -/
def standLike (stream : Nat) (target : Word) : Act Bool := do
  match target with
  | ['-'] =>
    Act.change fun s => s.setChannel stream none
    return true
  | [c] =>
    if !c.isDigit then badNumber
    else
      let n := c.toNat - 48
      match (← get).channel? n with
      | some channel =>
        Act.change fun s => s.setChannel stream (some channel)
        return true
      | none =>
        Act.complains s!"{n}: Bad file descriptor"
        return false
  | _ => badNumber
where
  /-- Ends the script because no stream has such a number. -/
  badNumber : Act Bool :=
    Act.fails "Syntax error: Bad fd number"

/-- Carries out a redirection to a target, and tells whether that could be done. -/
def redirect (stream : Nat) (direction : Direction) (target : Word) : Act Bool := do
  match direction with
  | .document =>
    Act.change fun s => s.readFrom stream ⟨Word.bytes target, false⟩
    return true
  | .like => standLike stream target
  | .read => openForReading stream target
  | .write => openForPrinting stream false ((← get).has 'C') target
  | .overwrite => openForPrinting stream false false target
  | .append => openForPrinting stream true false target

end ArtifactSync.Process
