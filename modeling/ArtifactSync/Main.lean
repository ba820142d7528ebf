import ArtifactSync.CommandLine.Run
import ArtifactSync.Watch.Poll

/-!
# The program

Carries a directory into a disk, runs the command line on it, and carries what has changed back.
Only the directory of the project is carried over, and compilers run on the disk that holds it.
-/

namespace ArtifactSync.Main

/-- The variables that the program looks at. -/
def variableNames : List String :=
  ["PATH", "NO_COLOR", "TERM", "LC_ALL", "LC_CTYPE", "LANG", "CIVETMAN_TSX", "CIVETMAN_NO_GIT",
    "CIVETMAN_NO_VSCODE", "CIVETMAN_COMPILER", "CIVETMAN_DEBOUNCE_MS"] ++ Terminal.serverVariables

/-- The environment of the program. -/
def environment : IO Environment := do
  let values ← variableNames.mapM fun name => do
    let value ← IO.getEnv name
    return value.map fun value => (name, value)
  return ⟨values.filterMap id⟩

/-- Reads what stands at a path, and everything below it. Files that are neither files nor
directories nor links are passed over, and so is what goes away meanwhile. -/
partial def readNode? (path : String) : IO (Option Node) := do
  let directory ← IO.FS.realPath path
  try
    let entries ← directory.readDir
    let nodes ← entries.toList.mapM fun entry => do
      let place := path ++ "/" ++ entry.fileName
      let data ← entry.path.symlinkMetadata
      match data.type with
      | .dir => return (← readNode? place).map fun node => (entry.fileName.toList, node)
      | .file =>
        let bytes ← IO.FS.readBinFile entry.path
        return some (entry.fileName.toList, Node.file bytes.toList 0o644)
      | .symlink =>
        let target ← IO.FS.realPath entry.path
        return some (entry.fileName.toList, Node.link target.toString.toList)
      | .other => return none
    let sorted := (nodes.filterMap id).foldl (fun list e => Node.putEntry e.1 e.2 list) []
    return some (.dir sorted 0o755)
  catch _ => return none

/-- A disk that holds the directory at a path and nothing else. -/
def readDisk (cwd root : Path) : IO Disk := do
  let d := Disk.atDirectory cwd
  match ← readNode? root.toString with
  | none => return d
  | some node =>
    let d := (d.makeDirs root).2
    match d.resolve root true with
    | .ok (.node ((name, _) :: outer) _) => return d.setAt outer name (some node)
    | _ => return { d with top := node }

/-- Writes one entry of a directory. -/
def writeEntry (root : Path) (path : List Char) (node : Node) : IO Unit := do
  let place := (root.join ⟨path⟩).toString
  match node with
  | .dir _ _ => IO.FS.createDirAll place
  | .file bytes _ => IO.FS.writeBinFile place ⟨bytes.toArray⟩
  | .link _ => return

/-- Writes what differs between two disks below a directory. -/
def writeChanges (before after : Disk) (root : Path) : IO Unit := do
  let old := before.listing root
  let new := after.listing root
  for (path, node) in old do
    if (Disk.listed? new path).isNone && node.isFile then
      IO.FS.removeFile (root.join ⟨path⟩).toString
  for (path, node) in new do
    if !((Disk.listed? old path).any fun was => Disk.sameNode was node) then
      writeEntry root path node

/-- Prints what a run has printed. -/
def print (p : CommandLine.Printed) : IO Unit := do
  let out ← IO.getStdout
  out.putStr p.out
  out.flush
  (← IO.getStderr).putStr p.err

/-- A time in milliseconds as hours, minutes and seconds. -/
def clockText (now : Nat) : String :=
  let two := fun (n : Nat) => if n < 10 then s!"0{n}" else s!"{n}"
  let seconds := now / 1000
  two (seconds / 3600 % 24) ++ ":" ++ two (seconds / 60 % 60) ++ ":" ++ two (seconds % 60)

/-- The time between two looks, in milliseconds. -/
def lookEvery : UInt32 := 200

/-- Watches until the program is stopped from outside. -/
partial def watch (cwd root : Path) (start : Nat) (w : CommandLine.Watching) : IO UInt32 := do
  IO.sleep lookEvery
  let now := (← IO.monoMsNow) - start
  let seen ← readDisk cwd root
  match Watch.look w.started now seen with
  | .error _ => return UInt32.ofNat CommandLine.crashCode
  | .ok started =>
    print (started.run.events.foldl (w.printer.watchEvent (clockText now)) .none)
    writeChanges seen started.run.world root
    watch cwd root start { w with started := started }

/-- Runs a command line about the project at a root. -/
def runIn (cwd root : Path) (words : List String) : IO UInt32 := do
  let start ← IO.monoMsNow
  let before ← readDisk cwd root
  let isTerminal ← (← IO.getStdout).isTty
  match CommandLine.run words ⟨← environment, isTerminal, clockText 0, before⟩ with
  | .ended code printed after =>
    print printed
    writeChanges before after root
    return UInt32.ofNat code
  | .watching printed w =>
    print printed
    writeChanges before w.started.run.world root
    watch cwd root start w

/-- Tells why a command line names nothing to run. -/
def stop (reason : CommandLine.Stop) : IO UInt32 := do
  (← IO.getStdout).putStr reason.text
  return UInt32.ofNat reason.exitCode

end ArtifactSync.Main

/-- Runs the program on the words of its command line. -/
def main (words : List String) : IO UInt32 := do
  match ArtifactSync.CommandLine.parse words with
  | .error reason => ArtifactSync.Main.stop reason
  | .ok a =>
    let cwd := ArtifactSync.Path.ofString (← IO.currentDir).toString
    let here : ArtifactSync.Disk := ⟨.dir [] 0o755, ArtifactSync.Disk.piecesOf cwd.chars⟩
    ArtifactSync.Main.runIn cwd (ArtifactSync.CommandLine.rootOf a here) words
