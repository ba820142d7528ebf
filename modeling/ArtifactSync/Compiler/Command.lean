import ArtifactSync.Compiler.Basic
import ArtifactSync.Process.Shell.Run

/-!
# Compilers that are programs

A program that compiles reads the source from its input and prints the compiled text. It runs in the
project root, once for each source, and what it does to the disk stays done.
-/

namespace ArtifactSync

/-- A program that compiles, the words it is given, and the directory it runs in. -/
structure CommandCompiler where
  program : String
  args : List String
  directory : Path
  deriving DecidableEq, Repr

namespace CommandCompiler

/-- The part of a word in whose place the path of the source is put. -/
def filePlaceholder : String := "\x7bfile\x7d"

/-- The words that the program is given for a source. -/
def argsFor (c : CommandCompiler) (source : Path) : List (List Char) :=
  c.args.map fun arg => Text.replaceAll filePlaceholder.toList source.toSlash arg.toList

/-- The error that keeps the program from being run. -/
def unavailable (c : CommandCompiler) (message : String) : CompileError :=
  .unavailable c.program message

/-- The bound on the steps of a run. -/
def stepLimit : Nat := 20000

/-- What a finished run means: the text it printed, or its complaint. A program that fails without a
complaint is told by how it ended. -/
def verdict (c : CommandCompiler) (ran : Process.Ran) : Except CompileError String :=
  if ran.status = .exited 0 then
    match Text.ofBytes? (ran.on .out) with
    | some text => .ok text
    | none => .error .invalidOutput
  else
    match Text.trim (Text.lossy (ran.on .err)) with
    | [] => .error (.rejected s!"`{c.program}` exited with {ran.status}")
    | complaint => .error (.rejected (String.ofList complaint))

/-- The call of the program for a source, with all texts as the bytes that programs see. -/
def call (c : CommandCompiler) (args : List (List Char)) (source : String) (env : Environment)
    (d : Disk) : Process.Call where
  name := Process.Word.ofText c.program.toList
  args := args.map Process.Word.ofText
  input := Text.bytes source.toList
  isFile := false
  env := ⟨env.bindings.map fun v =>
    let word := fun (s : String) => String.ofList (Process.Word.ofText s.toList)
    (word v.1, word v.2)⟩
  disk := d
  ignored := []

/-- The compiler that runs the program. -/
def compiler (c : CommandCompiler) (env : Environment) : Compiler Disk :=
  fun source path d =>
    let args := c.argsFor path
    if (c.program.toList :: c.directory.chars :: args).any Disk.holdsNul then
      (.error (c.unavailable "nul byte found in provided data"), d)
    else match d.enter c.directory with
      | .error e => (.error (c.unavailable e.toString), d)
      | .ok inside =>
        match Process.runProgram stepLimit (c.call args source env inside) with
        | .error e => (.error (c.unavailable e.toString), d)
        | .ok ran => (c.verdict ran, { ran.disk with cwd := d.cwd })

end CommandCompiler

end ArtifactSync
