import ArtifactSync.Process.Tools

/-!
# Programs by their names

A name without a slash is looked for in the directories of the search path. The usual ones hold the
shell, the tools and the launchers, which run other programs; in any other directory a program is a
file that may be run, and its first line names the program that reads it.
-/

namespace ArtifactSync.Process

/-- A tool that runs another program. -/
inductive Launcher where
  /-- With other variables. -/
  | env
  /-- With the words of its input. -/
  | xargs
  /-- In a way that does not show: within a time, at another rank, or without a terminal. -/
  | plain (valued : String) (skipped : Nat)
  deriving DecidableEq, Repr

/-- What a program turns out to be. -/
inductive Program where
  | tool (run : Call → Ran)
  | shell
  | launcher (launcher : Launcher)
  /-- Tells where programs are found. -/
  | finder
  /-- Carries out record scripts, in which other programs can be run. -/
  | records
  /-- A file that another program reads. -/
  | script (interpreter : Word) (argument : Option Word)

/-- The directories that hold the tools. -/
def programDirectories : List String :=
  ["/bin", "/usr/bin"]

/-- The search path that counts if there is none. -/
def usualPath : Word :=
  "/usr/local/sbin:/usr/local/bin:/usr/sbin:/usr/bin:/sbin:/bin".toList

/-- The programs in the usual directories. -/
def commonProgram? (name : Word) : Option Program :=
  match String.ofList name with
  | "sh" => some .shell
  | "dash" => some .shell
  | "bash" => some .shell
  | "env" => some (.launcher .env)
  | "xargs" => some (.launcher .xargs)
  | "timeout" => some (.launcher (.plain "ks" 1))
  | "nice" => some (.launcher (.plain "n" 0))
  | "nohup" => some (.launcher (.plain "" 0))
  | "which" => some .finder
  | "awk" => some .records
  | "mawk" => some .records
  | _ => (tool? name).map .tool

/-- The interpreter and the word behind it that the first line of a file names. -/
def interpreter? (bytes : List UInt8) : Option (Word × Option Word) :=
  match bytes with
  | 35 :: 33 :: rest =>
    let line := Word.trim (Word.ofBytes (rest.takeWhile (· ≠ 10)))
    let program := line.takeWhile fun c => !Word.isBlank c
    let argument := Word.trim (line.drop program.length)
    if program = [] then none else some (program, if argument = [] then none else some argument)
  | _ => none

/-- The program that a path names. -/
def programAt (d : Disk) (path : Word) : Except Errno Program :=
  let name := (path.reverse.takeWhile (· ≠ '/')).reverse
  let front := Text.dropEndWhile (· == '/') (path.take (path.length - name.length))
  let isDirectory := fun (path : Word) => programDirectories.any fun dir => dir.toList = path
  let isCommon := isDirectory front
  match (if isCommon then commonProgram? name else none) with
  | some program => .ok program
  | none =>
    if isDirectory path || (isCommon && [[], ['.'], ['.', '.']].contains name) then .error .access
    else match d.stat (Word.path path) with
    | .error e => .error e
    | .ok (.file bytes mode) =>
      if mode &&& 0o111 = 0 then .error .access
      else match interpreter? bytes with
        | some (interpreter, argument) => .ok (.script interpreter argument)
        | none => .error .execFormat
    | .ok _ => .error .access

/-- The paths where a program may lie that a word names. -/
def placesFor (env : Environment) (program : Word) : List Word :=
  if program.contains '/' then [program]
  else
    let search := ((env.get? "PATH").map String.toList).getD usualPath
    (Word.pieces (· == ':') search).map fun dir =>
      if dir = [] then program else dir ++ '/' :: program

/-- The first of some paths where there is a program, and that program. What keeps a file from being
run counts only if there is no program further on. -/
def firstProgram (d : Disk) : List Word → Except Errno (Word × Program)
  | [] => .error .noEntry
  | path :: paths =>
    match programAt d path, firstProgram d paths with
    | .ok program, _ => .ok (path, program)
    | .error .execFormat, _ => .error .execFormat
    | .error _, .ok found => .ok found
    | .error e, .error e' => .error (if e' = .noEntry && e ≠ .notDirectory then e else e')

/-- Where the program lies that a word names, and what it is. -/
def findProgram (d : Disk) (env : Environment) (program : Word) :
    Except Errno (Word × Program) :=
  if program = [] then .error .noEntry
  else if program.contains '/' then (programAt d program).map fun p => (program, p)
  else if program.length > Disk.maxName then .error .nameTooLong
  else firstProgram d (placesFor env program)

/-- Whether a word names a file that may be run. -/
def placeOf? (d : Disk) (env : Environment) (program : Word) : Option Word :=
  (placesFor env program).find? fun path =>
    match programAt d path with
    | .ok _ => true
    | .error e => e = .execFormat

end ArtifactSync.Process
