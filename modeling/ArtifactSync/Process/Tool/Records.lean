import ArtifactSync.Process.Record.Run

/-!
# The record tool

The tool that carries out a record script, which is its first word or stands in files. The words
behind that are files, or give variables values when their turn comes.
-/

namespace ArtifactSync.Process

/-- What the words of the record tool tell: the files that hold the script, the values that
variables have from the start, and the other words. -/
structure RecordOptions where
  files : List Word
  values : List (Word × Word)
  words : List Word
  deriving DecidableEq, Repr

namespace RecordOptions

/-- Takes in the value of an option. -/
def add (o : RecordOptions) (letter : Char) (value : Word) : Except String RecordOptions :=
  match letter with
  | 'f' => .ok { o with files := o.files ++ [value] }
  | 'F' => .ok { o with values := o.values ++ [("FS".toList, Record.Token.unescaped 0 value)] }
  | _ =>
    match Record.Work.assignment? value with
    | some v => .ok { o with values := o.values ++ [v] }
    | none => .error s!"improper assignment: -v {String.ofList value}"

/-- Reads the words of the tool. -/
def read (o : RecordOptions) : List Word → Except String RecordOptions
  | [] => .ok o
  | ['-', '-'] :: ws => .ok { o with words := ws }
  | ['-', letter] :: ws =>
    if !"fFv".toList.contains letter then .error s!"not an option: -{letter}"
    else match ws with
      | [] => .error s!"option -{letter} lacks argument"
      | value :: ws => (o.add letter value).bind fun o => o.read ws
  | ('-' :: letter :: value) :: ws =>
    if "fFv".toList.contains letter then (o.add letter value).bind fun o => o.read ws
    else .error s!"not an option: -{letter}{String.ofList value}"
  | ws => .ok { o with words := ws }

end RecordOptions

/-- What the tool tells about its use. -/
def recordUsage : String :=
  "Usage: mawk [Options] [Program] [file ...]\n\nProgram:\n" ++
  "    The -f option value is the name of a file containing program text.\n" ++
  "    If no -f option is given, a \"--\" ends option processing; the following\n" ++
  "    parameters are the program text.\n\nOptions:\n" ++
  "    -f program-file  Program  text is read from file instead of from the\n" ++
  "                     command-line.  Multiple -f options are accepted.\n" ++
  "    -F value         sets the field separator, FS, to value.\n" ++
  "    -v var=value     assigns value to program variable var.\n" ++
  "    --               unambiguous end of options.\n\n" ++
  "    Implementation-specific options are prefixed with \"-W\".  They can be\n" ++
  "    abbreviated:\n\n" ++
  "    -W version       show version information and exit.\n" ++
  "    -W compat        pre-POSIX 2001.\n" ++
  "    -W dump          show assembler-like listing of program and exit.\n" ++
  "    -W help          show this message and exit.\n" ++
  "    -W interactive   set unbuffered output, line-buffered input.\n" ++
  "    -W exec file     use file as program as well as last option.\n" ++
  "    -W posix         stricter POSIX checking.\n" ++
  "    -W random=number set initial random seed.\n" ++
  "    -W sprintf=number adjust size of sprintf buffer.\n" ++
  "    -W usage         show this message and exit.\n"

/-- Carries out a record script. Command lines in it are run by a shell. -/
def awk (shell : Call → Ran) (c : Call) : Ran :=
  let c := { c with name := "awk".toList }
  match RecordOptions.read ⟨[], [], []⟩ c.args with
  | .error message => c.complains message 2
  | .ok o =>
    let texts := (readFiles c o.files).filter fun _ => !o.files.isEmpty
    match texts.find? fun t => t.2.toOption.isNone, c.args.isEmpty with
    | some (file, .error e), _ =>
      c.complains s!"cannot open \"{String.ofList file}\" ({reason e})" 2
    | _, true => { c.ends [(.err, Word.bytesOf recordUsage)] 0 with rest := c.input }
    | _, false =>
      let isGiven := !o.files.isEmpty
      let text := if isGiven then texts.flatMap fun t => Word.ofBytes (t.2.toOption.getD [])
        else o.words.headD []
      let place := match o.files with
        | [file] => String.ofList file ++ ": "
        | _ => ""
      match Record.Script.read text with
      | .error problem => c.complains (place ++ problem.message) 2
      | .ok script =>
        let operands := if isGiven then o.words else o.words.drop 1
        let input := if isGiven then inputBehind c o.files else c.input
        let start := Record.Recorder.start script shell { c with input := input } operands
        let work := do
          for (name, value) in o.values do
            Record.Work.assign name (.read value)
          Record.runScript Record.stepLimit script
        let r := ((work.run).run start).2.close
        ⟨.exited r.code, r.printed.reverse, r.call.input, r.call.disk⟩

end ArtifactSync.Process
