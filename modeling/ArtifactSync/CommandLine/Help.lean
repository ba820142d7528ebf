import ArtifactSync.CommandLine.Arguments

/-!
# Help

The texts that the program prints about itself.
-/

namespace ArtifactSync.CommandLine

/-- What the program is for. -/
def programPurpose : String :=
  "Build and watch tool that compiles Civet sources to TypeScript and keeps .gitignore and VS Code "
    ++ "excludes in sync"

/-- What a command is for. -/
def Command.purpose : Command → String
  | build => "Compile every source once and update the side files"
  | dev => "Compile, then keep recompiling as sources change (Ctrl+C to stop)"

/-- What the help command is for. -/
def helpPurpose : String :=
  "Print this message or the help of the given subcommand(s)"

/-- The options of every command. -/
def optionsHelp : String :=
  "Options:\n"
    ++ "      --json           Output events as NDJSON (for CI and scripts)\n"
    ++ "      --color <COLOR>  Color output mode [possible values: auto, always, never]\n"
    ++ "  -v, --verbose...     Verbosity level (-v, -vv)\n"
    ++ "      --root <DIR>     Project root (defaults to the current directory)\n"
    ++ "      --tsx            Emit .tsx instead of .ts\n"
    ++ "      --no-git         Do not touch .gitignore\n"
    ++ "      --no-vscode      Do not touch .vscode/settings.json\n"
    ++ "  -h, --help           Print help\n"

/-- The help on a topic. -/
def Topic.text : Topic → String
  | program =>
    s!"{programPurpose}\n\nUsage: civetman [OPTIONS] <COMMAND>\n\nCommands:\n"
      ++ s!"  build  {Command.build.purpose}\n"
      ++ s!"  dev    {Command.dev.purpose} [alias: watch]\n"
      ++ s!"  help   {helpPurpose}\n\n"
      ++ optionsHelp
      ++ "  -V, --version        Print version\n"
  | command c => s!"{c.purpose}\n\nUsage: civetman {c.name} [OPTIONS]\n\n" ++ optionsHelp
  | help =>
    s!"{helpPurpose}\n\nUsage: civetman help [COMMAND]...\n\nArguments:\n"
      ++ "  [COMMAND]...  Print help for the subcommand(s)\n"

/-- The version of the program. -/
def versionText : String := "civetman 0.3.0\n"

/-- What is printed when the words give no command to run. -/
def Stop.text : Stop → String
  | help topic => topic.text
  | version => versionText
  | usage _ => ""

/-- The exit code when the words give no command to run. -/
def Stop.exitCode : Stop → Nat
  | help _ => 0
  | version => 0
  | usage _ => 2

end ArtifactSync.CommandLine
