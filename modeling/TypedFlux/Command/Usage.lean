import TypedFlux.Command.Arguments

/-
  The commands of the program and their help.

  Key definitions include:
    * `Command`
    * `Invocation`
    * `Reading`
    * `Reading.ofArguments`
-/

namespace TypedFlux

------------------------------------------------------------
-- Commands
------------------------------------------------------------

/- The query to draft a script for, and how to show it. -/
structure DraftRequest where
  query : String
  bucket? : Option String
  org? : Option String
  bindings : List String
  asJson : Bool

/- A command. -/
inductive Command where
  | draft (what : DraftRequest)
  | config (output? : Option String)

/- A command, and the file with settings that it names. -/
structure Invocation where
  command : Command
  settings? : Option String

/-
  What arguments ask for: a command, some text to show, or
  nothing that is known.
-/
inductive Reading where
  | run (invocation : Invocation)
  | show (text : String)
  | misused

------------------------------------------------------------
-- Options
------------------------------------------------------------

/- The option that every command has. -/
def CommandOption.config : CommandOption :=
  ⟨some 'c', "config", .path⟩

/- Ask for help. -/
def CommandOption.help : CommandOption :=
  ⟨some 'h', "help", .help⟩

/- The options in front of a command. -/
def rootOptions : List CommandOption :=
  [.config, .help, ⟨some 'V', "version", .version⟩]

/- The options of the command that drafts a script. -/
def draftOptions : List CommandOption :=
  [⟨some 'b', "bucket", .text⟩,
    ⟨some 'o', "org", .text⟩,
    ⟨some 'B', "bind", .texts⟩,
    ⟨none, "json", .switch⟩,
    .config, .help]

/- The options of the command that writes settings. -/
def configOptions : List CommandOption :=
  [⟨some 'o', "output", .path⟩, .config, .help]

------------------------------------------------------------
-- Help
------------------------------------------------------------

/- Lines of text, each with its end. -/
def textOf (lines : List String) : String :=
  String.join (lines.map (· ++ "\n"))

/- The name and version of the program. -/
def versionText : String :=
  textOf ["fluxlinq 0.1.0"]

/- Help on the program. -/
def rootHelp : String :=
  textOf [
    "Translate typed queries into Flux",
    "",
    "Usage: fluxlinq [OPTIONS] <COMMAND>",
    "",
    "Commands:",
    "  translate  Translate a query into Flux",
    "  config     Generate default config file",
    "  help       Print this message or the help of the given "
      ++ "subcommand(s)",
    "",
    "Options:",
    "  -c, --config <CONFIG>  Config file (default: search the "
      ++ "standard locations)",
    "  -h, --help             Print help",
    "  -V, --version          Print version"]

/- Help on the command that drafts a script. -/
def draftHelp : String :=
  textOf [
    "Translate a query into Flux",
    "",
    "Usage: fluxlinq translate [OPTIONS] <QUERY>",
    "",
    "Arguments:",
    "  <QUERY>  Query text, e.g. \"from s in sensor where "
      ++ "s.value > 10 select s\"",
    "",
    "Options:",
    "  -b, --bucket <BUCKET>  Bucket to read from (default: from "
      ++ "config)",
    "  -o, --org <ORG>        Organization (default: from config)",
    "  -B, --bind <BINDINGS>  Named constants in name=value format",
    "  -c, --config <CONFIG>  Config file (default: search the "
      ++ "standard locations)",
    "      --json             Print the JSON request body instead "
      ++ "of the Flux text",
    "  -h, --help             Print help"]

/- Help on the command that writes settings. -/
def configHelp : String :=
  textOf [
    "Generate default config file",
    "",
    "Usage: fluxlinq config [OPTIONS]",
    "",
    "Options:",
    "  -o, --output <OUTPUT>  Output path (default: stdout)",
    "  -c, --config <CONFIG>  Config file (default: search the "
      ++ "standard locations)",
    "  -h, --help             Print help"]

/- Help on the help. -/
def helpHelp : String :=
  textOf [
    "Print this message or the help of the given subcommand(s)",
    "",
    "Usage: fluxlinq help [COMMAND]...",
    "",
    "Arguments:",
    "  [COMMAND]...  Print help for the subcommand(s)"]

------------------------------------------------------------
-- Reading Arguments
------------------------------------------------------------

namespace Reading

/- The answer to a halt, where help shows a given text. -/
def ofHalt (help : String) : Halt → Reading
  | .misused => .misused
  | .help => .show help
  | .version => .show versionText

/-
  A command from its matches.  What was left open in front of
  the command is settled last, and the nearest file with
  settings counts.
-/
def ofMatches
    (help : String)
    (front : Front)
    (command? : Matches → Option Command) :
    Except Halt Matches → Reading
  | .error halt => ofHalt help halt
  | .ok found =>
      match command? found, front.settle with
      | some command, .ok before =>
          .run ⟨command,
            (found.value? "config").or (before.value? "config")⟩
      | _, _ => .misused

/- Drafting takes one plain argument, the query. -/
def drafting? (m : Matches) : Option Command :=
  match m.plain with
  | [query] =>
      some (.draft
        { query
          bucket? := m.value? "bucket"
          org? := m.value? "org"
          bindings := m.valuesOf "bind"
          asJson := m.switches.contains "json" })
  | _ => none

/- Writing settings takes no plain argument. -/
def writing? (m : Matches) : Option Command :=
  match m.plain with
  | [] => some (.config (m.value? "output"))
  | _ => none

/- Help on a command by its name. -/
def helpOn : List String → Reading
  | [] => .show rootHelp
  | ["translate"] => .show draftHelp
  | ["config"] => .show configHelp
  | ["help"] => .show helpHelp
  | _ => .misused

/- What the arguments ask for. -/
def ofArguments (args : List String) : Reading :=
  match Front.split rootOptions {} args with
  | .error halt => ofHalt rootHelp halt
  | .ok (front, name, rest) =>
      match name with
      | "translate" =>
          ofMatches draftHelp front drafting?
            (Matches.scan draftOptions 1 none false {} rest)
      | "config" =>
          ofMatches configHelp front writing?
            (Matches.scan configOptions 0 none false {} rest)
      | "help" => helpOn rest
      | _ => .misused

end Reading

end TypedFlux
