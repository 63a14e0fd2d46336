import TypedFlux.Command.Usage
import TypedFlux.Draft
import TypedFlux.Settings
import TypedFlux.Syntax.Resolution

/-
  Carrying out commands.

  Key definitions include:
    * `readBinding`
    * `Logging.threshold`
    * `CommandError`
    * `Report`
    * `Invocation.run`
-/

namespace TypedFlux

------------------------------------------------------------
-- Errors
------------------------------------------------------------

/- Why a command fails. -/
inductive CommandError where
  | settings (path : String) (cause : Settings.LoadError)
  | logFile (path : String) (cause : FileError)
  | binding (text : String)
  | namelessBinding (text : String)
  | query (cause : QueryError)
  | output (cause : FileError)

namespace CommandError

/- A failure and what caused it. -/
def caused (failure cause : String) : String :=
  failure ++ "\n\nCaused by:\n    " ++ cause

/- The failure in words. -/
def message : CommandError → String
  | .settings path cause =>
      caused ("loading config " ++ Text.quoted path)
        cause.message
  | .logFile path cause =>
      caused ("opening log file " ++ path) cause.message
  | .binding text =>
      "invalid binding '" ++ text ++ "', expected name=value"
  | .namelessBinding text =>
      "invalid binding '" ++ text ++ "', empty name"
  | .query cause => cause.message
  | .output cause => cause.message

end CommandError

------------------------------------------------------------
-- Bindings
------------------------------------------------------------

/- The text between double quotes. -/
def unquote? : List Char → Option (List Char)
  | '\x22' :: rest =>
      if rest.getLast? = some '\x22' then some rest.dropLast
      else none
  | _ => none

/-
  The constant that a text stands for: a truth value, a number
  or a time where it reads as one, otherwise a string.  What is
  quoted is a string.
-/
def bindingValue (text : String) : Value :=
  match unquote? text.toList with
  | some content => .string (String.ofList content)
  | none =>
      if text = "true" then .bool true
      else if text = "false" then .bool false
      else
        match Numeral.int64? text with
        | some n => .int n
        | none =>
            match Numeral.binary64? text with
            | some x => .float x
            | none =>
                match Timestamp.read? text with
                | some t => .time t
                | none => .string text

/- A name and a constant. -/
def readBinding
    (text : String) : Except CommandError (String × Value) :=
  match splitEquals text.toList with
  | (_, none) => .error (.binding text)
  | (name, some value) =>
      match Text.trimChars name with
      | [] => .error (.namelessBinding text)
      | name =>
          .ok (String.ofList name,
            bindingValue (String.ofList value))

/- Bind constants one after the other. -/
def bindAll
    (reader : QueryReader) :
    List String → Except CommandError QueryReader
  | [] => .ok reader
  | text :: rest => do
      let (name, value) ← readBinding text
      bindAll (reader.bind name value) rest

------------------------------------------------------------
-- Logs
------------------------------------------------------------

/- The least severity that a level lets through, if any. -/
def Logging.threshold (level : String) : Option Severity :=
  match level.toLower with
  | "off" | "0" => none
  | "error" | "1" => some .error
  | "warn" | "2" => some .warn
  | "info" | "3" => some .info
  | "debug" | "4" => some .debug
  | "trace" | "5" | "" => some .trace
  | _ => some .error

/- An entry of a log. -/
structure LogEntry where
  severity : Severity
  text : String

/- The entry of an event. -/
def LogEntry.ofEvent (e : Event) : LogEntry :=
  ⟨e.severity,
    " ".intercalate (e.message
      :: e.fields.map fun (name, value) => name ++ "=" ++ value)⟩

/- The text of the entries that a level lets through. -/
def Logging.text
    (logging : Logging)
    (entries : List LogEntry) : String :=
  match threshold logging.level with
  | none => ""
  | some least =>
      String.join
        ((entries.filter (least.rank ≤ ·.severity.rank)).map
          fun entry =>
            entry.severity.name ++ " " ++ entry.text ++ "\n")

------------------------------------------------------------
-- Queries
------------------------------------------------------------

/- The result of a command: its output, or why it failed. -/
abbrev Result :=
  Except CommandError String

/- A result and what was logged on the way. -/
structure Logged where
  entries : List LogEntry
  result : Result

/- What a script is printed as. -/
def Script.output
    (script : Script)
    (asJson : Bool) : String :=
  (if asJson then script.request else script.text) ++ "\n"

/- Read and draft a query. -/
def DraftRequest.draft
    (what : DraftRequest)
    (settings : Settings) : Logged :=
  match bindAll {} what.bindings with
  | .error e => ⟨[], .error e⟩
  | .ok reader =>
      match reader.read what.query with
      | .error e => ⟨[], .error (.query e)⟩
      | .ok q =>
          let resolver := (settings.mapping q.entity).resolver
          let bucket := what.bucket?.getD settings.source.bucket
          let (result, d) :=
            (Draft.new bucket).addQuery resolver q
          let entries := d.scope.journal.map LogEntry.ofEvent
          match result with
          | .error e => ⟨entries, .error (.query e)⟩
          | .ok () =>
              ⟨entries
                  ++ [⟨.debug, "generated query"⟩,
                    ⟨.info, "translated query"⟩],
                .ok (d.script.output what.asJson)⟩

------------------------------------------------------------
-- Commands
------------------------------------------------------------

/- What a command leaves to the screen: its result and its log. -/
structure Report where
  result : Result
  log : String := ""

variable {m : Type → Type} [Monad m]

/- The settings of a command and what to log about them. -/
def chooseSettings
    (files : FileAccess m)
    (env : Settings.Environment) :
    Option String →
      m (Except CommandError (Settings × List LogEntry))
  | some path => do
      match ← Settings.loadOverridden files env path with
      | .error e => return .error (.settings path e)
      | .ok settings =>
          return .ok (settings, [loaded path])
  | none => do
      let found ← Settings.discover files env
      let skipped : List LogEntry := found.skipped.map fun e =>
        ⟨.warn, "Skipped config file: " ++ e.message⟩
      let from? : LogEntry := match found.path? with
        | some path => loaded path
        | none =>
            ⟨.info, "Using default config with environment overrides"⟩
      return .ok (found.settings, skipped ++ [from?])
where
  loaded (path : String) : LogEntry :=
    ⟨.info, "Loaded config from " ++ Text.quoted path⟩

/- Write a log to its file, or leave it to the screen. -/
def writeLog
    (files : FileAccess m)
    (logging : Logging)
    (entries : List LogEntry) : m (Except FileError String) := do
  let text := logging.text entries
  match logging.file? with
  | none => return .ok text
  | some path =>
      match ← files.append path text with
      | .ok () => return .ok ""
      | .error e => return .error e

/- Draft the script of a query and write the log. -/
def runDraft
    (files : FileAccess m)
    (env : Settings.Environment)
    (settings? : Option String)
    (what : DraftRequest) : m Report := do
  match ← chooseSettings files env settings? with
  | .error e => return { result := .error e }
  | .ok (settings, entries) =>
      let logged := what.draft settings
      match ← writeLog files settings.logging
          (entries ++ logged.entries) with
      | .ok log => return ⟨logged.result, log⟩
      | .error e =>
          return { result := .error (.logFile
            (settings.logging.file?.getD "") e) }

/- Write example settings to a file. -/
def writeExample
    (files : FileAccess m)
    (path : String) : m Result := do
  match ← files.createDirectories (Path.parents path) with
  | .error e => return .error (.output e)
  | .ok () =>
      match ← files.write path Settings.exampleFile with
      | .error e => return .error (.output e)
      | .ok () =>
          return .ok
            ("Config written to " ++ Text.quoted path ++ "\n")

/- Carry out a command. -/
def Invocation.run
    (files : FileAccess m)
    (env : Settings.Environment)
    (invocation : Invocation) : m Report := do
  match invocation.command with
  | .draft what =>
      runDraft files env invocation.settings? what
  | .config none => return { result := .ok Settings.exampleFile }
  | .config (some path) =>
      let result ← writeExample files path
      return { result }

end TypedFlux
