import TypedFlux.Column
import TypedFlux.Files
import TypedFlux.Text.Quoted
import TypedFlux.Toml.Document

/-
  Settings of the program.

  They come from a file, and some of them may be given by
  variables of the environment instead.

  Key definitions include:
    * `Settings`
    * `Settings.ofToml?`
    * `Settings.override`
    * `Settings.load`
    * `Settings.discover`
    * `Settings.exampleFile`
-/

namespace TypedFlux

------------------------------------------------------------
-- Settings
------------------------------------------------------------

/- Where queries read from. -/
structure Source where
  bucket : String := "my-bucket"
  org : String := "my-org"

/- What is logged, how and where to. -/
structure Logging where
  level : String := "info"
  format : String := "pretty"
  file? : Option String := none

/- All settings. -/
structure Settings where
  source : Source := {}
  logging : Logging := {}
  entities : List EntityMapping := []

namespace Settings

------------------------------------------------------------
-- Reading Parts of a File
------------------------------------------------------------

/-
  The part of a record under a name.  A record may be written as
  a table or as an array of its parts in order; a time is a
  record without parts.
-/
def part?
    (name : String)
    (position : Nat) : Toml → Option (Option Toml)
  | .table _ entries => some (entries.lookup name)
  | .array items => some items[position]?
  | .tables items =>
      some (items[position]?.map (.table .header))
  | .time _ => some none
  | _ => none

/- A string. -/
def string? : Toml → Option String
  | .string s => some s
  | _ => none

/- A part that may be missing. -/
def partOr
    {α : Type}
    (read : Toml → Option α)
    (absent : α) : Option Toml → Option α
  | some t => read t
  | none => some absent

/- A string that may be missing. -/
def stringOr (absent : String) : Option Toml → Option String :=
  partOr string? absent

/- An optional string. -/
def optionalString? : Option Toml → Option (Option String) :=
  partOr (fun t => (string? t).map some) none

/- The source. -/
def readSource (t : Toml) : Option Source := do
  let bucket ← stringOr "my-bucket" (← part? "bucket" 0 t)
  let org ← stringOr "my-org" (← part? "org" 1 t)
  return ⟨bucket, org⟩

/- Whether a record is written as an array. -/
def isList : Toml → Bool
  | .array _ | .tables _ => true
  | _ => false

/- The logging; an array has to name a file. -/
def readLogging (t : Toml) : Option Logging := do
  let level ← stringOr "info" (← part? "level" 0 t)
  let format ← stringOr "pretty" (← part? "format" 1 t)
  let file ← part? "file" 2 t
  if isList t && file.isNone then none
  else return ⟨level, format, ← optionalString? file⟩

/- Whether a value is an array or a table without content. -/
def isHollow : Toml → Bool
  | .array [] | .tables [] | .table _ [] => true
  | _ => false

/-
  A role: its name, or a table whose only entry is an empty
  value under its name.
-/
def readRole : Toml → Option Role
  | .string s => Role.ofName? s
  | .table _ [(name, content)] =>
      if isHollow content then Role.ofName? name else none
  | _ => none

/- A declared member. -/
def readMember (t : Toml) : Option MemberMapping := do
  let role ← readRole (← (← part? "kind" 0 t))
  let column ← optionalString? (← part? "column" 1 t)
  return ⟨role, column⟩

/- Declared members by name. -/
def readMembers : Toml → Option (List (String × MemberMapping))
  | .table _ entries =>
      entries.mapM fun (name, t) => do return (name, ← readMember t)
  | _ => none

/- A declared entity. -/
def readEntity (t : Toml) : Option EntityMapping := do
  let name ← string? (← (← part? "name" 0 t))
  let members ← partOr readMembers [] (← part? "members" 1 t)
  return ⟨name, members⟩

/- Declared entities. -/
def readEntities : Toml → Option (List EntityMapping)
  | .array items => items.mapM readEntity
  | .tables items => items.mapM fun t => readEntity (.table .header t)
  | _ => none

/- The settings of a document; what is unknown is ignored. -/
def ofToml? (t : Toml) : Option Settings := do
  let source ← partOr readSource {} (← part? "source" 0 t)
  let logging ← partOr readLogging {} (← part? "logging" 1 t)
  let entities ← partOr readEntities [] (← part? "entities" 2 t)
  return ⟨source, logging, entities⟩

/- The settings of a text. -/
def ofText? (s : String) : Option Settings := do
  ofToml? (← Toml.read? s)

------------------------------------------------------------
-- Environment
------------------------------------------------------------

/-
  The environment: its variables, and the directory for files
  with settings.
-/
structure Environment where
  get? : String → Option String
  configHome? : Option String

/- Take the variables of the environment where they are given. -/
def override
    (s : Settings)
    (env : Environment) : Settings :=
  { s with
    source :=
      { bucket :=
          (env.get? "FLUXLINQ_BUCKET").getD s.source.bucket
        org := (env.get? "FLUXLINQ_ORG").getD s.source.org }
    logging :=
      { s.logging with
        level :=
          (env.get? "FLUXLINQ_LOG_LEVEL").getD
            s.logging.level
        format :=
          (env.get? "FLUXLINQ_LOG_FORMAT").getD
            s.logging.format } }

/- The settings without any file. -/
def ofEnvironment (env : Environment) : Settings :=
  override {} env

------------------------------------------------------------
-- Files
------------------------------------------------------------

/- Why a file gives no settings. -/
inductive LoadError where
  | unreadable (path : String) (cause : FileError)
  | malformed (path : String)

/- The reason in words. -/
def LoadError.message : LoadError → String
  | .unreadable path cause =>
      "Failed to read config file " ++ Text.quoted path ++ ": "
        ++ cause.message
  | .malformed path =>
      "Failed to parse config file " ++ Text.quoted path ++ ":"

variable {m : Type → Type} [Monad m]

/- The settings of a file. -/
def load
    (files : FileAccess m)
    (path : String) : m (Except LoadError Settings) := do
  match ← files.read path with
  | .error cause => return .error (.unreadable path cause)
  | .ok text =>
      match ofText? text with
      | some s => return .ok s
      | none => return .error (.malformed path)

/- The settings of a file and of the environment. -/
def loadOverridden
    (files : FileAccess m)
    (env : Environment)
    (path : String) : m (Except LoadError Settings) := do
  let loaded ← load files path
  return loaded.map (·.override env)

/- Where files are looked for, in this order. -/
def defaultPaths (env : Environment) : List String :=
  (env.configHome?.map (· ++ "/fluxlinq/config.toml")).toList
    ++ ["/etc/fluxlinq/config.toml", "./config.toml"]

/-
  What a search found: settings, the file that they come from,
  and files that were found but could not be used.
-/
structure Discovery where
  settings : Settings
  path? : Option String
  skipped : List LoadError

/- Search for the first file that can be used. -/
def search
    (files : FileAccess m)
    (env : Environment) : List String → m Discovery
  | [] => return ⟨ofEnvironment env, none, []⟩
  | path :: rest => do
      if ← files.isPresent path then
        match ← loadOverridden files env path with
        | .ok settings => return ⟨settings, some path, []⟩
        | .error e =>
            let found ← search files env rest
            return { found with skipped := e :: found.skipped }
      else search files env rest

/- Search the usual places. -/
def discover
    (files : FileAccess m)
    (env : Environment) : m Discovery :=
  search files env (defaultPaths env)

------------------------------------------------------------
-- Entities
------------------------------------------------------------

/- The declaration of an entity. -/
def entity?
    (s : Settings)
    (name : String) : Option EntityMapping :=
  s.entities.find? (·.name = name)

/- The mapping of an entity, which may be without members. -/
def mapping
    (s : Settings)
    (name : String) : EntityMapping :=
  (s.entity? name).getD (EntityMapping.empty name)

------------------------------------------------------------
-- Example
------------------------------------------------------------

/- An example of a file with settings. -/
def exampleFile : String :=
  "\n".intercalate [
    "# fluxlinq Configuration",
    "#",
    "# Environment variables override these settings:",
    "# - FLUXLINQ_BUCKET",
    "# - FLUXLINQ_ORG",
    "# - FLUXLINQ_LOG_LEVEL",
    "# - FLUXLINQ_LOG_FORMAT",
    "",
    "[source]",
    "# Bucket queries read from",
    "bucket = \"my-bucket\"",
    "",
    "# Organization queries run under",
    "org = \"my-org\"",
    "",
    "[logging]",
    "# Log level: trace, debug, info, warn, error",
    "level = \"info\"",
    "",
    "# Log format: pretty (for development) or json (for production)",
    "format = \"pretty\"",
    "",
    "# Optional log file path",
    "# file = \"/var/log/fluxlinq/fluxlinq.log\"",
    "",
    "# Entity mappings. Members without a declaration are fields named after",
    "# the member.",
    "[[entities]]",
    "name = \"sensor\"",
    "",
    "[entities.members.timestamp]",
    "kind = \"timestamp\"",
    "",
    "[entities.members.sensor_type]",
    "kind = \"measurement\"",
    "",
    "[entities.members.device_id]",
    "kind = \"tag\"",
    "column = \"deviceId\"",
    ""]

end Settings

end TypedFlux
