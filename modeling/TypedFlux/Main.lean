import TypedFlux.Command.Run

/-
  The program: it reads its arguments and the environment,
  carries out the command and prints the result.

  Key definitions include:
    * `main`
-/

namespace TypedFlux

namespace Main

/- The reason of a failed operation on files. -/
def fileError : IO.Error → FileError
  | .noFileOrDirectory .. => .notFound
  | .alreadyExists .. => .alreadyExists
  | e => .other (toString e)

/- Carry out an operation on files. -/
def attempt
    {α : Type}
    (action : IO α) : IO (Except FileError α) := do
  match ← action.toBaseIO with
  | .ok value => return .ok value
  | .error e => return .error (fileError e)

/- The files of the machine. -/
def files : FileAccess IO where
  isPresent := fun path => do
    let opened ← attempt (IO.FS.Handle.mk path .read)
    return opened.isOk
  read := fun path => attempt (IO.FS.readFile path)
  createDirectories := fun paths =>
    match paths with
    | [] => return .ok ()
    | path :: _ => attempt (IO.FS.createDirAll path)
  write := fun path content =>
    attempt (IO.FS.writeFile path content)
  append := fun path content =>
    attempt do
      let handle ← IO.FS.Handle.mk path .append
      handle.putStr content

/- The variables that the program looks at. -/
def variableNames : List String :=
  ["FLUXLINQ_BUCKET", "FLUXLINQ_ORG", "FLUXLINQ_LOG_LEVEL",
    "FLUXLINQ_LOG_FORMAT"]

/- The directory for files with settings. -/
def configHome? : IO (Option String) := do
  match ← IO.getEnv "XDG_CONFIG_HOME" with
  | some path =>
      if Path.isAbsolute path then return some path
      else homeConfig
  | none => homeConfig
where
  homeConfig : IO (Option String) := do
    return (← IO.getEnv "HOME").map (· ++ "/.config")

/- The environment of the process. -/
def environment : IO Settings.Environment := do
  let values ← variableNames.mapM fun name => do
    return (name, ← IO.getEnv name)
  return {
    get? := fun name => (values.lookup name).join
    configHome? := ← configHome? }

/- Print a report; the status tells whether the command failed. -/
def print (report : Report) : IO UInt32 := do
  IO.eprint report.log
  match report.result with
  | .ok output =>
      IO.print output
      return 0
  | .error e =>
      IO.eprintln ("Error: " ++ e.message)
      return 1

end Main

end TypedFlux

/- Carry out the command that the arguments ask for. -/
def main (args : List String) : IO UInt32 := do
  match TypedFlux.Reading.ofArguments args with
  | .run invocation =>
      let report ← invocation.run TypedFlux.Main.files
        (← TypedFlux.Main.environment)
      TypedFlux.Main.print report
  | .show text =>
      IO.print text
      return 0
  | .misused =>
      IO.eprint TypedFlux.rootHelp
      return 2
