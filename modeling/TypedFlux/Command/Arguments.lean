/-
  Arguments of a command line.

  Options have a long name and maybe a letter.  A value stands
  in the same argument or in the next one, unless that begins
  with a dash.

  Key definitions include:
    * `CommandOption`
    * `Argument`
    * `Matches`
    * `Matches.scan`
    * `Front`
    * `Front.split`
-/

namespace TypedFlux

------------------------------------------------------------
-- Options
------------------------------------------------------------

/-
  What an option takes or does: some text, a path, any number of
  texts, nothing, or an answer in place of the program.
-/
inductive OptionKind where
  | text
  | path
  | texts
  | switch
  | help
  | version
deriving DecidableEq, Repr

/- An option of a command. -/
structure CommandOption where
  letter? : Option Char
  long : String
  kind : OptionKind
deriving DecidableEq

/- Why a command line is not carried out. -/
inductive Halt where
  | misused
  | help
  | version
deriving DecidableEq, Repr

------------------------------------------------------------
-- Arguments
------------------------------------------------------------

/- The form of an argument. -/
inductive Argument where
  | long (name : String) (value? : Option String)
  | letters (letters : List Char)
  | divider
  | plain (text : String)

/- The text before the first sign of equality, and behind it. -/
def splitEquals : List Char → List Char × Option (List Char)
  | [] => ([], none)
  | '=' :: rest => ([], some rest)
  | c :: rest =>
      let (name, value?) := splitEquals rest
      (c :: name, value?)

/- The form of an argument.  A dash alone is a plain one. -/
def Argument.ofText (s : String) : Argument :=
  match s.toList with
  | ['-', '-'] => .divider
  | '-' :: '-' :: rest =>
      let (name, value?) := splitEquals rest
      .long (String.ofList name) (value?.map String.ofList)
  | '-' :: c :: rest => .letters (c :: rest)
  | _ => .plain s

------------------------------------------------------------
-- Matches
------------------------------------------------------------

/-
  What was found so far: values by option, switches, and plain
  arguments.
-/
structure Matches where
  values : List (String × String) := []
  switches : List String := []
  plain : List String := []

namespace Matches

/- The only value of an option. -/
def value?
    (m : Matches)
    (long : String) : Option String :=
  m.values.lookup long

/- All values of an option. -/
def valuesOf
    (m : Matches)
    (long : String) : List String :=
  (m.values.filter (·.1 == long)).map Prod.snd

/- Add a value.  Paths are not empty, and most options are given once. -/
def addValue
    (m : Matches)
    (option : CommandOption)
    (value : String) : Except Halt Matches :=
  let again := (m.value? option.long).isSome
  if (option.kind = .path && value.isEmpty)
      || (option.kind ≠ .texts && again) then
    .error .misused
  else
    .ok { m with values := m.values ++ [(option.long, value)] }

/- Add a switch, which is given once. -/
def addSwitch
    (m : Matches)
    (option : CommandOption) : Except Halt Matches :=
  if m.switches.contains option.long then .error .misused
  else .ok { m with switches := m.switches ++ [option.long] }

/- Add a plain argument, of which there are only so many. -/
def addPlain
    (m : Matches)
    (capacity : Nat)
    (text : String) : Except Halt Matches :=
  if m.plain.length < capacity then
    .ok { m with plain := m.plain ++ [text] }
  else .error .misused

/-
  An option without a value so far: done, or waiting for one.
-/
def begin
    (m : Matches)
    (option : CommandOption) :
    Except Halt (Matches × Option CommandOption) :=
  match option.kind with
  | .help => .error .help
  | .version => .error .version
  | .switch => (m.addSwitch option).map (·, none)
  | .text | .path | .texts => .ok (m, some option)

/- Whether an option takes a value. -/
def takesValue (option : CommandOption) : Bool :=
  match option.kind with
  | .text | .path | .texts => true
  | .switch | .help | .version => false

/- An option by its long name, maybe with a value. -/
def takeLong
    (options : List CommandOption)
    (name : String)
    (value? : Option String)
    (m : Matches) :
    Except Halt (Matches × Option CommandOption) :=
  match options.find? (·.long == name) with
  | none => .error .misused
  | some option =>
      match value? with
      | none => m.begin option
      | some value =>
          if takesValue option then
            (m.addValue option value).map (·, none)
          else .error .misused

/- The value behind a letter, without a sign of equality. -/
def attached : List Char → String
  | '=' :: rest => String.ofList rest
  | rest => String.ofList rest

/- Options by their letters; a value ends the row. -/
def takeLetters
    (options : List CommandOption) :
    List Char → Matches →
      Except Halt (Matches × Option CommandOption)
  | [], m => .ok (m, none)
  | c :: rest, m =>
      match options.find? (·.letter? == some c) with
      | none => .error .misused
      | some option =>
          if takesValue option then
            if rest.isEmpty then m.begin option
            else (m.addValue option (attached rest)).map (·, none)
          else do
            let (m, _) ← m.begin option
            takeLetters options rest m

/-
  Match all arguments.  `pending` waits for its value, and all
  arguments behind the divider are plain.
-/
def scan
    (options : List CommandOption)
    (capacity : Nat)
    (pending : Option CommandOption)
    (divided : Bool)
    (m : Matches) : List String → Except Halt Matches
  | [] =>
      match pending with
      | some _ => .error .misused
      | none => .ok m
  | arg :: rest =>
      if divided then do
        let m ← m.addPlain capacity arg
        scan options capacity pending true m rest
      else
        match pending, Argument.ofText arg with
        | some option, .plain value => do
            let m ← m.addValue option value
            scan options capacity none false m rest
        | some _, _ => .error .misused
        | none, .divider => scan options capacity none true m rest
        | none, .long name value? => do
            let (m, pending) ← takeLong options name value? m
            scan options capacity pending false m rest
        | none, .letters letters => do
            let (m, pending) ← takeLetters options letters m
            scan options capacity pending false m rest
        | none, .plain text => do
            let m ← m.addPlain capacity text
            scan options capacity none false m rest

end Matches

------------------------------------------------------------
-- In Front of a Command
------------------------------------------------------------

/- What the last option left open. -/
inductive Pending where
  | nothing
  | value (option : CommandOption)
  | check (option : CommandOption) (value : String)

/-
  The arguments in front of a command.  A value in an argument of
  its own is checked only when the next option comes, or after
  the command.
-/
structure Front where
  found : Matches := {}
  pending : Pending := .nothing

namespace Front

/- Check what was left open. -/
def settle (f : Front) : Except Halt Matches :=
  match f.pending with
  | .nothing => .ok f.found
  | .value _ => .error .misused
  | .check option value => f.found.addValue option value

/- Go on behind an option that may wait for its value. -/
def ofOption : Matches × Option CommandOption → Front
  | (m, none) => ⟨m, .nothing⟩
  | (m, some option) => ⟨m, .value option⟩

/-
  Match arguments up to the name of a command.  The answer is
  what came before the name, the name, and what comes behind.
-/
def split
    (options : List CommandOption)
    (f : Front) :
    List String → Except Halt (Front × String × List String)
  | [] => .error .misused
  | arg :: rest =>
      match Argument.ofText arg with
      | .plain text =>
          match f.pending with
          | .value option =>
              split options ⟨f.found, .check option text⟩ rest
          | _ => .ok (f, text, rest)
      | .divider => .error .misused
      | .long name value? => do
          let m ← f.settle
          let next ← Matches.takeLong options name value? m
          split options (ofOption next) rest
      | .letters letters => do
          let m ← f.settle
          let next ← Matches.takeLetters options letters m
          split options (ofOption next) rest

end Front

end TypedFlux
