import TypedFlux.Text.Quoted

/-
  Readers: functions that take a piece off the front of a
  text.

  A reader answers with a value and the unread rest, or with a
  fault.  A miss lets another alternative try the same text.
  A cut is final: no alternative and no repetition goes on
  after it.

  Key definitions include:
    * `Rule`, `Fault`, `Reply`
    * `Reader`
    * `Reader.orElse`
    * `Reader.optional`
    * `Reader.many`
    * `Reader.sepBy`, `Reader.sepBy1`
-/

namespace TypedFlux

------------------------------------------------------------
-- Replies
------------------------------------------------------------

/- What a reader was looking for. -/
inductive Rule where
  | word
  | boundary
  | layout
  | name
  | symbol
  | digit
  | conversion
  | progress
  | nesting
deriving DecidableEq, Repr

/- The name under which a rule is reported. -/
def Rule.label : Rule → String
  | .word => "Tag"
  | .boundary => "Not"
  | .layout => "MultiSpace"
  | .name => "TakeWhile1"
  | .symbol => "Char"
  | .digit => "Digit"
  | .conversion => "MapRes"
  | .progress => "Many0"
  | .nesting => "TooLarge"

/- The rule that was not met and the text it stood before. -/
structure Fault where
  rest : List Char
  rule : Rule
deriving DecidableEq

/- The text before the fault and the label of its rule. -/
def Fault.diagnostic (f : Fault) : String :=
  "Error \x7b input: " ++ Text.quoted (String.ofList f.rest)
    ++ ", code: " ++ f.rule.label ++ " \x7d"

/- The answer of a reader. -/
inductive Reply (α : Type) where
  | ok (value : α) (rest : List Char)
  | miss (fault : Fault)
  | cut (fault : Fault)

namespace Reply

/- Change the value of an answer. -/
def map
    {α β : Type}
    (f : α → β) : Reply α → Reply β
  | .ok value rest => .ok (f value) rest
  | .miss fault => .miss fault
  | .cut fault => .cut fault

end Reply

/- A reader of values. -/
def Reader (α : Type) : Type :=
  List Char → Reply α

namespace Reader

variable {α β : Type}

------------------------------------------------------------
-- Sequence and Choice
------------------------------------------------------------

/- Read nothing. -/
def pure (value : α) : Reader α :=
  fun s => .ok value s

/- Go on with what the first reader left. -/
def bind
    (p : Reader α)
    (next : α → Reader β) : Reader β :=
  fun s =>
    match p s with
    | .ok value rest => next value rest
    | .miss fault => .miss fault
    | .cut fault => .cut fault

instance : Monad Reader where
  pure := pure
  bind := bind

/- Miss by a rule. -/
def missing (rule : Rule) : Reader α :=
  fun s => .miss ⟨s, rule⟩

/- Try the second reader where the first one misses. -/
def orElse
    (p q : Reader α) : Reader α :=
  fun s =>
    match p s with
    | .miss _ => q s
    | reply => reply

instance : OrElse (Reader α) where
  orElse p q := orElse p (q ())

/- Read a value or, where that misses, nothing. -/
def optional (p : Reader α) : Reader (Option α) :=
  fun s =>
    match p s with
    | .ok value rest => .ok (some value) rest
    | .miss _ => .ok none s
    | .cut fault => .cut fault

/-
  Convert what was read.  A value without a conversion is a
  miss before everything that was read.
-/
def convert
    (p : Reader α)
    (f : α → Option β) : Reader β :=
  fun s =>
    match p s with
    | .ok value rest =>
        match f value with
        | some converted => .ok converted rest
        | none => .miss ⟨s, .conversion⟩
    | .miss fault => .miss fault
    | .cut fault => .cut fault

------------------------------------------------------------
-- Repetition
------------------------------------------------------------

/-
  Read as many values as there are.  A value that takes no
  text would repeat forever and is refused.
-/
def many
    (p : Reader α)
    (s : List Char) : Reply (List α) :=
  match p s with
  | .ok value rest =>
      if rest.length < s.length then
        (many p rest).map (value :: ·)
      else .miss ⟨s, .progress⟩
  | .miss _ => .ok [] s
  | .cut fault => .cut fault
termination_by s.length

/-
  Read the values behind a first one, each after a separator.
  A separator without a value behind it is left unread.
-/
def sepTail
    (item : Reader α)
    (separator : Reader Unit)
    (s : List Char) : Reply (List α) :=
  match separator s with
  | .ok _ between =>
      match item between with
      | .ok value rest =>
          if rest.length < s.length then
            (sepTail item separator rest).map (value :: ·)
          else .miss ⟨s, .progress⟩
      | .miss _ => .ok [] s
      | .cut fault => .cut fault
  | .miss _ => .ok [] s
  | .cut fault => .cut fault
termination_by s.length

/- Read at least one value, with separators between. -/
def sepBy1
    (item : Reader α)
    (separator : Reader Unit) : Reader (List α) :=
  fun s =>
    match item s with
    | .ok value rest =>
        (sepTail item separator rest).map (value :: ·)
    | .miss fault => .miss fault
    | .cut fault => .cut fault

/- Read any number of values, with separators between. -/
def sepBy
    (item : Reader α)
    (separator : Reader Unit) : Reader (List α) :=
  fun s =>
    match item s with
    | .ok value rest =>
        (sepTail item separator rest).map (value :: ·)
    | .miss _ => .ok [] s
    | .cut fault => .cut fault

end Reader

end TypedFlux
