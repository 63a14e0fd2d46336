import TypedFlux.Error
import TypedFlux.Flux.Journal
import TypedFlux.Flux.Variables

/-
  The names of a script while it is drafted.

  What was bound stays bound when a later step fails, so a walk
  over a query returns its last scope in either case.

  Key definitions include:
    * `Scope`
    * `Walk`
    * `Walk.bind`
    * `Walk.markTag`
-/

namespace TypedFlux

/-
  Variables, whether the script uses the package `strings`, and
  the events so far.
-/
structure Scope where
  options : Variables := []
  usesStrings : Bool := false
  journal : List Event := []

namespace Scope

/- Bind a constant to the next name. -/
def bind
    (s : Scope)
    (value : Value) : Scope :=
  { s with
    options := s.options.add value
    journal := s.journal
      ++ [.bound s.options.nextName value.text] }

/- Note that a variable is compared with a tag. -/
def markTag
    (s : Scope)
    (name : String) : Scope :=
  { s with options := s.options.markTag name }

end Scope

/- A step that may fail and changes the scope in any case. -/
abbrev Walk :=
  ExceptT QueryError (StateM Scope)

namespace Walk

/- Bind a constant and return its name. -/
def bind (value : Value) : Walk String := do
  let s ← get
  set (s.bind value)
  return s.options.nextName

/- Note that a variable is compared with a tag. -/
def markTag (name : String) : Walk Unit :=
  modify (·.markTag name)

/- Note that the script uses the package `strings`. -/
def useStrings : Walk Unit :=
  modify fun s => { s with usesStrings := true }

end Walk

end TypedFlux
