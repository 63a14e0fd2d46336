import TypedFlux.Query

/-
  The methods that may follow a query.

  A registry maps the name of a method to a factory, which
  makes a result operator of the call's arguments.

  Key definitions include:
    * `Factory`
    * `Registry`
    * `Registry.builtin`, `Registry.custom`, `Registry.full`
    * `Registry.create`
-/

namespace TypedFlux

------------------------------------------------------------
-- Factories
------------------------------------------------------------

/- Makes an operator of the arguments of a call. -/
abbrev Factory :=
  List Expr → Except QueryError ResultOperator

namespace Factory

/- An operator with one argument. -/
def counted
    (method : String)
    (make : Expr → ResultOperator) : Factory
  | [count] => .ok (make count)
  | args => .error (.parse (.oneArgument method args.length))

/- An operator without arguments. -/
def plain
    (method : String)
    (op : ResultOperator) : Factory
  | [] => .ok op
  | args => .error (.parse (.noArgument method args.length))

end Factory

------------------------------------------------------------
-- Registries
------------------------------------------------------------

/- Factories by method, each method at most once. -/
structure Registry where
  entries : List (String × Factory)

namespace Registry

/- No method at all. -/
def empty : Registry :=
  ⟨[]⟩

/- The factory of a method. -/
def find?
    (r : Registry)
    (method : String) : Option Factory :=
  r.entries.lookup method

/- Add a method, or replace the one of that name. -/
def register
    (r : Registry)
    (method : String)
    (factory : Factory) : Registry :=
  ⟨r.entries.filter (·.1 != method) ++ [(method, factory)]⟩

/- Add an operator without arguments under its method. -/
def addPlain
    (r : Registry)
    (op : ResultOperator) : Registry :=
  r.register op.method (Factory.plain op.method op)

/- Add the methods of every sequence. -/
def addBuiltin (r : Registry) : Registry :=
  let r := r.register "Take" (Factory.counted "Take" .take)
  let r := r.register "Skip" (Factory.counted "Skip" .skip)
  ResultOperator.plain.foldl addPlain r

/- Add the method beyond those of every sequence. -/
def addCustom (r : Registry) : Registry :=
  r.register "TakeLast" (Factory.counted "TakeLast" .takeLast)

/- The methods of every sequence. -/
def builtin : Registry :=
  empty.addBuiltin

/- The added methods alone. -/
def custom : Registry :=
  empty.addCustom

/- All methods. -/
def full : Registry :=
  builtin.addCustom

/- Whether a method is known. -/
def isRegistered
    (r : Registry)
    (method : String) : Bool :=
  (r.find? method).isSome

/- The names of all methods in order. -/
def methods (r : Registry) : List String :=
  (r.entries.map Prod.fst).mergeSort fun a b => !(b < a)

/- The names of all methods as a diagnostic. -/
def diagnostic (r : Registry) : String :=
  "NodeTypeRegistry \x7b methods: ["
    ++ ", ".intercalate (r.methods.map Text.quoted) ++ "] \x7d"

/- The operator of a call. -/
def create
    (r : Registry)
    (method : String)
    (args : List Expr) : Except QueryError ResultOperator :=
  match r.find? method with
  | some factory => factory args
  | none => .error (.parse (.unknownOperator method))

end Registry

end TypedFlux
