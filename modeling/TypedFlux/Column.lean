import TypedFlux.Value

/-
  The columns that hold the members of an entity.

  Key definitions include:
    * `Role`
    * `EntityMapping`
    * `Resolver`
    * `EntityMapping.resolver`
-/

namespace TypedFlux

------------------------------------------------------------
-- Roles
------------------------------------------------------------

/- What a member is in the data model of the store. -/
inductive Role where
  | measurement
  | timestamp
  | tag
  | field
deriving DecidableEq, Repr

namespace Role

/- The name of a role in mappings. -/
def name : Role → String
  | .measurement => "measurement"
  | .timestamp => "timestamp"
  | .tag => "tag"
  | .field => "field"

/- The name of a role in a diagnostic. -/
def diagnostic : Role → String
  | .measurement => "Measurement"
  | .timestamp => "Timestamp"
  | .tag => "Tag"
  | .field => "Field"

/- The role of a name. -/
def ofName? : String → Option Role
  | "measurement" => some .measurement
  | "timestamp" => some .timestamp
  | "tag" => some .tag
  | "field" => some .field
  | _ => none

end Role

------------------------------------------------------------
-- Declared Mappings
------------------------------------------------------------

/- A declared member; its column is by default its name. -/
structure MemberMapping where
  role : Role
  column? : Option String

/- The declared members of an entity, each at most once. -/
structure EntityMapping where
  name : String
  members : List (String × MemberMapping)

namespace EntityMapping

/- An entity without declared members. -/
def empty (name : String) : EntityMapping :=
  ⟨name, []⟩

/- The declaration of a member. -/
def member?
    (m : EntityMapping)
    (member : String) : Option MemberMapping :=
  m.members.lookup member

end EntityMapping

------------------------------------------------------------
-- Resolvers
------------------------------------------------------------

/-
  How members are found in the store.  `indexed` names the
  column of a member with a key.
-/
structure Resolver where
  role : String → Role
  column : String → String
  indexed : String → Value → String :=
    fun member key => column member ++ "_" ++ key.text

/-
  Members as declared; a member that is not declared is a
  field of its own name.
-/
def EntityMapping.resolver (m : EntityMapping) : Resolver where
  role := fun member =>
    match m.member? member with
    | some declared => declared.role
    | none => .field
  column := fun member =>
    match m.member? member with
    | some ⟨_, some column⟩ => column
    | _ => member

end TypedFlux
