import TypedFlux.Text.Quoted

/-
  Flux scripts and the requests that carry them.

  Key definitions include:
    * `Script`
    * `Script.text`
    * `Script.request`
-/

namespace TypedFlux

------------------------------------------------------------
-- Scripts
------------------------------------------------------------

/- The remarks that a reply should carry. -/
inductive Annotation where
  | datatype
  | group
  | default
deriving DecidableEq, Repr

/- The form of the reply. -/
structure Dialect where
  header : Bool := true
  delimiter : String := ","
  commentMark : String := "#"
  annotations : List Annotation := [.datatype, .group, .default]

/- A script: packages, options and a pipeline. -/
structure Script where
  imports : List String
  statements : List String
  query : String
  dialect : Dialect := {}

namespace Script

/- The lines in front of the pipeline. -/
def preamble (s : Script) : List String :=
  s.imports.map (fun package => "import \"" ++ package ++ "\"")
    ++ s.statements

/-
  The text of a script: one line for every import and option, an
  empty line after them, and the pipeline.
-/
def text (s : Script) : String :=
  match s.preamble with
  | [] => s.query
  | lines => "\n".intercalate (lines ++ ["", s.query])

end Script

------------------------------------------------------------
-- Requests
------------------------------------------------------------

namespace JsonText

/- A character within a string. -/
def escape (c : Char) : String :=
  if c = '\x22' then "\\\""
  else if c = '\x5c' then "\\\\"
  else if c = '\x08' then "\\b"
  else if c = '\x0c' then "\\f"
  else if c = '\n' then "\\n"
  else if c = '\r' then "\\r"
  else if c = '\t' then "\\t"
  else if c.toNat < 16 then "\\u000" ++ Text.hex c.toNat
  else if c.toNat < 32 then "\\u00" ++ Text.hex c.toNat
  else String.ofList [c]

/- A string. -/
def string (s : String) : String :=
  "\"" ++ String.join (s.toList.map escape) ++ "\""

/- A field of an object on a line of its own. -/
def field
    (indent : Nat)
    (name value : String) : String :=
  String.ofList (List.replicate indent ' ') ++ string name ++ ": "
    ++ value

/- Lines between brackets, with commas between them. -/
def block
    (indent : Nat)
    (opening closing : String)
    (lines : List String) : String :=
  opening ++ "\n" ++ ",\n".intercalate lines ++ "\n"
    ++ String.ofList (List.replicate indent ' ') ++ closing

end JsonText

/- The name of an annotation. -/
def Annotation.name : Annotation → String
  | .datatype => "datatype"
  | .group => "group"
  | .default => "default"

/- The form of the reply as an object. -/
def Dialect.json (d : Dialect) : String :=
  JsonText.block 2 "\x7b" "\x7d" [
    JsonText.field 4 "header" (if d.header then "true" else "false"),
    JsonText.field 4 "delimiter" (JsonText.string d.delimiter),
    JsonText.field 4 "commentPrefix" (JsonText.string d.commentMark),
    JsonText.field 4 "annotations"
      (JsonText.block 4 "[" "]"
        (d.annotations.map fun a =>
          "      " ++ JsonText.string a.name))]

/- The body of a request that carries a script. -/
def Script.request (s : Script) : String :=
  JsonText.block 0 "\x7b" "\x7d" [
    JsonText.field 2 "query" (JsonText.string s.text),
    JsonText.field 2 "type" (JsonText.string "flux"),
    JsonText.field 2 "dialect" s.dialect.json]

end TypedFlux
