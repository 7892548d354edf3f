import EntityCursor.Expr.Json
import EntityCursor.Query.Basic

/-!
Query documents as JSON. Every operation is an object whose member `type` names it and whose member
`inner` holds what it is applied to.
-/

namespace EntityCursor

namespace SortKey

def toJson (key : SortKey) : Json :=
  .object [("ascending", .bool key.ascending), ("fieldName", .string key.field)]

def ofSource? (source : Source) : Option SortKey := do
  match ← source.record? ["fieldName", "ascending"] with
  | [some field, some ascending] => return ⟨← field.text?, ← ascending.bool?⟩
  | _ => none

def listOfSource? (source : Source) : Option (List SortKey) := do
  (← source.list?).mapM ofSource?

end SortKey

namespace Query

inductive Form where
  | scan
  | filter
  | select
  | take
  | skip
  | sort
deriving DecidableEq, Repr

namespace Form

def all : List Form := [.scan, .filter, .select, .take, .skip, .sort]

def name : Form → String
  | .scan => "BaseEntity"
  | .filter => "ExpressionFilter"
  | .select => "ColumnsSelect"
  | .take => "Take"
  | .skip => "Skip"
  | .sort => "SortBy"

def parts : Form → List String
  | .scan => ["name"]
  | .filter => ["expression", "inner"]
  | .select => ["columns", "inner"]
  | .take => ["count", "inner"]
  | .skip => ["count", "inner"]
  | .sort => ["keys", "inner"]

end Form

def toJson : Query → Json
  | .scan entity => .object [("name", .string entity), ("type", .string "BaseEntity")]
  | .filter expression inner =>
      .object [("expression", expression.toJson), ("inner", inner.toJson),
        ("type", .string "ExpressionFilter")]
  | .select columns inner =>
      .object [("columns", Json.ofStrings columns), ("inner", inner.toJson),
        ("type", .string "ColumnsSelect")]
  | .take count inner =>
      .object [("count", .integer count), ("inner", inner.toJson), ("type", .string "Take")]
  | .skip count inner =>
      .object [("count", .integer count), ("inner", inner.toJson), ("type", .string "Skip")]
  | .sort keys inner =>
      .object [("inner", inner.toJson), ("keys", .array (keys.map SortKey.toJson)),
        ("type", .string "SortBy")]

def ofParts? (form : Form) (parts : List (String × Json.Part Query)) : Option Query :=
  let document? (name : String) : Option Json := (Fields.get? name parts).map (·.1)
  let query? (name : String) : Option Query := (Fields.get? name parts).bind (·.2)
  match form with
  | .scan => do return .scan (← Expr.nameOfJson? (← document? "name"))
  | .filter => do
      return .filter (← Expr.ofJson? true (← document? "expression")) (← query? "inner")
  | .select => do
      return .select (← (← document? "columns").toSource.texts?) (← query? "inner")
  | .take => do return .take (← Expr.positionOfJson? (← document? "count")) (← query? "inner")
  | .skip => do return .skip (← Expr.positionOfJson? (← document? "count")) (← query? "inner")
  | .sort => do
      return .sort (← SortKey.listOfSource? (← document? "keys").toSource) (← query? "inner")

def union : TaggedUnion Form Query :=
  { tag := "type", forms := Form.all, name := Form.name, parts := Form.parts, ofParts? := ofParts? }

def ofJson? (numbered : Bool) (document : Json) : Option Query :=
  union.ofJson? numbered document

def read? (document : Json) : Option Query :=
  ofJson? false document

end Query

end EntityCursor
