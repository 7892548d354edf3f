import EntityCursor.Json.Basic

/-!
Documents of sum types. A document is an object that names a form under a tag and has the parts of
the form under their names, or an array that begins with the form and goes on with its parts in
order. Inside of other documents a form may be given by its number instead of its name.
-/

namespace EntityCursor

/-- A part of a document, and what it stands for if it is a document of the same type. -/
abbrev Json.Part (Result : Type) := Json × Option Result

/-- How the values of a type are written. -/
structure TaggedUnion (Form Result : Type) where
  tag : String
  forms : List Form
  name : Form → String
  parts : Form → List String
  ofParts? : Form → List (String × Json.Part Result) → Option Result

namespace TaggedUnion

variable {Form Result : Type} (union : TaggedUnion Form Result)

def form? (numbered : Bool) : Json → Option Form
  | .string name => union.forms.find? (union.name · = name)
  | .integer number => if numbered ∧ 0 ≤ number then union.forms[number.toNat]? else none
  | _ => none

mutual

def ofJson? (numbered : Bool) : Json → Option Result
  | .object members => do
      let form ← union.form? numbered (← Fields.get? union.tag members)
      union.ofParts? form (memberParts members)
  | .array (tag :: items) => do
      let form ← union.form? numbered tag
      let parts := union.parts form
      if items.length = parts.length then union.ofParts? form (parts.zip (itemParts items))
      else none
  | _ => none

def memberParts : List (String × Json) → List (String × Json.Part Result)
  | [] => []
  | (name, value) :: rest => (name, value, ofJson? true value) :: memberParts rest

def itemParts : List Json → List (Json.Part Result)
  | [] => []
  | item :: rest => (item, ofJson? true item) :: itemParts rest

end

end TaggedUnion

end EntityCursor
