import EntityCursor.Cursor.Basic

/-!
Query scripts: JSON documents that name an entity, the steps by which a cursor over it is built and
the terminal operation to run. Without steps the cursor has all rows, and without terminal all
elements are the result.
-/

namespace EntityCursor

inductive ScriptStep where
  | select (columns : List String)
  | take (count : Nat)
  | skip (count : Nat)
  | filter (document : Json)
  | sortBy (keys : List SortKey)
  | minBy (field : String)
  | maxBy (field : String)

inductive Terminal where
  | toArray
  | first
  | count
  | min (field : String)
  | max (field : String)
deriving DecidableEq, Repr

structure Script where
  entity : String
  steps : List ScriptStep
  terminal : Terminal

namespace ScriptStep

def countBound : Nat := Nat.pow 2 64

def ofSource? (source : Source) : Option ScriptStep := do
  match ← source.choice? with
  | ("select", some value) => return .select (← value.texts?)
  | ("take", some value) => return .take (← value.natural? countBound)
  | ("skip", some value) => return .skip (← value.natural? countBound)
  | ("filter", some value) => return .filter (← value.toJson?)
  | ("sortBy", some value) => return .sortBy (← SortKey.listOfSource? value)
  | ("minBy", some value) => return .minBy (← value.text?)
  | ("maxBy", some value) => return .maxBy (← value.text?)
  | _ => none

def apply (step : ScriptStep) (cursor : Cursor) : Outcome Cursor :=
  match step with
  | .select columns => .ok (cursor.select columns)
  | .take count => .ok (cursor.take count)
  | .skip count => .ok (cursor.skip count)
  | .filter document => cursor.filterDocument document
  | .sortBy keys => .ok (cursor.sortBy keys)
  | .minBy field => .ok (cursor.minBy field)
  | .maxBy field => .ok (cursor.maxBy field)

end ScriptStep

namespace Terminal

/-- A terminal without field may have a null with it. -/
def ofSource? (source : Source) : Option Terminal := do
  match ← source.choice? with
  | ("toArray", none) => return .toArray
  | ("toArray", some .null) => return .toArray
  | ("first", none) => return .first
  | ("first", some .null) => return .first
  | ("count", none) => return .count
  | ("count", some .null) => return .count
  | ("min", some value) => return .min (← value.text?)
  | ("max", some value) => return .max (← value.text?)
  | _ => none

end Terminal

namespace Script

def ofSource? (source : Source) : Option Script := do
  match ← source.record? ["entity", "steps", "terminal"] with
  | [some entity, steps, terminal] =>
      let steps ←
        match steps with
        | none => some []
        | some steps => do (← steps.list?).mapM ScriptStep.ofSource?
      let terminal ←
        match terminal with
        | none => some Terminal.toArray
        | some terminal => Terminal.ofSource? terminal
      return ⟨← entity.text?, steps, terminal⟩
  | _ => none

def read? (text : String) : Option Script := do
  ofSource? (← Source.read? text)

def ofJson? (document : Json) : Option Script :=
  ofSource? document.toSource

def build (script : Script) (policy : Policy) : Outcome Cursor :=
  script.steps.foldlM (fun cursor step => step.apply cursor) (Cursor.ofEntity policy script.entity)

def optionalJson (value : Option Value) : Json :=
  (value.map Value.toJson).getD .null

variable {State : Type}

def runTerminal (terminal : Terminal) (cursor : Cursor) (store : Store State) (request : Request)
    (world : World State) : Outcome Json × World State :=
  match terminal with
  | .toArray =>
      let (outcome, world) := cursor.toArray store request world
      (outcome.map fun elements => .array (elements.map Value.toJson), world)
  | .first =>
      let (outcome, world) := cursor.first store request world
      (outcome.map optionalJson, world)
  | .count =>
      let (outcome, world) := cursor.count store request world
      (outcome.map fun (total : Nat) => .integer total, world)
  | .min field =>
      let (outcome, world) := cursor.min store request field world
      (outcome.map optionalJson, world)
  | .max field =>
      let (outcome, world) := cursor.max store request field world
      (outcome.map optionalJson, world)

def evaluate (script : Script) (policy : Policy) (store : Store State) (request : Request)
    (world : World State) : Outcome Json × World State :=
  match script.build policy with
  | .error failure => (.error failure, world)
  | .ok cursor => runTerminal script.terminal cursor store request world

end Script

end EntityCursor
