import EntityCursor.Value.Basic

/-!
How values compare. `Value.compare` orders all values and serves sorting: kinds come in a fixed
order, and values of a kind in the order natural to it, entities by their identifiers.
`Value.compare?` serves filters: it relates only values of one kind, and besides those dates to the
texts and numbers that denote dates.
-/

namespace EntityCursor

namespace Value

mutual

protected def compare : Value → Value → Ordering
  | .bool left, .bool right => Ord.compare left right
  | .number left, .number right => Ord.compare left right
  | .string left, .string right => Ord.compare left right
  | .date left, .date right => Ord.compare left right
  | .bytes left, .bytes right => Ord.compare left right
  | .array left, .array right => compareItems left right
  | .record left, .record right => compareFields left right
  | .entity leftName leftFields, .entity rightName rightFields =>
      Ord.compare (Entity.mk leftName leftFields).id? (Entity.mk rightName rightFields).id?
  | left, right => Ord.compare left.kind.rank right.kind.rank

/-- The first difference decides, and a shorter list comes before its continuations. -/
def compareItems : List Value → List Value → Ordering
  | [], [] => .eq
  | [], _ :: _ => .lt
  | _ :: _, [] => .gt
  | left :: leftRest, right :: rightRest =>
      (left.compare right).then (compareItems leftRest rightRest)

def compareFields : List (String × Value) → List (String × Value) → Ordering
  | [], [] => .eq
  | [], _ :: _ => .lt
  | _ :: _, [] => .gt
  | (leftName, left) :: leftRest, (rightName, right) :: rightRest =>
      ((Ord.compare leftName rightName).then (left.compare right)).then
        (compareFields leftRest rightRest)

end

mutual

/-- Equality in structure. Numbers are equal as numbers: the two zeros are equal, and what is no
number is not equal to itself. -/
def same : Value → Value → Bool
  | .null, .null => true
  | .bool left, .bool right => left == right
  | .number left, .number right => left.same right
  | .string left, .string right => left == right
  | .date left, .date right => left == right
  | .bytes left, .bytes right => left == right
  | .array left, .array right => sameItems left right
  | .record left, .record right => sameFields left right
  | .entity leftName left, .entity rightName right => leftName == rightName && sameFields left right
  | _, _ => false

def sameItems : List Value → List Value → Bool
  | [], [] => true
  | left :: leftRest, right :: rightRest => left.same right && sameItems leftRest rightRest
  | _, _ => false

def sameFields : List (String × Value) → List (String × Value) → Bool
  | [], [] => true
  | (leftName, left) :: leftRest, (rightName, right) :: rightRest =>
      leftName == rightName && left.same right && sameFields leftRest rightRest
  | _, _ => false

end

/-- The moment that a text or a number of milliseconds denotes. -/
def toMoment? : Value → Option Moment
  | .string text => Moment.read? text
  | .number real => Moment.ofMilliseconds? real
  | _ => none

def compare? : Value → Value → Option Ordering
  | .null, .null => some .eq
  | .bool left, .bool right => some (Ord.compare left right)
  | .number left, .number right => left.compare? right
  | .string left, .string right => some (Ord.compare left right)
  | .date left, .date right => some (Ord.compare left right)
  | .date left, right => (toMoment? right).map fun moment => Ord.compare left moment
  | left, .date right => (toMoment? left).map fun moment => Ord.compare moment right
  | .bytes left, .bytes right => some (Ord.compare left right)
  | .array left, .array right => if sameItems left right then some .eq else none
  | .record left, .record right => if sameFields left right then some .eq else none
  | .entity leftName left, .entity rightName right =>
      if same (.entity leftName left) (.entity rightName right) then some .eq else none
  | _, _ => none

def equals (left right : Value) : Bool :=
  left.compare? right == some .eq

end Value

end EntityCursor
