/-!
The kinds of values, in the order in which values of different kinds are sorted.
-/

namespace EntityCursor

inductive ValueKind where
  | null
  | boolean
  | number
  | string
  | date
  | bytes
  | array
  | record
  | entity
deriving DecidableEq, Repr

namespace ValueKind

def name : ValueKind → String
  | .null => "null"
  | .boolean => "boolean"
  | .number => "number"
  | .string => "string"
  | .date => "date"
  | .bytes => "bytes"
  | .array => "array"
  | .record => "record"
  | .entity => "entity"

def rank : ValueKind → Nat
  | .null => 0
  | .boolean => 1
  | .number => 2
  | .string => 3
  | .date => 4
  | .bytes => 5
  | .array => 6
  | .record => 7
  | .entity => 8

end ValueKind

end EntityCursor
