import EntityCursor.Descriptor.Basic
import EntityCursor.Json.Printer
import EntityCursor.Value.Kind

/-!
The failures of queries. A failure names its cause; its code groups causes for callers, and its
message is written for readers.
-/

namespace EntityCursor

inductive ChannelError where
  | opening (reason : String)
  | reading (reason : String)
  | closing (reason : String)
  | unknownHandle (handle : Nat)
deriving DecidableEq, Repr

namespace ChannelError

def code : ChannelError → String
  | .opening _ => "ENTIQ_REMOTE_OPEN"
  | .reading _ => "ENTIQ_REMOTE_NEXT"
  | .closing _ => "ENTIQ_REMOTE_CLOSE"
  | .unknownHandle _ => "ENTIQ_REMOTE_HANDLE"

def message : ChannelError → String
  | .opening reason => s!"Remote open failed: {reason}"
  | .reading reason => s!"Remote next failed: {reason}"
  | .closing reason => s!"Remote close failed: {reason}"
  | .unknownHandle handle => s!"Unknown or closed query handle {handle}"

end ChannelError

/-- A chain or a registry that breaks the rules it is built by. -/
inductive Defect where
  | scanAboveRoot
  | noRootScan
  | notSendable (operator : String)
  | scanAsLocalStage
  | unregisteredNested (entity : String)
deriving DecidableEq, Repr

def Defect.message : Defect → String
  | .scanAboveRoot => "Scan node has a predecessor"
  | .noRootScan => "chain does not start with a scan"
  | .notSendable operator => s!"{operator} cannot be sent to the remote engine"
  | .scanAsLocalStage => "Scan cannot run as a local stage"
  | .unregisteredNested entity => s!"nested entity '{entity}' is not registered"

def maximumFilterDepth : Nat := 100

/-- What is wrong with a filter document or with an expression. -/
inductive FilterFault where
  | notAnObject (given : Json)
  | tooDeep
  | notAnArray (connective : String)
  | itemNotAnObject (connective : String)
  | negationOfNonObject
  | operatorWithoutField (operator : String)
  | unknownOperator (operator : String)
  | arrayForField (path : List String)
  | notAScalar (given : Json)
  | notAScalarValue (kind : ValueKind)
  | unboundParameter (position : Nat)
  | notACondition (kind : ValueKind)
  | badPattern (reason : String)

def FilterFault.message : FilterFault → String
  | .notAnObject given => "filter must be an object, got " ++ given.compact
  | .tooDeep => s!"filter nested deeper than {maximumFilterDepth} levels"
  | .notAnArray connective => s!"{connective} expects an array"
  | .itemNotAnObject connective => s!"{connective} items must be objects"
  | .negationOfNonObject => "$not expects an object"
  | .operatorWithoutField operator => s!"{operator} must be applied to a field"
  | .unknownOperator operator => s!"unknown operator {operator}"
  | .arrayForField path =>
      "array value for field '" ++ ".".intercalate path ++ "' is not supported"
  | .notAScalar given => "expected a scalar literal, got " ++ given.compact
  | .notAScalarValue kind => "expected a scalar literal, got a " ++ kind.name
  | .unboundParameter position => s!"unbound parameter {position}"
  | .notACondition kind => "expected a boolean condition, got a " ++ kind.name
  | .badPattern reason => "bad LIKE pattern: " ++ reason

/-- An operation on a value that has no place for it. -/
inductive OperationFault where
  | noFields (field : String) (kind : ValueKind)
  | noColumns (kind : ValueKind)
  | reported (reason : String)

def OperationFault.message : OperationFault → String
  | .noFields field kind => "cannot read field '" ++ field ++ "' of a " ++ kind.name ++ " value"
  | .noColumns kind => "cannot select columns of a " ++ kind.name ++ " value"
  | .reported reason => reason

inductive QueryError where
  | typeMismatch (entity field : String) (expected : FieldKind) (actual : Json)
  | unknownEntity (name : String)
  | defect (cause : Defect)
  | remote (cause : ChannelError)
  | fieldNotSelected (field : String)
  | invalidFilter (cause : FilterFault)
  | invalidOperation (cause : OperationFault)
  /-- A counter has run over. The process stops here, and no caller is given this as an error: what
  is said of the journal and the metrics after a failure is meant of the other ones. -/
  | overflow

namespace QueryError

def code : QueryError → String
  | .typeMismatch .. => "ENTIQ_TYPE_MISMATCH"
  | .unknownEntity _ => "ENTIQ_UNKNOWN_ENTITY"
  | .defect _ => "ENTIQ_INTERNAL_CONSISTENCY"
  | .remote _ => "ENTIQ_REMOTE_CHANNEL"
  | .fieldNotSelected _ => "ENTIQ_FIELD_NOT_SELECTED"
  | .invalidFilter _ => "ENTIQ_INVALID_FILTER"
  | .invalidOperation _ => "ENTIQ_INVALID_OPERATION"
  | .overflow => "PANIC"

def message : QueryError → String
  | .typeMismatch entity field expected actual =>
      s!"Type mismatch on {entity}.{field}: expected " ++ expected.name ++ ", got " ++
        actual.compact
  | .unknownEntity name => s!"Unknown entity: {name}"
  | .defect cause => "Internal consistency failure: " ++ cause.message
  | .remote cause => cause.message
  | .fieldNotSelected field => s!"Field '{field}' is not part of the selected columns"
  | .invalidFilter cause => "Invalid filter: " ++ cause.message
  | .invalidOperation cause => "Invalid operation: " ++ cause.message
  | .overflow => "attempt to add with overflow"

def isDefect : QueryError → Bool
  | .defect _ => true
  | _ => false

end QueryError

abbrev Outcome (Result : Type) := Except QueryError Result

end EntityCursor
