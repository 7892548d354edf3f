/-!
The severities of logged events.
-/

namespace EntityCursor

inductive Severity where
  | trace
  | info
  | warn
  | error
  | fatal
deriving DecidableEq, Inhabited, Repr

namespace Severity

def all : List Severity := [.trace, .info, .warn, .error, .fatal]

def name : Severity → String
  | .trace => "TRACE"
  | .info => "INFO"
  | .warn => "WARN"
  | .error => "ERROR"
  | .fatal => "FATAL"

def level : Severity → Nat
  | .trace => 0
  | .info => 1
  | .warn => 2
  | .error => 3
  | .fatal => 4

def read? (name : String) : Option Severity :=
  all.find? fun severity => severity.name = name.toUpper

def unknownMessage (name : String) : String :=
  "unknown log level '" ++ name.toUpper ++ "'"

end Severity

end EntityCursor
