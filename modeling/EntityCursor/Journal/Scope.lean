import EntityCursor.Journal.Basic

/-!
Scopes: units of work that log when they begin and how they end. A scope that is left before its end
was logged is logged as incomplete.
-/

namespace EntityCursor

structure Scope where
  name : String
  /-- Fields of every line that the scope logs. -/
  fields : List (String × String)
  completed : Bool

namespace Scope

def enter (name : String) (fields : List (String × String)) (journal : Journal) : Scope × Journal :=
  (⟨name, fields, false⟩, journal.log .info (name ++ "_BEGIN") fields)

def complete (scope : Scope) (extra : List (String × String)) (elapsed : String)
    (journal : Journal) : Scope × Journal :=
  ({ scope with completed := true },
    journal.log .info (scope.name ++ "_COMPLETE")
      (scope.fields ++ extra ++ [("elapsed_us", elapsed)]))

def failAt (scope : Scope) (severity : Severity) (reason : String) (journal : Journal) :
    Scope × Journal :=
  ({ scope with completed := true },
    journal.log severity (scope.name ++ "_FAILED") (scope.fields ++ [("reason", reason)]))

def fail (scope : Scope) (reason : String) (journal : Journal) : Scope × Journal :=
  scope.failAt .error reason journal

def failFatally (scope : Scope) (reason : String) (journal : Journal) : Scope × Journal :=
  scope.failAt .fatal reason journal

def leave (scope : Scope) (journal : Journal) : Journal :=
  if scope.completed then journal
  else
    journal.log .warn (scope.name ++ "_INCOMPLETE")
      (scope.fields ++ [("reason", "scope dropped without completion")])

end Scope

end EntityCursor
