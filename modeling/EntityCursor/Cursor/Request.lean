import EntityCursor.Fields
import EntityCursor.Identifier

/-!
The requests on whose behalf cursors run.
-/

namespace EntityCursor

structure Request where
  /-- The identifier by which the journal names the request. -/
  id : String
  method : String
  path : String
  user : Option Identifier := none
  /-- The version of the data that queries should see. -/
  version : Option Nat := none
  headers : Fields String := []
  /-- The duration in microseconds that the journal notes for an iteration. -/
  elapsed : String := "0"

namespace Request

/-- A request that comes from no caller. -/
def internal (id : String) : Request := { id := id, method := "INTERNAL", path := "/" }

def withUser (request : Request) (user : Identifier) : Request :=
  { request with user := some user }

def withVersion (request : Request) (version : Nat) : Request :=
  { request with version := some version }

def withHeader (request : Request) (name value : String) : Request :=
  { request with headers := Fields.set name value request.headers }

end Request

end EntityCursor
