import EntityCursor.Cursor.Stream
import EntityCursor.Expr.Evaluate
import EntityCursor.Filter.Document
import EntityCursor.Filter.Restriction

/-!
Cursors: queries that are built operator by operator and evaluated on demand. Building never changes
a cursor; it gives a longer one. A terminal operation opens the iteration, pulls as many elements as
it needs and closes what it opened, and it logs and counts the iteration from its beginning to its
end.
-/

namespace EntityCursor

structure Cursor where
  policy : Policy
  chain : Chain

namespace Cursor

def ofEntity (policy : Policy) (entity : String) : Cursor := ⟨policy, Chain.scan entity⟩

def extend (cursor : Cursor) (operator : Operator) : Cursor :=
  { cursor with chain := cursor.chain.extend operator }

/-! Building. -/

def select (cursor : Cursor) (columns : List String) : Cursor := cursor.extend (.project columns)

def take (cursor : Cursor) (count : Nat) : Cursor := cursor.extend (.take count)

def skip (cursor : Cursor) (count : Nat) : Cursor := cursor.extend (.skip count)

def filter (cursor : Cursor) (predicate : Predicate) : Cursor :=
  cursor.extend (.predicateFilter predicate)

def sortBy (cursor : Cursor) (keys : List SortKey) : Cursor := cursor.extend (.sortBy keys)

def minBy (cursor : Cursor) (field : String) : Cursor := cursor.extend (.aggregate field .least)

def maxBy (cursor : Cursor) (field : String) : Cursor := cursor.extend (.aggregate field .greatest)

def aggregateBy (cursor : Cursor) (field : String) (initial : Option Value) (step : Fold) :
    Cursor :=
  cursor.extend (.aggregate field (.fold initial step))

def map (cursor : Cursor) (transform : Transform) : Cursor := cursor.extend (.map transform)

def requireSelected (cursor : Cursor) (fields : List String) : Outcome Unit :=
  match cursor.chain.selectedColumns? with
  | none => .ok ()
  | some columns =>
      match fields.find? (· ∉ columns) with
      | some missing => .error (.fieldNotSelected missing)
      | none => .ok ()

def filterExpression (cursor : Cursor) (expression : Expr) : Outcome Cursor := do
  cursor.requireSelected expression.fields
  return cursor.extend (.expressionFilter expression.compile.accepts expression)

/-- Keeps the elements that a predicate accepts, which must agree with an expression. -/
def filterWith (cursor : Cursor) (predicate : Predicate) (expression : Expr) : Outcome Cursor := do
  cursor.requireSelected expression.fields
  return cursor.extend (.expressionFilter predicate expression)

/-- A condition that asks for nothing leaves the cursor as it is. -/
def filterOptional (cursor : Cursor) : Option Expr → Outcome Cursor
  | none => .ok cursor
  | some expression => cursor.filterExpression expression

def filterWhere (cursor : Cursor) (restriction : Restriction) : Outcome Cursor := do
  cursor.requireSelected restriction.fields
  cursor.filterOptional (← restriction.compile)

def filterDocument (cursor : Cursor) (document : Json) : Outcome Cursor := do
  cursor.filterOptional (← Filter.compile document)

/-! Running. -/

def explain (cursor : Cursor) : Outcome Plan := do
  Plan.ofOperators cursor.policy (← cursor.chain.walk)

variable {State : Type}

def splitFields (request : Request) (plan : Plan) : List (String × String) :=
  let nodes :=
    match plan.remote with
    | some query => query.nodes.length
    | none => 0
  [("entity", plan.entity), ("local", toString plan.localOperators.length),
    ("request_id", request.id), ("remote", toString nodes),
    ("short_circuit", if plan.shortCircuit then "true" else "false")]

/-- Opens an iteration by a plan, which need not be the plan of the chain. -/
def streamBy (planned : Outcome Plan) (store : Store State) (request : Request)
    (world : World State) : Outcome QueryStream × World State :=
  match planned with
  | .error failure => (.error failure, world)
  | .ok plan =>
      if store.registry.contains plan.entity then
        let world := world.log .trace "QUERY_SPLIT" (splitFields request plan)
        match QueryStream.openPlan store request plan world with
        | (.error failure, world) => (.error failure, world)
        | (.ok stream, world) =>
            (.ok stream, { world with
              metrics := world.metrics.countOpened plan.remote.isSome plan.localOperators.length })
      else (.error (.unknownEntity plan.entity), world)

def stream (cursor : Cursor) (store : Store State) (request : Request) (world : World State) :
    Outcome QueryStream × World State :=
  streamBy cursor.explain store request world

def reportFailure (scope : Scope) (failure : QueryError) (world : World State) : World State :=
  let (scope, journal) :=
    if failure.isDefect then scope.failFatally failure.message world.journal
    else scope.fail failure.message world.journal
  { world with metrics := world.metrics.countFailed, journal := scope.leave journal }

def reportCompletion (request : Request) (scope : Scope) (rows : Nat) (world : World State) :
    World State :=
  let (scope, journal) :=
    scope.complete [("rows", toString rows)] request.elapsed world.journal
  { world with metrics := world.metrics.countCompleted rows, journal := scope.leave journal }

/-- Closes a stream and reports the iteration. The first failure counts. -/
def finish {Result : Type} (store : Store State) (request : Request) (scope : Scope)
    (outcome : Outcome Result) (stream : QueryStream) (world : World State) :
    Outcome Result × World State :=
  match outcome, stream.close store world with
  | .ok result, (.ok (), _, world) => (.ok result, reportCompletion request scope stream.rows world)
  | .ok _, (.error failure, _, world) => (.error failure, reportFailure scope failure world)
  | .error failure, (.ok (), _, world) => (.error failure, reportFailure scope failure world)
  | .error failure, (.error closeFailure, _, world) =>
      let world := world.log .warn "REMOTE_CLOSE_FAILED" [("error", closeFailure.message)]
      (.error failure, reportFailure scope failure world)

/-- Runs a terminal operation by a plan: opens the iteration, lets `consume` pull from it and closes
it. `kept` is what the caller has gathered, which is there also after a failure. -/
def iterateBy {Result Kept : Type} (cursor : Cursor) (planned : Outcome Plan) (store : Store State)
    (request : Request) (terminal : String)
    (consume : Kept → QueryStream → World State →
      Outcome Result × Kept × QueryStream × World State)
    (kept : Kept) (world : World State) : Outcome Result × Kept × World State :=
  let entity := (cursor.chain.scannedEntity.toOption).getD "?"
  let (scope, journal) := Scope.enter "CURSOR_ITERATION"
    [("entity", entity), ("request_id", request.id), ("terminal", terminal)] world.journal
  match streamBy planned store request { world with journal := journal } with
  | (.error failure, world) => (.error failure, kept, reportFailure scope failure world)
  | (.ok stream, world) =>
      let (outcome, kept, stream, world) := consume kept stream world
      let (outcome, world) := finish store request scope outcome stream world
      (outcome, kept, world)

def iterate {Result Kept : Type} (cursor : Cursor) (store : Store State) (request : Request)
    (terminal : String)
    (consume : Kept → QueryStream → World State →
      Outcome Result × Kept × QueryStream × World State)
    (kept : Kept) (world : World State) : Outcome Result × Kept × World State :=
  cursor.iterateBy cursor.explain store request terminal consume kept world

def toArrayBy (cursor : Cursor) (planned : Outcome Plan) (store : Store State) (request : Request)
    (world : World State) : Outcome (List Value) × World State :=
  let (outcome, gathered, world) :=
    cursor.iterateBy planned store request "to_array"
      (QueryStream.visit store QueryStream.gather) [] world
  (outcome.map fun _ => gathered.reverse, world)

def toArray (cursor : Cursor) (store : Store State) (request : Request) (world : World State) :
    Outcome (List Value) × World State :=
  cursor.toArrayBy cursor.explain store request world

/-- Hands the elements to `step`, which goes on, ends the visit or fails. -/
def forEach {Kept : Type} (cursor : Cursor) (store : Store State) (request : Request)
    (step : Kept → Value → Outcome (Option Unit) × Kept) (kept : Kept) (world : World State) :
    Outcome Unit × Kept × World State :=
  cursor.iterate store request "for_each" (QueryStream.visit store step) kept world

def first (cursor : Cursor) (store : Store State) (request : Request) (world : World State) :
    Outcome (Option Value) × World State :=
  let (outcome, _, world) :=
    cursor.iterate store request "first"
      (fun _ stream world =>
        let (outcome, stream, world) := stream.next store world
        (outcome, (), stream, world)) () world
  (outcome, world)

def count (cursor : Cursor) (store : Store State) (request : Request) (world : World State) :
    Outcome Nat × World State :=
  let (outcome, total, world) :=
    cursor.forEach store request (fun total _ => (.ok none, total + 1)) 0 world
  (outcome.map fun _ => total, world)

def defined : Option Value → Option Value
  | some .null => none
  | value => value

def min (cursor : Cursor) (store : Store State) (request : Request) (field : String)
    (world : World State) : Outcome (Option Value) × World State :=
  let (outcome, world) := (cursor.minBy field).first store request world
  (outcome.map defined, world)

def max (cursor : Cursor) (store : Store State) (request : Request) (field : String)
    (world : World State) : Outcome (Option Value) × World State :=
  let (outcome, world) := (cursor.maxBy field).first store request world
  (outcome.map defined, world)

/-- What the values of a field accumulate to, or null. -/
def aggregate (cursor : Cursor) (store : Store State) (request : Request) (field : String)
    (initial : Option Value) (step : Fold) (world : World State) : Outcome Value × World State :=
  let (outcome, world) := (cursor.aggregateBy field initial step).first store request world
  (outcome.map (·.getD .null), world)

end Cursor

end EntityCursor
