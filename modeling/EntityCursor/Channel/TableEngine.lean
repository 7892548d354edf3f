import EntityCursor.Channel.Basic
import EntityCursor.Expr.Evaluate

/-!
An engine that keeps its tables in memory. A query is executed when it is opened, and its rows are
kept for its handle until it is closed. The engine counts what it does, and it can be told to fail
once a query has delivered a given number of rows. Handles and counts are natural numbers, so that
they are those of counters of 64 bits as long as these stay below `2 ^ 64`.
-/

namespace EntityCursor

structure OpenQuery where
  /-- The rows that are still to be delivered. -/
  rows : List Row
  served : Nat

structure TableEngine where
  tables : Fields (List Row) := []
  openQueries : List (Handle × OpenQuery) := []
  lastHandle : Nat := 0
  opens : Nat := 0
  closes : Nat := 0
  rowsServed : Nat := 0
  failAfter : Option Nat := none
  /-- The opened queries, the oldest first. -/
  received : List Query := []

namespace TableEngine

/-- Adds rows to a table. Documents that are no objects are passed over. -/
def insert (engine : TableEngine) (entity : String) (documents : List Json) : TableEngine :=
  let rows := documents.filterMap fun document =>
    match document with
    | .object members => some members
    | _ => none
  let table := (Fields.get? entity engine.tables).getD []
  { engine with tables := Fields.set entity (table ++ rows) engine.tables }

def untypedElement (entity : String) (row : Row) : Value :=
  .entity entity (Value.ofJsonMembers row)

def filterRows (entity : String) (expression : CompiledExpr) : List Row → Outcome (List Row)
  | [] => .ok []
  | row :: rest => do
      let kept ← expression.accepts (untypedElement entity row)
      let others ← filterRows entity expression rest
      return if kept then row :: others else others

def selectColumns (columns : List String) (row : Row) : Row :=
  Fields.ofList (columns.map fun column => (column, (Fields.get? column row).getD .null))

/-- The value of a row under a sort key; a missing field counts as null. -/
def keyValue (row : Row) (key : SortKey) : Value :=
  Value.ofJson ((Fields.get? key.field row).getD .null)

def rowOrder (keys : List SortKey) (left right : Row) : Ordering :=
  SortKey.compareAll keys (keys.map (keyValue left)) (keys.map (keyValue right))

/-- Sorts rows, where rows that all keys find equal keep their order. -/
def sortRows (keys : List SortKey) (rows : List Row) : List Row :=
  rows.mergeSort fun left right => rowOrder keys left right != .gt

def execute (tables : Fields (List Row)) : Query → Except ChannelError (List Row)
  | .scan entity =>
      match Fields.get? entity tables with
      | some rows => .ok rows
      | none => .error (.opening s!"no such table: {entity}")
  | .filter expression inner => do
      let rows ← execute tables inner
      match filterRows inner.entity expression.compile rows with
      | .ok rows => return rows
      | .error failure => .error (.opening failure.message)
  | .select columns inner => return (← execute tables inner).map (selectColumns columns)
  | .take count inner => return (← execute tables inner).take count
  | .skip count inner => return (← execute tables inner).drop count
  | .sort keys inner => return sortRows keys (← execute tables inner)

def find? (handle : Handle) : List (Handle × OpenQuery) → Option OpenQuery
  | [] => none
  | (key, query) :: rest => if key = handle then some query else find? handle rest

def replace (handle : Handle) (query : OpenQuery) :
    List (Handle × OpenQuery) → List (Handle × OpenQuery)
  | [] => []
  | (key, old) :: rest =>
      if key = handle then (key, query) :: rest else (key, old) :: replace handle query rest

def remove (handle : Handle) : List (Handle × OpenQuery) → List (Handle × OpenQuery)
  | [] => []
  | (key, old) :: rest => if key = handle then rest else (key, old) :: remove handle rest

def openQuery (query : Query) (engine : TableEngine) : Except ChannelError Handle × TableEngine :=
  match execute engine.tables query with
  | .error failure => (.error failure, engine)
  | .ok rows =>
      let handle : Handle := ⟨engine.lastHandle + 1⟩
      (.ok handle, { engine with
        openQueries := engine.openQueries ++ [(handle, ⟨rows, 0⟩)]
        lastHandle := engine.lastHandle + 1
        opens := engine.opens + 1
        received := engine.received ++ [query] })

def injectedFailure (served : Nat) : ChannelError :=
  .reading s!"injected failure after {served} rows"

def next (handle : Handle) (engine : TableEngine) :
    Except ChannelError (Option Row) × TableEngine :=
  match find? handle engine.openQueries with
  | none => (.error (.unknownHandle handle.number), engine)
  | some query =>
      if engine.failAfter = some query.served then (.error (injectedFailure query.served), engine)
      else
        match query.rows with
        | [] => (.ok none, engine)
        | row :: rows =>
            (.ok (some row), { engine with
              openQueries := replace handle ⟨rows, query.served + 1⟩ engine.openQueries
              rowsServed := engine.rowsServed + 1 })

def close (handle : Handle) (engine : TableEngine) : Except ChannelError Unit × TableEngine :=
  match find? handle engine.openQueries with
  | none => (.error (.unknownHandle handle.number), engine)
  | some _ =>
      (.ok (), { engine with
        openQueries := remove handle engine.openQueries
        closes := engine.closes + 1 })

def pending (handle : Handle) (engine : TableEngine) : Nat :=
  match find? handle engine.openQueries with
  | none => 0
  | some query => query.rows.length

theorem find?_replace_self {handle : Handle} {old query : OpenQuery}
    {queries : List (Handle × OpenQuery)} (found : find? handle queries = some old) :
    find? handle (replace handle query queries) = some query := by
  induction queries with
  | nil => simp [find?] at found
  | cons pair rest inductionHypothesis =>
      obtain ⟨key, other⟩ := pair
      by_cases same : key = handle
      · simp [replace, find?, same]
      · simp only [find?, same, if_false] at found
        simpa [replace, find?, same] using inductionHypothesis found

theorem pending_next {handle : Handle} {engine after : TableEngine} {row : Row}
    (delivered : next handle engine = (.ok (some row), after)) :
    pending handle after < pending handle engine := by
  unfold next at delivered
  split at delivered
  · simp at delivered
  · next query found =>
      split at delivered
      · simp at delivered
      · split at delivered
        · simp at delivered
        · next first rest rows =>
            simp only [Prod.mk.injEq] at delivered
            rw [← delivered.2]
            simp [pending, found, find?_replace_self found, rows]

def channel : Channel TableEngine where
  openQuery := openQuery
  next := next
  close := close
  pending := pending
  pending_next := pending_next

@[simp]
theorem openQuery_channel : channel.openQuery = openQuery := rfl

@[simp]
theorem next_channel : channel.next = next := rfl

@[simp]
theorem close_channel : channel.close = close := rfl

end TableEngine

end EntityCursor
