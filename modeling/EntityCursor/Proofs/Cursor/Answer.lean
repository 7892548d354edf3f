import EntityCursor.Proofs.Cursor.Planned

/-!
What gathering all elements comes to on a table engine: the rows of the remote part of the plan as
elements, and what the readings of the operators in the process make of them.
-/

namespace EntityCursor

namespace QueryStream

variable {registry : Registry}

/-- The rows of an open query come one after the other if each of them has an element. -/
theorem runs_rows {entity : String} {columns : Option (List String)} {elementOf : Row → Value}
    {handle : Handle} {rows : List Row} {served : Nat} {engine : TableEngine}
    (held : TableEngine.find? handle engine.openQueries = some ⟨rows, served⟩)
    (healthy : engine.failAfter = none)
    (readable : ∀ row ∈ rows, registry.element entity row columns = .ok (elementOf row)) :
    ((TableEngine.store registry).rows entity columns).Runs (fun _ _ => ()) (some handle) engine
      (.whole (rows.map elementOf)) := by
  induction rows generalizing engine served with
  | nil =>
      have ended : ((TableEngine.store registry).rows entity columns).pull (some handle) engine =
          (.ok none, some handle, engine) := by
        simp [Store.rows, TableEngine.next, held, healthy]
      exact .ends ended
  | cons row rest inductionHypothesis =>
      obtain ⟨after, fetched, heldAfter, healthyAfter⟩ := TableEngine.next_of_cons held healthy
      have delivered : ((TableEngine.store registry).rows entity columns).pull (some handle)
          engine = (.ok (some (elementOf row)), some handle, after) := by
        have read := readable row List.mem_cons_self
        simp [Store.rows, fetched, read, Except.map]
      refine .delivers delivered (inductionHypothesis heldAfter healthyAfter ?_)
      intro other member
      exact readable other (List.mem_cons_of_mem _ member)

theorem runs_no_rows (entity : String) (columns : Option (List String)) (engine : TableEngine) :
    ((TableEngine.store registry).rows entity columns).Runs (fun _ _ => ()) none engine
      (.whole []) := by
  have ended : ((TableEngine.store registry).rows entity columns).pull none engine =
      (.ok none, none, engine) := rfl
  exact .ends ended

end QueryStream

namespace Cursor

variable {registry : Registry} {cursor : Cursor}

theorem toArray_of_no_query {plan : Plan} {request : Request} {world : World TableEngine}
    (explained : cursor.explain = .ok plan) (contained : registry.contains plan.entity = true)
    (remote : plan.remote = none) :
    (cursor.toArray (TableEngine.store registry) request world).1 =
      ((Course.whole []).through plan.localOperators.reverse).answer := by
  have gives : plan.Gives registry world.channel (.whole []) := by
    rw [Plan.Gives, remote]
    exact QueryStream.runs_no_rows plan.entity none world.channel
  rw [toArray, explained]
  exact (Takes.of_gives contained gives request).toArrayBy cursor

/-- With a remote part the operators in the process are applied to the elements of the rows that
executing it gives. -/
theorem toArray_of_query {plan : Plan} {query : Query} {request : Request}
    {world : World TableEngine} {rows : List Row} {elementOf : Row → Value}
    (explained : cursor.explain = .ok plan) (contained : registry.contains plan.entity = true)
    (remote : plan.remote = some query) (reachable : world.channel.Reachable)
    (healthy : world.channel.failAfter = none)
    (executed : TableEngine.execute world.channel.tables query = .ok rows)
    (readable : ∀ row ∈ rows,
      registry.element plan.entity row query.selectedColumns? = .ok (elementOf row)) :
    (cursor.toArray (TableEngine.store registry) request world).1 =
      ((Course.whole (rows.map elementOf)).through plan.localOperators.reverse).answer := by
  obtain ⟨_, held, healthyAfter⟩ := TableEngine.find?_openQuery reachable executed
  have gives : plan.Gives registry world.channel (.whole (rows.map elementOf)) := by
    rw [Plan.Gives, remote]
    exact ⟨rows, executed, QueryStream.runs_rows held (healthyAfter.trans healthy) readable⟩
  rw [toArray, explained]
  exact (Takes.of_gives contained gives request).toArrayBy cursor

theorem toArray_of_refused {plan : Plan} {query : Query} {request : Request}
    {world : World TableEngine} {failure : ChannelError}
    (explained : cursor.explain = .ok plan) (contained : registry.contains plan.entity = true)
    (remote : plan.remote = some query)
    (refused : TableEngine.execute world.channel.tables query = .error failure) :
    (cursor.toArray (TableEngine.store registry) request world).1 = .error (.remote failure) := by
  rw [toArray, explained]
  exact (Refused.of_execute contained remote refused request).toArrayBy cursor

end Cursor

end EntityCursor
