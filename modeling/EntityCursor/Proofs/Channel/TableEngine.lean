import EntityCursor.Channel.TableEngine

/-!
What the table engine keeps of its handles. In every state that the engine can get to, the handles
of its open queries are among those it has given out, so that a query that is opened gets a handle
that no other query has.
-/

namespace EntityCursor

namespace TableEngine

/-- The states that an engine can get to. -/
inductive Reachable : TableEngine → Prop where
  | fresh : Reachable {}
  | insert {engine : TableEngine} (entity : String) (documents : List Json) :
      Reachable engine → Reachable (engine.insert entity documents)
  | failing {engine : TableEngine} (rows : Option Nat) :
      Reachable engine → Reachable { engine with failAfter := rows }
  | openQuery {engine : TableEngine} (query : Query) :
      Reachable engine → Reachable (TableEngine.openQuery query engine).2
  | next {engine : TableEngine} (handle : Handle) :
      Reachable engine → Reachable (TableEngine.next handle engine).2
  | close {engine : TableEngine} (handle : Handle) :
      Reachable engine → Reachable (TableEngine.close handle engine).2

theorem mem_of_mem_replace {handle : Handle} {query : OpenQuery}
    {queries : List (Handle × OpenQuery)} {entry : Handle × OpenQuery}
    (member : entry ∈ replace handle query queries) :
    entry.1 = handle ∧ handle ∈ queries.map Prod.fst ∨ entry ∈ queries := by
  induction queries with
  | nil => simp [replace] at member
  | cons pair rest inductionHypothesis =>
      obtain ⟨key, old⟩ := pair
      rw [replace] at member
      split at member
      · next same =>
          rcases List.mem_cons.mp member with rfl | later
          · exact .inl ⟨same, by simp [same]⟩
          · exact .inr (List.mem_cons_of_mem _ later)
      · rcases List.mem_cons.mp member with rfl | later
        · exact .inr List.mem_cons_self
        · rcases inductionHypothesis later with ⟨same, held⟩ | kept
          · exact .inl ⟨same, List.mem_cons_of_mem _ held⟩
          · exact .inr (List.mem_cons_of_mem _ kept)

theorem mem_of_mem_remove {handle : Handle} {queries : List (Handle × OpenQuery)}
    {entry : Handle × OpenQuery} (member : entry ∈ remove handle queries) : entry ∈ queries := by
  induction queries with
  | nil => simp [remove] at member
  | cons pair rest inductionHypothesis =>
      obtain ⟨key, old⟩ := pair
      rw [remove] at member
      split at member
      · exact List.mem_cons_of_mem _ member
      · rcases List.mem_cons.mp member with rfl | later
        · exact List.mem_cons_self
        · exact List.mem_cons_of_mem _ (inductionHypothesis later)

theorem Reachable.number_le {engine : TableEngine} (reachable : engine.Reachable) :
    ∀ entry ∈ engine.openQueries, entry.1.number ≤ engine.lastHandle := by
  induction reachable with
  | fresh =>
      intro entry member
      cases member
  | insert entity documents _ inductionHypothesis => exact inductionHypothesis
  | failing rows _ inductionHypothesis => exact inductionHypothesis
  | @openQuery engine query _ inductionHypothesis =>
      intro entry
      rw [TableEngine.openQuery]
      split
      · exact inductionHypothesis entry
      · intro member
        rcases List.mem_append.mp member with old | new
        · exact Nat.le_succ_of_le (inductionHypothesis entry old)
        · have same := List.mem_singleton.mp new
          subst same
          exact Nat.le_refl _
  | @next engine handle _ inductionHypothesis =>
      intro entry
      rw [TableEngine.next]
      split
      · exact inductionHypothesis entry
      · split
        · exact inductionHypothesis entry
        · split
          · exact inductionHypothesis entry
          · intro member
            rcases mem_of_mem_replace member with ⟨same, held⟩ | kept
            · obtain ⟨old, oldMember, oldHandle⟩ := List.mem_map.mp held
              rw [same, ← oldHandle]
              exact inductionHypothesis old oldMember
            · exact inductionHypothesis entry kept
  | @close engine handle _ inductionHypothesis =>
      intro entry
      rw [TableEngine.close]
      split
      · exact inductionHypothesis entry
      · intro member
        exact inductionHypothesis entry (mem_of_mem_remove member)

theorem find?_append_fresh {handle : Handle} {query : OpenQuery}
    {queries : List (Handle × OpenQuery)} (fresh : ∀ entry ∈ queries, entry.1 ≠ handle) :
    find? handle (queries ++ [(handle, query)]) = some query := by
  induction queries with
  | nil => simp [find?]
  | cons pair rest inductionHypothesis =>
      obtain ⟨key, old⟩ := pair
      have different : key ≠ handle := fresh (key, old) List.mem_cons_self
      rw [List.cons_append, find?, if_neg different]
      exact inductionHypothesis fun entry member => fresh entry (List.mem_cons_of_mem _ member)

theorem find?_openQuery {engine : TableEngine} (reachable : engine.Reachable) {query : Query}
    {rows : List Row} (executed : execute engine.tables query = .ok rows) :
    openQuery query engine =
      (.ok ⟨engine.lastHandle + 1⟩, (openQuery query engine).2) ∧
    find? ⟨engine.lastHandle + 1⟩ (openQuery query engine).2.openQueries = some ⟨rows, 0⟩ ∧
    (openQuery query engine).2.failAfter = engine.failAfter := by
  rw [openQuery, executed]
  refine ⟨rfl, ?_, rfl⟩
  apply find?_append_fresh
  intro entry member same
  have given := reachable.number_le entry member
  rw [same] at given
  exact absurd given (Nat.not_succ_le_self _)

theorem next_of_cons {handle : Handle} {engine : TableEngine} {row : Row} {rest : List Row}
    {served : Nat} (held : find? handle engine.openQueries = some ⟨row :: rest, served⟩)
    (healthy : engine.failAfter = none) :
    ∃ after, next handle engine = (.ok (some row), after) ∧
      find? handle after.openQueries = some ⟨rest, served + 1⟩ ∧ after.failAfter = none := by
  rw [next, held]
  simp only [healthy, reduceCtorEq, if_false]
  exact ⟨_, rfl, find?_replace_self held, rfl⟩

theorem isSome_find?_next {handle : Handle} {engine : TableEngine}
    (held : (find? handle engine.openQueries).isSome) :
    (find? handle (next handle engine).2.openQueries).isSome := by
  rw [next]
  split
  · exact held
  · next query found =>
      split
      · exact held
      · split
        · exact held
        · rw [find?_replace_self found]
          rfl

theorem close_of_held {handle : Handle} {engine : TableEngine}
    (held : (find? handle engine.openQueries).isSome) : (close handle engine).1 = .ok () := by
  obtain ⟨query, found⟩ := Option.isSome_iff_exists.mp held
  rw [close, found]

end TableEngine

end EntityCursor
