import EntityCursor.Proofs.Chain.SortCounter
import EntityCursor.Proofs.Cursor.Answer
import EntityCursor.Proofs.Cursor.Simulation
import Mathlib.Data.List.Permutation

/-!
Pushdown does not change answers. How much of a chain a policy hands over to the remote engine makes
no difference to the elements that gathering gives. It may make one to whether gathering succeeds:
the engine evaluates filters for rows that nobody asks for, and it reads columns that a projection
has taken away as null.
-/

namespace EntityCursor

/-- What a table engine has to be to answer queries on the rows of an entity. -/
structure TableEngine.Serves (engine : TableEngine) (entity : String) (rows : List Row) : Prop where
  reachable : engine.Reachable
  healthy : engine.failAfter = none
  table : Fields.get? entity engine.tables = some rows

/-- An entity of plain fields. -/
structure Registry.Declares (registry : Registry) (entity : String)
    (descriptor : EntityDescriptor) : Prop where
  registered : registry.get? entity = some descriptor
  plain : ∀ field ∈ descriptor.fields, field.kind.Plain

/-- What gathering comes to under a plan. -/
def Plan.answer (tables : Fields (List Row)) (plan : Plan) : Outcome (List Value) :=
  match plan.remote with
  | none => (plan.localOperators.foldl Course.after (.whole [])).answer
  | some query =>
      match TableEngine.execute tables query with
      | .error failure => .error (.remote failure)
      | .ok rows =>
          (plan.localOperators.foldl Course.after
            (.whole (rows.map (Registry.plainElement plan.entity query.selectedColumns?)))).answer

theorem Plan.answer_congr {tables others : Fields (List Row)} {plan : Plan}
    (same : ∀ query, plan.remote = some query →
      Fields.get? query.entity tables = Fields.get? query.entity others) :
    plan.answer tables = plan.answer others := by
  simp only [answer]
  cases remote : plan.remote with
  | none => rfl
  | some query => simp only [TableEngine.execute_congr (same query remote)]

section Splits

variable {registry : Registry} {entity : String} {descriptor : EntityDescriptor} {rows : List Row}
  {tables : Fields (List Row)} {operators : List Operator} {limited : Prop}

theorem simulated_scan (table : Fields.get? entity tables = some rows) :
    Simulated (Query.scan entity).entity (Query.scan entity).selectedColumns? limited
      (TableEngine.execute tables (.scan entity))
      (.whole (rows.map (Registry.plainElement entity none))) := by
  rw [TableEngine.execute, table]
  exact .agree rows

theorem shaped_scan (table : Fields.get? entity tables = some rows)
    (fits : ∀ row ∈ rows, registry.Fits entity descriptor row) :
    ∀ found, TableEngine.execute tables (.scan entity) = .ok found →
      ∀ row ∈ found,
        registry.Shaped entity descriptor (Query.scan entity).selectedColumns? row := by
  intro found executed
  rw [TableEngine.execute, table] at executed
  cases executed
  exact fits

theorem shaped_of_pushed {query : Query} (table : Fields.get? entity tables = some rows)
    (fits : ∀ row ∈ rows, registry.Fits entity descriptor row)
    (pushed : Plan.pushOperators (.scan entity) operators = .ok query)
    (sendable : ∀ operator ∈ operators, operator.Sendable)
    (allowed : Operator.AllAllowed none operators)
    (takes : ∀ operator ∈ operators, operator.takesNothing = false) :
    ∀ found, TableEngine.execute tables query = .ok found →
      ∀ row ∈ found, registry.Shaped query.entity descriptor query.selectedColumns? row :=
  ((simulated_scan table).run pushed sendable allowed takes (fun _ _ => trivial)
    (shaped_scan table fits)).2

/-- What gathering comes to in the process it comes to on simulated rows too, unless the engine
refuses. -/
theorem answer_of_simulated {query : Query} {course : Course Value Unit} {back : List Operator}
    {elements : List Value}
    (simulated : Simulated entity query.selectedColumns? limited (TableEngine.execute tables query)
      course)
    (takes : ∀ operator ∈ back, operator.takesNothing = false)
    (limits : ∀ count, .take count ∈ back → limited)
    (answered : (back.foldl Course.after course).answer = .ok elements) :
    Plan.answer tables ⟨entity, some query, back, false⟩ = .ok elements ∨
      limited ∧
        ∃ failure, Plan.answer tables ⟨entity, some query, back, false⟩ = .error failure := by
  simp only [Plan.answer]
  generalize TableEngine.execute tables query = executed at simulated ⊢
  cases simulated with
  | agree found => exact .inl answered
  | stuck found stuck =>
      obtain ⟨failure, failed⟩ := (stuck.foldl_after takes).fails.answer
      rw [failed] at answered
      cases answered
  | refused failure fails =>
      by_cases isLimited : limited
      · exact .inr ⟨isLimited, _, rfl⟩
      · have failsBack := (fails isLimited).foldl_after fun count member =>
          isLimited (limits count member)
        obtain ⟨failure, failed⟩ := failsBack.answer
        rw [failed] at answered
        cases answered

/-- Handing over more operators keeps an answer, or the engine refuses, which it may do only where
something is taken. -/
theorem answer_of_longer_split {front between back : List Operator} {shorter longer : Query}
    {elements : List Value} (table : Fields.get? entity tables = some rows)
    (fits : ∀ row ∈ rows, registry.Fits entity descriptor row)
    (allowed : Operator.AllAllowed none (front ++ between ++ back))
    (takes : ∀ operator ∈ front ++ between ++ back, operator.takesNothing = false)
    (sendable : ∀ operator ∈ front ++ between, operator.Sendable)
    (pushedFront : Plan.pushOperators (.scan entity) front = .ok shorter)
    (pushedBoth : Plan.pushOperators (.scan entity) (front ++ between) = .ok longer)
    (answered : Plan.answer tables ⟨entity, some shorter, between ++ back, false⟩ =
      .ok elements) :
    Plan.answer tables ⟨entity, some longer, back, false⟩ = .ok elements ∨
      (∃ count, .take count ∈ front ++ between ++ back) ∧
        ∃ failure, Plan.answer tables ⟨entity, some longer, back, false⟩ = .error failure := by
  obtain ⟨allowedBoth, _⟩ := Operator.allAllowed_append.mp allowed
  obtain ⟨allowedFront, allowedBetween⟩ := Operator.allAllowed_append.mp allowedBoth
  have columns := TableEngine.selectedColumns?_pushOperators pushedFront
  have pushedBetween : Plan.pushOperators shorter between = .ok longer := by
    rw [Plan.pushOperators_append, pushedFront, Outcome.ok_bind] at pushedBoth
    exact pushedBoth
  have entityShorter : shorter.entity = entity := TableEngine.entity_pushOperators pushedFront
  have shaped := shaped_of_pushed table fits pushedFront
    (fun operator member => sendable operator (List.mem_append_left _ member)) allowedFront
    (fun operator member => takes operator
      (List.mem_append_left _ (List.mem_append_left _ member)))
  simp only [Plan.answer] at answered
  cases executed : TableEngine.execute tables shorter with
  | error failure =>
      rw [executed] at answered
      cases answered
  | ok found =>
      rw [executed] at answered
      simp only [List.foldl_append] at answered
      have start : Simulated shorter.entity shorter.selectedColumns?
          (∃ count, .take count ∈ front ++ between ++ back) (TableEngine.execute tables shorter)
          (.whole (found.map (Registry.plainElement entity shorter.selectedColumns?))) := by
        rw [executed, entityShorter]
        exact .agree found
      have columnsAllowed : Operator.AllAllowed shorter.selectedColumns? between := by
        rw [columns]
        exact allowedBetween
      have entityLonger := TableEngine.entity_pushOperators pushedBetween
      obtain ⟨simulated, _⟩ := start.run pushedBetween
        (fun operator member => sendable operator (List.mem_append_right _ member))
        columnsAllowed
        (fun operator member => takes operator
          (List.mem_append_left _ (List.mem_append_right _ member)))
        (fun count member => ⟨count, List.mem_append_left _ (List.mem_append_right _ member)⟩)
        shaped
      rw [entityLonger, entityShorter] at simulated
      exact answer_of_simulated simulated
        (fun operator member => takes operator (List.mem_append_right _ member))
        (fun count member => ⟨count, List.mem_append_right _ member⟩) answered

end Splits

namespace Cursor

variable {registry : Registry} {entity : String} {descriptor : EntityDescriptor} {rows : List Row}
  {cursor : Cursor}

theorem contains_of_declares (declares : registry.Declares entity descriptor) :
    registry.contains entity = true := by
  have registered := declares.registered
  rw [Registry.get?] at registered
  simp [Registry.contains, Registry.get?, registered]

theorem explain_of_sound (sound : cursor.Sound entity) (policy : Policy) :
    (cursor.under policy).explain =
      Plan.ofOperators policy (.scan entity :: cursor.chain.operators) := by
  have noScan := Operator.isScan_of_allAllowed sound.allowed
  simp only [explain, under, Chain.walk, noScan, Chain.nodes, sound.entity_eq]
  rfl

theorem explain_of_split (sound : cursor.Sound entity) (policy : Policy)
    (search : Plan.afterLastEmptyTake? cursor.chain.operators = none) :
    (cursor.under policy).explain = Plan.divide policy entity cursor.chain.operators :=
  (explain_of_sound sound policy).trans (Plan.ofOperators_eq_divide policy entity search)

theorem toArray_eq_answer {policy : Policy} {plan : Plan} {request : Request}
    {world : World TableEngine} (declares : registry.Declares entity descriptor)
    (fits : ∀ row ∈ rows, registry.Fits entity descriptor row) (sound : cursor.Sound entity)
    (serves : world.channel.Serves entity rows)
    (explained : (cursor.under policy).explain = .ok plan) :
    ((cursor.under policy).toArray (TableEngine.store registry) request world).1 =
      plan.answer world.channel.tables := by
  have planned := explained
  rw [explain_of_sound sound] at planned
  cases search : Plan.afterLastEmptyTake? cursor.chain.operators with
  | some later =>
      rw [Plan.ofOperators_of_emptyTake search] at planned
      cases planned
      rw [toArray_of_no_query explained (contains_of_declares declares) rfl,
        Course.through_reverse]
      rfl
  | none =>
      rw [Plan.ofOperators_eq_divide _ _ search] at planned
      obtain ⟨pushed, query, split, written, rfl⟩ := Plan.exists_of_divide planned
      have takes := Plan.takesNothing_of_afterLastEmptyTake? search
      have allowed := sound.allowed
      rw [← List.take_append_drop pushed cursor.chain.operators] at allowed
      have entityQuery : query.entity = entity := TableEngine.entity_pushOperators written
      have shaped := shaped_of_pushed serves.table fits written (Policy.sendable_of_pushed split)
        (Operator.allAllowed_append.mp allowed).1
        (fun operator member => takes operator (List.mem_of_mem_take member))
      simp only [Plan.answer]
      cases executed : TableEngine.execute world.channel.tables query with
      | error failure =>
          exact toArray_of_refused explained (contains_of_declares declares) rfl executed
      | ok found =>
          have readable : ∀ row ∈ found,
              registry.element entity row query.selectedColumns? =
                .ok (Registry.plainElement entity query.selectedColumns? row) := by
            intro row member
            have rowShaped := shaped found executed row member
            rw [entityQuery] at rowShaped
            exact Registry.element_of_shaped declares.registered declares.plain rowShaped
          rw [toArray_of_query explained (contains_of_declares declares) rfl serves.reachable
            serves.healthy executed readable, Course.through_reverse]

theorem exists_between {Element : Type} (elements : List Element) {count more : Nat}
    (order : count ≤ more) :
    ∃ between, elements.take count ++ between = elements.take more ∧
      between ++ elements.drop more = elements.drop count := by
  have both : elements.take count ++ (elements.take more).drop count = elements.take more := by
    have parts := List.take_append_drop count (elements.take more)
    rwa [List.take_take, Nat.min_eq_left order] at parts
  have joined : elements.take count ++
      ((elements.take more).drop count ++ elements.drop more) =
        elements.take count ++ elements.drop count := by
    rw [← List.append_assoc, both, List.take_append_drop, List.take_append_drop]
  exact ⟨(elements.take more).drop count, both, List.append_cancel_left joined⟩

theorem exists_plan_of_answered {State : Type} {store : Store State} {request : Request}
    {world : World State} {elements : List Value}
    (answered : (cursor.toArray store request world).1 = .ok elements) :
    ∃ plan, cursor.explain = .ok plan := by
  cases explained : cursor.explain with
  | ok plan => exact ⟨plan, rfl⟩
  | error failure =>
      rw [toArray, explained] at answered
      cases answered

section TwoPolicies

variable {first second : Policy} {firstRequest secondRequest : Request}
  {firstWorld secondWorld : World TableEngine} {elements : List Value}

theorem toArray_of_emptyTake {later : List Operator} (declares : registry.Declares entity descriptor)
    (fits : ∀ row ∈ rows, registry.Fits entity descriptor row) (sound : cursor.Sound entity)
    (firstServes : firstWorld.channel.Serves entity rows)
    (secondServes : secondWorld.channel.Serves entity rows)
    (search : Plan.afterLastEmptyTake? cursor.chain.operators = some later)
    (answered : ((cursor.under first).toArray (TableEngine.store registry) firstRequest
      firstWorld).1 = .ok elements) :
    ((cursor.under second).toArray (TableEngine.store registry) secondRequest secondWorld).1 =
      .ok elements := by
  have firstExplained := explain_of_sound sound first
  have secondExplained := explain_of_sound sound second
  rw [Plan.ofOperators_of_emptyTake search] at firstExplained secondExplained
  rw [toArray_eq_answer declares fits sound firstServes firstExplained] at answered
  rw [toArray_eq_answer declares fits sound secondServes secondExplained]
  exact answered

/-- Of two policies the one that hands over more keeps an answer, or it fails where something is
taken. -/
theorem toArray_of_more {fewer more : Nat} (declares : registry.Declares entity descriptor)
    (fits : ∀ row ∈ rows, registry.Fits entity descriptor row) (sound : cursor.Sound entity)
    (firstServes : firstWorld.channel.Serves entity rows)
    (secondServes : secondWorld.channel.Serves entity rows)
    (search : Plan.afterLastEmptyTake? cursor.chain.operators = none)
    (firstSplit : first.pushedFrom? 0 cursor.chain.operators = some fewer)
    (secondSplit : second.pushedFrom? 0 cursor.chain.operators = some more) (order : fewer ≤ more)
    (answered : ((cursor.under first).toArray (TableEngine.store registry) firstRequest
      firstWorld).1 = .ok elements) :
    ((cursor.under second).toArray (TableEngine.store registry) secondRequest secondWorld).1 =
        .ok elements ∨
      (∃ count, .take count ∈ cursor.chain.operators) ∧ ∃ failure,
        ((cursor.under second).toArray (TableEngine.store registry) secondRequest
          secondWorld).1 = .error failure := by
  obtain ⟨shorter, writtenShorter, firstPlan⟩ := Plan.exists_divide entity firstSplit
  obtain ⟨longer, writtenLonger, secondPlan⟩ := Plan.exists_divide entity secondSplit
  have firstExplained := (explain_of_split sound first search).trans firstPlan
  have secondExplained := (explain_of_split sound second search).trans secondPlan
  rw [toArray_eq_answer declares fits sound firstServes firstExplained] at answered
  rw [toArray_eq_answer declares fits sound secondServes secondExplained]
  have takes := Plan.takesNothing_of_afterLastEmptyTake? search
  have sendable := Policy.sendable_of_pushed secondSplit
  have allowed := sound.allowed
  -- The longer split hands over the front of the shorter one and what lies between the two.
  obtain ⟨between, both, rest⟩ := exists_between cursor.chain.operators order
  have whole : cursor.chain.operators.take fewer ++ between ++ cursor.chain.operators.drop more =
      cursor.chain.operators := by
    rw [both, List.take_append_drop]
  have sameTable : Plan.answer secondWorld.channel.tables
      ⟨entity, some longer, cursor.chain.operators.drop more, false⟩ =
        Plan.answer firstWorld.channel.tables
          ⟨entity, some longer, cursor.chain.operators.drop more, false⟩ := by
    apply Plan.answer_congr
    rintro query ⟨⟩
    rw [TableEngine.entity_pushOperators writtenLonger]
    exact secondServes.table.trans firstServes.table.symm
  rw [sameTable]
  rw [← both] at writtenLonger sendable
  rw [← rest] at answered
  rw [← whole] at takes allowed
  have kept := answer_of_longer_split firstServes.table fits allowed takes sendable
    writtenShorter writtenLonger answered
  rw [whole] at kept
  exact kept

end TwoPolicies

/-- Whatever two policies hand over, gathering gives the same elements where it succeeds under both,
and where nothing is taken it succeeds under every policy if it does when only the scan is handed
over, unless the sorts are more than can be counted. -/
theorem pushdown_preserves_answers (declares : registry.Declares entity descriptor)
    (fits : ∀ row ∈ rows, registry.Fits entity descriptor row) (built : Built entity cursor)
    (first second : Policy) (firstRequest secondRequest : Request)
    {firstWorld secondWorld : World TableEngine}
    (firstServes : firstWorld.channel.Serves entity rows)
    (secondServes : secondWorld.channel.Serves entity rows) :
    (∀ elements others,
      ((cursor.under first).toArray (TableEngine.store registry) firstRequest firstWorld).1 =
          .ok elements →
        ((cursor.under second).toArray (TableEngine.store registry) secondRequest secondWorld).1 =
          .ok others →
        elements = others) ∧
    ((∀ count, .take count ∉ cursor.chain.operators) →
      ¬ second.RunsOver 0 cursor.chain.operators → ∀ elements,
      ((cursor.under .scanOnly).toArray (TableEngine.store registry) firstRequest firstWorld).1 =
          .ok elements →
        ((cursor.under second).toArray (TableEngine.store registry) secondRequest secondWorld).1 =
          .ok elements) := by
  have sound := built.sound
  constructor
  · intro elements others answered otherAnswered
    cases search : Plan.afterLastEmptyTake? cursor.chain.operators with
    | some later =>
        have same : ((cursor.under second).toArray (TableEngine.store registry) secondRequest
            secondWorld).1 = .ok elements :=
          toArray_of_emptyTake declares fits sound firstServes secondServes search answered
        exact Except.ok.inj (same.symm.trans otherAnswered)
    | none =>
        obtain ⟨firstPlan, firstExplained⟩ := exists_plan_of_answered answered
        obtain ⟨secondPlan, secondExplained⟩ := exists_plan_of_answered otherAnswered
        rw [explain_of_split sound _ search] at firstExplained secondExplained
        obtain ⟨fewer, _, firstSplit, _⟩ := Plan.exists_of_divide firstExplained
        obtain ⟨more, _, secondSplit, _⟩ := Plan.exists_of_divide secondExplained
        rcases Nat.le_total fewer more with order | order
        · rcases toArray_of_more declares fits sound firstServes secondServes search firstSplit
            secondSplit order answered with same | ⟨_, failure, failed⟩
          · exact Except.ok.inj (same.symm.trans otherAnswered)
          · rw [failed] at otherAnswered
            cases otherAnswered
        · rcases toArray_of_more declares fits sound secondServes firstServes search secondSplit
            firstSplit order otherAnswered with same | ⟨_, failure, failed⟩
          · exact Except.ok.inj (answered.symm.trans same)
          · rw [failed] at answered
            cases answered
  · intro unlimited fewSorts elements answered
    cases search : Plan.afterLastEmptyTake? cursor.chain.operators with
    | some later =>
        exact toArray_of_emptyTake declares fits sound firstServes secondServes search answered
    | none =>
        obtain ⟨more, secondSplit⟩ := Policy.exists_pushedFrom? fewSorts
        rcases toArray_of_more declares fits sound firstServes secondServes search
          (Policy.pushedFrom?_scanOnly cursor.chain.operators) secondSplit (Nat.zero_le more)
          answered with same | ⟨⟨count, taken⟩, _⟩
        · exact same
        · exact absurd taken (unlimited count)

def citizen : EntityDescriptor :=
  ⟨"Citizen", [{ name := "adult", kind := .boolean }, { name := "name", kind := .string }]⟩

def citizens : Registry := ⟨[("Citizen", citizen)]⟩

def citizenRow (name : String) (adult : Bool) : Row :=
  [("adult", .bool adult), ("name", .string name)]

def town : List Row :=
  [citizenRow "Cleo" true, citizenRow "Bob" false, citizenRow "Ada" true, citizenRow "Dan" true]

def townEngine : TableEngine := TableEngine.insert {} "Citizen" (town.map .object)

def isAdult : Expr := .binary (.compare .equal) (.field "adult") (.literal (.bool true))

/-- The adults in the order of their names. -/
def adults : Cursor :=
  ((ofEntity {} "Citizen").extend (.expressionFilter isAdult.compile.accepts isAdult)).sortBy
    [⟨"name", true⟩]

theorem fits_citizenRow (name : String) (adult : Bool) :
    citizens.Fits "Citizen" citizen (citizenRow name adult) := by
  refine ⟨List.pairwise_pair.mpr (show compare "adult" "name" = .lt by decide), ?_, _, rfl⟩
  simp [Fields.names, citizenRow, citizen, EntityDescriptor.field?]

def gatherInTown (cursor : Cursor) (policy : Policy) : Outcome (List Value) :=
  ((cursor.under policy).toArray (TableEngine.store citizens) (.internal "adults")
    { channel := townEngine }).1

def onlyName (name : String) : Value := .record [("name", .string name)]

/-- The filter, the sort and the limit are at work on the engine or in the process. Under every
policy the names after the first one are the same, and so are the first two, whether the engine sorts
and takes them or the process does. -/
theorem adults_in_order :
    (∀ policy : Policy, policy.maxPushedSorts < 255 →
      gatherInTown ((adults.skip 1).select ["name"]) policy =
        .ok [onlyName "Cleo", onlyName "Dan"]) ∧
    gatherInTown ((adults.take 2).select ["name"]) { maxPushedSorts := 0 } =
      .ok [onlyName "Ada", onlyName "Cleo"] ∧
    gatherInTown ((adults.take 2).select ["name"]) {} = .ok [onlyName "Ada", onlyName "Cleo"] := by
  have declares : citizens.Declares "Citizen" citizen := by
    refine ⟨rfl, ?_⟩
    intro field member
    simp only [citizen, List.mem_cons, List.not_mem_nil, or_false] at member
    rcases member with rfl | rfl <;> trivial
  have fits : ∀ row ∈ town, citizens.Fits "Citizen" citizen row := by
    intro row member
    simp only [town, List.mem_cons, List.not_mem_nil, or_false] at member
    rcases member with rfl | rfl | rfl | rfl <;> exact fits_citizenRow _ _
  have built : Built "Citizen" adults := by
    have filtered : (ofEntity {} "Citizen").filterExpression isAdult = .ok _ := rfl
    exact .sortBy _ (.filterExpression (.ofEntity {}) filtered)
  let world : World TableEngine := { channel := townEngine }
  have serves : world.channel.Serves "Citizen" town := ⟨.insert _ _ .fresh, rfl, rfl⟩
  have agree {cursor : Cursor} (isBuilt : Built "Citizen" cursor) (first second : Policy) :=
    pushdown_preserves_answers declares fits isBuilt first second (.internal "adults")
      (.internal "adults") serves serves
  refine ⟨?_, ?_⟩
  · intro policy few
    have unlimited : ∀ count, .take count ∉ ((adults.skip 1).select ["name"]).chain.operators := by
      intro count taken
      simp [adults, skip, select, sortBy, extend, Chain.extend, ofEntity, Chain.scan] at taken
    have alone : gatherInTown ((adults.skip 1).select ["name"]) .scanOnly =
        .ok [onlyName "Cleo", onlyName "Dan"] := by
      cbv
    exact (agree (.select (.skip 1 built) (by decide)) policy policy).2 unlimited
      (Policy.not_runsOver_of_few few) _ alone
  · have inProcess : gatherInTown ((adults.take 2).select ["name"]) { maxPushedSorts := 0 } =
        .ok [onlyName "Ada", onlyName "Cleo"] := by
      cbv
    have succeeds : (gatherInTown ((adults.take 2).select ["name"]) {}).toOption.isSome = true := by
      cbv
    refine ⟨inProcess, ?_⟩
    cases onEngine : gatherInTown ((adults.take 2).select ["name"]) {} with
    | error failure =>
        rw [onEngine] at succeeds
        cases succeeds
    | ok others =>
        rw [(agree (.select (.take 2 built) (by decide)) { maxPushedSorts := 0 } {}).1 _ others
          inProcess onEngine]

end Cursor

end EntityCursor
