import EntityCursor.Proofs.Expr.Like
import EntityCursor.Proofs.Fields

/-!
Patterns at hand. A cache only spares reading a pattern once more: as long as it holds under every
text what its engine reads for that text, evaluation gives the same with it and without it. What a
compiled expression has at hand are the literal patterns in it, each of them once.
-/

namespace EntityCursor

/-- A text stands as a literal on the right of `like` somewhere in an expression. -/
inductive Expr.HasPattern (text : String) : Expr → Prop where
  | here (negated : Bool) (left : Expr) :
      HasPattern text (.binary (.like negated) left (.literal (.string text)))
  | left {operator : BinaryOperator} {left : Expr} (right : Expr) :
      HasPattern text left → HasPattern text (.binary operator left right)
  | right {operator : BinaryOperator} (left : Expr) {right : Expr} :
      HasPattern text right → HasPattern text (.binary operator left right)
  | property {object : Expr} (name : String) :
      HasPattern text object → HasPattern text (.property object name)
  | not {operand : Expr} : HasPattern text operand → HasPattern text (.not operand)

namespace Like.Cache

/-- A cache of an engine has what the engine reads for the known texts, and for no other text. -/
structure Knows (engine : RegexEngine) (known : String → Prop) (cache : Cache) : Prop where
  engine_eq : cache.engine = engine
  read_eq : ∀ text matcher, cache.get? text = some matcher → read engine text = .ok matcher
  ascending : Fields.Ascending cache.matchers
  mem_names : ∀ text, text ∈ Fields.names cache.matchers ↔ known text

variable {engine : RegexEngine} {known : String → Prop} {cache after : Cache} {text : String}

theorem knows_empty (engine : RegexEngine) : Knows engine (fun _ => False) (empty engine) where
  engine_eq := rfl
  read_eq := by
    intro text matcher found
    cases found
  ascending := Fields.ascending_nil
  mem_names := by simp [empty, Fields.names]

theorem Knows.congr {others : String → Prop} (knows : cache.Knows engine known)
    (same : ∀ text, known text ↔ others text) : cache.Knows engine others :=
  { knows with mem_names := fun text => (knows.mem_names text).trans (same text) }

theorem Knows.add (knows : cache.Knows engine known) (added : cache.add text = .ok after) :
    after.Knows engine fun other => known other ∨ other = text := by
  rw [Cache.add] at added
  cases found : cache.get? text with
  | some matcher =>
      rw [found] at added
      cases added
      refine knows.congr fun other => ?_
      have present : known text := by
        rw [← knows.mem_names, ← Fields.get?_isSome_iff_mem_names, ← Cache.get?, found]
        rfl
      constructor
      · exact .inl
      · rintro (old | rfl)
        · exact old
        · exact present
  | none =>
      rw [found] at added
      obtain ⟨matcher, success, added⟩ := Outcome.bind_eq_ok.mp added
      cases added
      rw [knows.engine_eq] at success
      have named := fun other => Fields.get?_set text other matcher cache.matchers
      refine ⟨knows.engine_eq, ?_, Fields.ascending_set _ _ knows.ascending, ?_⟩
      · intro other held found
        rw [Cache.get?, named] at found
        split at found
        · next same =>
            cases found
            rw [same, success]
        · exact knows.read_eq other held found
      · intro other
        rw [← knows.mem_names, ← Fields.get?_isSome_iff_mem_names,
          ← Fields.get?_isSome_iff_mem_names, named]
        by_cases same : other = text <;> simp [same]

/-- What is known is only found sooner. -/
theorem Knows.relates (knows : cache.Knows engine known) (value operand : Value) :
    cache.relates value operand = (empty engine).relates value operand := by
  cases value with
  | string text =>
      cases operand with
      | string pattern =>
          rw [Cache.relates, Cache.relates, Cache.accepts, Cache.accepts, knows.engine_eq]
          cases found : cache.get? pattern with
          | none => rfl
          | some matcher => simp [empty, get?, knows.read_eq pattern matcher found]
      | _ => rfl
  | _ => rfl

theorem Knows.exists_add (knows : cache.Knows .builtIn known) (text : String) :
    ∃ after, cache.add text = .ok after := by
  rw [Cache.add, knows.engine_eq, read_builtIn]
  cases cache.get? text with
  | some matcher => exact ⟨_, rfl⟩
  | none => exact ⟨_, rfl⟩

end Like.Cache

namespace Expr

open Like.Cache (Knows knows_empty)

variable {engine : RegexEngine} {known : String → Prop} {cache after : Like.Cache}

@[simp]
theorem hasPattern_binary_iff {text : String} {operator : BinaryOperator} {left right : Expr}
    (different : ∀ negated pattern, operator = .like negated → right ≠ .literal (.string pattern)) :
    (binary operator left right).HasPattern text ↔
      left.HasPattern text ∨ right.HasPattern text := by
  constructor
  · rintro (_ | ⟨_, within⟩ | ⟨_, within⟩)
    · exact absurd rfl (different _ _ rfl)
    · exact .inl within
    · exact .inr within
  · rintro (within | within)
    · exact .left right within
    · exact .right left within

/-- The literal patterns of an expression come to those that are known. -/
theorem knows_addPatterns (knows : cache.Knows engine known) {expression : Expr}
    (added : expression.addPatterns cache = .ok after) :
    after.Knows engine fun text => known text ∨ expression.HasPattern text := by
  fun_induction addPatterns cache expression generalizing known after with
  | case1 cache negated left pattern inductionHypothesis =>
      obtain ⟨between, addedPattern, added⟩ := Outcome.bind_eq_ok.mp added
      refine (inductionHypothesis between (knows.add addedPattern) added).congr fun text => ?_
      rw [or_assoc]
      refine or_congr_right ?_
      constructor
      · rintro (rfl | within)
        · exact .here negated left
        · exact .left _ within
      · rintro (_ | ⟨_, within⟩ | ⟨_, within⟩)
        · exact .inl rfl
        · exact .inr within
        · cases within
  | case2 cache operator left right different leftHypothesis rightHypothesis =>
      obtain ⟨between, addedLeft, added⟩ := Outcome.bind_eq_ok.mp added
      refine (rightHypothesis between (leftHypothesis knows addedLeft) added).congr fun text => ?_
      rw [hasPattern_binary_iff different, or_assoc]
  | case3 cache object name inductionHypothesis =>
      refine (inductionHypothesis knows added).congr fun text => or_congr_right ?_
      exact ⟨.property name, fun | .property _ within => within⟩
  | case4 cache operand inductionHypothesis =>
      refine (inductionHypothesis knows added).congr fun text => or_congr_right ?_
      exact ⟨.not, fun | .not within => within⟩
  | case5 =>
      cases added
      exact knows.congr fun text => ⟨.inl, fun | .inl old => old⟩
  | case6 =>
      cases added
      exact knows.congr fun text => ⟨.inl, fun | .inl old => old⟩

theorem evaluateWith_of_knows (knows : cache.Knows engine known) (element : Value)
    (expression : Expr) :
    expression.evaluateWith cache element = expression.evaluateWith (.empty engine) element := by
  induction expression with
  | literal value => rfl
  | parameter position => rfl
  | property object name inductionHypothesis =>
      rw [evaluateWith, evaluateWith, inductionHypothesis]
  | not operand inductionHypothesis =>
      rw [evaluateWith, evaluateWith, inductionHypothesis]
  | binary operator left right leftHypothesis rightHypothesis =>
      cases operator with
      | like negated =>
          rw [evaluateWith, evaluateWith, leftHypothesis, rightHypothesis]
          simp only [knows.relates]
      | _ => rw [evaluateWith, evaluateWith, leftHypothesis, rightHypothesis]

theorem accepts_of_knows (knows : cache.Knows engine known) (expression : Expr) (element : Value) :
    (CompiledExpr.mk expression cache).accepts element = expression.acceptsBy engine element := by
  rw [CompiledExpr.accepts, acceptsBy, evaluateWith_of_knows knows]

theorem exists_addPatterns (knows : cache.Knows .builtIn known) (expression : Expr) :
    ∃ after, expression.addPatterns cache = .ok after := by
  fun_induction addPatterns cache expression generalizing known with
  | case1 cache negated left pattern inductionHypothesis =>
      obtain ⟨between, addedPattern⟩ := knows.exists_add pattern
      rw [addedPattern, Outcome.ok_bind]
      exact inductionHypothesis between (knows.add addedPattern)
  | case2 cache operator left right _ leftHypothesis rightHypothesis =>
      obtain ⟨between, addedLeft⟩ := leftHypothesis knows
      rw [addedLeft, Outcome.ok_bind]
      exact rightHypothesis between (knows_addPatterns knows addedLeft)
  | case3 cache object name inductionHypothesis => exact inductionHypothesis knows
  | case4 cache operand inductionHypothesis => exact inductionHypothesis knows
  | case5 => exact ⟨_, rfl⟩
  | case6 => exact ⟨_, rfl⟩

@[simp]
theorem addPatterns_builtIn (expression : Expr) :
    expression.addPatterns (.empty .builtIn) = .ok expression.patterns := by
  obtain ⟨after, added⟩ := exists_addPatterns (knows_empty .builtIn) expression
  rw [patterns, added]

@[simp]
theorem compileBy_builtIn (expression : Expr) :
    expression.compileBy .builtIn = .ok expression.compile := by
  rw [compileBy, addPatterns_builtIn, compile]
  rfl

theorem accepts_of_compileBy {expression : Expr} {compiled : CompiledExpr}
    (compiles : expression.compileBy engine = .ok compiled) (element : Value) :
    compiled.accepts element = expression.acceptsBy engine element := by
  obtain ⟨patterns, added, same⟩ := Outcome.bind_eq_ok.mp compiles
  cases same
  exact accepts_of_knows (knows_addPatterns (knows_empty engine) added) expression element

@[simp]
theorem accepts_compile (expression : Expr) (element : Value) :
    expression.compile.accepts element = expression.accepts element :=
  accepts_of_compileBy (compileBy_builtIn expression) element

/-- A compiled expression accepts and refuses what the expression does, with the same failures, and
it has as many patterns at hand as there are different literal patterns in the expression. -/
theorem compiled_agrees {expression : Expr} {compiled : CompiledExpr}
    (compiles : expression.compileBy engine = .ok compiled) :
    (∀ element, compiled.accepts element = expression.acceptsBy engine element) ∧
      ∃ texts : List String, texts.Nodup ∧ (∀ text, text ∈ texts ↔ expression.HasPattern text) ∧
        compiled.patternCount = texts.length := by
  obtain ⟨patterns, added, same⟩ := Outcome.bind_eq_ok.mp compiles
  cases same
  have knows := knows_addPatterns (knows_empty engine) added
  refine ⟨accepts_of_compileBy compiles, Fields.names patterns.matchers,
    knows.ascending.nodup_names, ?_, ?_⟩
  · intro text
    rw [knows.mem_names, false_or]
  · rw [CompiledExpr.patternCount, Fields.names, List.length_map]

def namedAlike : Expr :=
  .binary .and
    (.binary .or (.binary (.like false) (.field "name") (.literal (.string "Al%")))
      (.binary .and (.not (.binary (.like true) (.field "name") (.literal (.string "B_b"))))
        (.binary (.like false) (.field "name") (.literal (.string "Al%")))))
    (.binary (.like false) (.field "name") (.field "name"))

theorem compiled_agrees_on_alice :
    namedAlike.compileBy .builtIn = .ok namedAlike.compile ∧
    namedAlike.compile.accepts (.entity "Person" [("name", .string "Alice")]) =
      namedAlike.acceptsBy .builtIn (.entity "Person" [("name", .string "Alice")]) ∧
    ∃ texts : List String, texts.Nodup ∧ (∀ text, text ∈ texts ↔ namedAlike.HasPattern text) ∧
      namedAlike.compile.patternCount = texts.length := by
  have compiles := compileBy_builtIn namedAlike
  obtain ⟨agrees, counts⟩ := compiled_agrees compiles
  exact ⟨compiles, agrees _, counts⟩

/-- The repeated pattern is at hand once. -/
example : namedAlike.compile.patternCount = 2 := by decide +kernel

end Expr

end EntityCursor
