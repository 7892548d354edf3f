import EntityCursor.Expr.Basic
import EntityCursor.Expr.Like

/-!
Evaluation of expressions. `and` and `or` look at their right side only when the left side does not
decide, null counts as false, and every other value that is no boolean is refused as a condition. A
compiled expression has the patterns of its literals at hand, so that a refused one is met before
the first element; patterns that are computed from the element are read when they are met.
-/

namespace EntityCursor

namespace Value

def condition? : Value → Outcome Bool
  | .bool flag => .ok flag
  | .null => .ok false
  | other => .error (.invalidFilter (.notACondition other.kind))

end Value

namespace Like

/-- Patterns that were read by an engine, under their texts. -/
structure Cache where
  engine : RegexEngine
  matchers : Fields Matcher

namespace Cache

def empty (engine : RegexEngine) : Cache := ⟨engine, []⟩

def get? (cache : Cache) (text : String) : Option Matcher :=
  Fields.get? text cache.matchers

def add (cache : Cache) (text : String) : Outcome Cache :=
  match cache.get? text with
  | some _ => .ok cache
  | none => do
      let matcher ← read cache.engine text
      return { cache with matchers := Fields.set text matcher cache.matchers }

def accepts (cache : Cache) (pattern text : String) : Outcome Bool :=
  match cache.get? pattern with
  | some matcher => .ok (matcher text)
  | none => do
      let matcher ← read cache.engine pattern
      return matcher text

def relates (cache : Cache) : Value → Value → Outcome Bool
  | .string text, .string pattern => cache.accepts pattern text
  | _, _ => .ok false

end Cache

end Like

namespace Expr

def evaluateWith (cache : Like.Cache) (element : Value) : Expr → Outcome Value
  | .literal value => .ok value.toValue
  | .parameter position =>
      if position = 0 then .ok element else .error (.invalidFilter (.unboundParameter position))
  | .property object name => do
      let value ← object.evaluateWith cache element
      value.fieldOrNull name
  | .not operand => do
      let value ← operand.evaluateWith cache element
      let holds ← value.condition?
      return .bool !holds
  | .binary .and left right => do
      let leftValue ← left.evaluateWith cache element
      if ← leftValue.condition? then
        let rightValue ← right.evaluateWith cache element
        let holds ← rightValue.condition?
        return .bool holds
      else return .bool false
  | .binary .or left right => do
      let leftValue ← left.evaluateWith cache element
      if ← leftValue.condition? then return .bool true
      else
        let rightValue ← right.evaluateWith cache element
        let holds ← rightValue.condition?
        return .bool holds
  | .binary (.like negated) left right => do
      let leftValue ← left.evaluateWith cache element
      let rightValue ← right.evaluateWith cache element
      let alike ← cache.relates leftValue rightValue
      return .bool (alike != negated)
  | .binary (.compare comparison) left right => do
      let leftValue ← left.evaluateWith cache element
      let rightValue ← right.evaluateWith cache element
      return .bool (comparison.holds leftValue rightValue)

def evaluate (expression : Expr) (element : Value) : Outcome Value :=
  expression.evaluateWith (.empty .builtIn) element

/-- Whether an expression holds for an element, where patterns are read by the given engine as they
are met. -/
def acceptsBy (engine : RegexEngine) (expression : Expr) (element : Value) : Outcome Bool := do
  let value ← expression.evaluateWith (.empty engine) element
  value.condition?

def accepts (expression : Expr) (element : Value) : Outcome Bool :=
  expression.acceptsBy .builtIn element

/-- Adds the literal patterns of an expression to a cache, unless one of them is refused. -/
def addPatterns (cache : Like.Cache) : Expr → Outcome Like.Cache
  | .binary (.like _) left (.literal (.string pattern)) => do
      left.addPatterns (← cache.add pattern)
  | .binary _ left right => do right.addPatterns (← left.addPatterns cache)
  | .property object _ => object.addPatterns cache
  | .not operand => operand.addPatterns cache
  | .literal _ => .ok cache
  | .parameter _ => .ok cache

end Expr

structure CompiledExpr where
  expression : Expr
  patterns : Like.Cache

namespace Expr

def compileBy (engine : RegexEngine) (expression : Expr) : Outcome CompiledExpr := do
  let patterns ← expression.addPatterns (.empty engine)
  return ⟨expression, patterns⟩

/-- The patterns of the literals, read by the engine at hand, which refuses none. -/
def patterns (expression : Expr) : Like.Cache :=
  match expression.addPatterns (.empty .builtIn) with
  | .ok patterns => patterns
  | .error _ => .empty .builtIn

def compile (expression : Expr) : CompiledExpr :=
  ⟨expression, expression.patterns⟩

end Expr

namespace CompiledExpr

def accepts (compiled : CompiledExpr) (element : Value) : Outcome Bool := do
  let value ← compiled.expression.evaluateWith compiled.patterns element
  value.condition?

def patternCount (compiled : CompiledExpr) : Nat :=
  compiled.patterns.matchers.length

end CompiledExpr

end EntityCursor
