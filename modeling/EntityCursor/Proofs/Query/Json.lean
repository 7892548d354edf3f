import EntityCursor.Proofs.Expr.Json
import EntityCursor.Query.Json

/-!
Query documents read back. Main statement: a query comes back from its document if and only if its
expressions come back from theirs and its counts fit into 64 bits; columns and sort keys always come
back.
-/

namespace EntityCursor

@[simp]
theorem Json.texts?_ofStrings (texts : List String) :
    (ofStrings texts).toSource.texts? = some texts := by
  change (itemsToSource (texts.map .string)).mapM Source.text? = some texts
  induction texts with
  | nil => rfl
  | cons text rest inductionHypothesis =>
      rw [List.map_cons, itemsToSource, List.mapM_cons, inductionHypothesis]
      rfl

namespace SortKey

@[simp]
theorem ofSource?_toJson (key : SortKey) : ofSource? key.toJson.toSource = some key := rfl

@[simp]
theorem listOfSource?_toJson (keys : List SortKey) :
    listOfSource? (Json.array (keys.map toJson)).toSource = some keys := by
  change (Json.itemsToSource (keys.map toJson)).mapM ofSource? = some keys
  induction keys with
  | nil => rfl
  | cons key rest inductionHypothesis =>
      rw [List.map_cons, Json.itemsToSource, List.mapM_cons, ofSource?_toJson, inductionHypothesis]
      rfl

end SortKey

namespace Query

/-- All number literals are finite, and all counts and positions are numbers of 64 bits. -/
def Portable : Query → Prop
  | .scan _ => True
  | .filter expression inner => expression.Portable ∧ inner.Portable
  | .select _ inner => inner.Portable
  | .take count inner => count < 2 ^ 64 ∧ inner.Portable
  | .skip count inner => count < 2 ^ 64 ∧ inner.Portable
  | .sort _ inner => inner.Portable

section Forms

variable (numbered : Bool)

theorem ofJson?_scan (name : Json) :
    ofJson? numbered (.object [("name", name), ("type", .string "BaseEntity")]) =
      (do return .scan (← Expr.nameOfJson? name)) := rfl

theorem ofJson?_filter (expression inner : Json) :
    ofJson? numbered (.object [("expression", expression), ("inner", inner),
        ("type", .string "ExpressionFilter")]) =
      (do return .filter (← Expr.ofJson? true expression) (← ofJson? true inner)) := rfl

theorem ofJson?_select (columns inner : Json) :
    ofJson? numbered (.object [("columns", columns), ("inner", inner),
        ("type", .string "ColumnsSelect")]) =
      (do return .select (← columns.toSource.texts?) (← ofJson? true inner)) := rfl

theorem ofJson?_take (count inner : Json) :
    ofJson? numbered (.object [("count", count), ("inner", inner), ("type", .string "Take")]) =
      (do return .take (← Expr.positionOfJson? count) (← ofJson? true inner)) := rfl

theorem ofJson?_skip (count inner : Json) :
    ofJson? numbered (.object [("count", count), ("inner", inner), ("type", .string "Skip")]) =
      (do return .skip (← Expr.positionOfJson? count) (← ofJson? true inner)) := rfl

theorem ofJson?_sort (inner keys : Json) :
    ofJson? numbered (.object [("inner", inner), ("keys", keys), ("type", .string "SortBy")]) =
      (do return .sort (← SortKey.listOfSource? keys.toSource) (← ofJson? true inner)) := rfl

theorem ofJson?_toJson_iff (query : Query) :
    ofJson? numbered query.toJson = some query ↔ query.Portable := by
  induction query generalizing numbered with
  | scan entity =>
      rw [toJson, ofJson?_scan]
      exact iff_of_true rfl trivial
  | filter expression inner inductionHypothesis =>
      rw [toJson, ofJson?_filter, Portable, ← Expr.ofJson?_toJson_iff true,
        ← inductionHypothesis true]
      simp [Option.bind_eq_some_iff]
  | select columns inner inductionHypothesis =>
      rw [toJson, ofJson?_select, Json.texts?_ofStrings, Portable, ← inductionHypothesis true]
      simp [Option.bind_eq_some_iff]
  | take count inner inductionHypothesis =>
      rw [toJson, ofJson?_take, Portable, ← Expr.positionOfJson?_integer_iff,
        ← inductionHypothesis true]
      simp [Option.bind_eq_some_iff]
  | skip count inner inductionHypothesis =>
      rw [toJson, ofJson?_skip, Portable, ← Expr.positionOfJson?_integer_iff,
        ← inductionHypothesis true]
      simp [Option.bind_eq_some_iff]
  | sort keys inner inductionHypothesis =>
      rw [toJson, ofJson?_sort, SortKey.listOfSource?_toJson, Portable, ← inductionHypothesis true]
      simp [Option.bind_eq_some_iff]

end Forms

/-- Reading back the document of a query yields the query if and only if all its number literals are
finite and its counts and positions are numbers of 64 bits. -/
theorem read?_toJson_iff (query : Query) : read? query.toJson = some query ↔ query.Portable :=
  query.ofJson?_toJson_iff false

end Query

end EntityCursor
