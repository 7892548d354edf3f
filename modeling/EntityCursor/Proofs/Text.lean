import EntityCursor.Text
import Mathlib.Algebra.Group.Nat.Defs

/-!
Written digits. A number that is written with zeros in front up to a width is read back by whatever
reads the digits at the front of a text, and such numbers are in the order of their texts.
Hexadecimal digits are read back one by one.
-/

namespace EntityCursor

namespace Text

def digitValues (characters : List Char) : List Nat :=
  characters.map fun character => character.toNat - '0'.toNat

theorem digit?_of_isDigit {character : Char} (isDigit : character.isDigit) :
    digit? character = some (character.toNat - '0'.toNat) := by
  simp only [Char.isDigit, Bool.and_eq_true, decide_eq_true_eq] at isDigit
  exact if_pos isDigit

theorem ofDigits_digitValues (characters : List Char) :
    ofDigits (digitValues characters) = Nat.ofDigitChars 10 characters 0 := by
  rw [ofDigits, digitValues, List.foldl_map, Nat.ofDigitChars]

variable {width value : Nat}

theorem digits_padded (width value : Nat) :
    ∀ character ∈ padded width value, character.isDigit := by
  intro character member
  rcases List.mem_append.mp member with zero | digit
  · rw [List.eq_of_mem_replicate zero]
    rfl
  · exact Nat.isDigit_of_mem_toDigits (by decide) (by decide) digit

theorem length_padded (positive : 0 < width) (fits : value < 10 ^ width) :
    (padded width value).length = width := by
  have short := (Nat.length_toDigits_le_iff (by decide) positive).mpr fits
  rw [padded, List.length_append, List.length_replicate]
  omega

@[simp]
theorem ofDigits_padded (width value : Nat) :
    ofDigits (digitValues (padded width value)) = value := by
  rw [ofDigits_digitValues, padded, Nat.ofDigitChars_append, Nat.ofDigitChars_replicate_zero,
    Nat.mul_zero, Nat.ofDigitChars_ten_toDigits]

theorem spanDigits_append {characters rest : List Char}
    (digits : ∀ character ∈ characters, character.isDigit)
    (ends : ∀ character ∈ rest.head?, digit? character = none) :
    spanDigits (characters ++ rest) = (digitValues characters, rest) := by
  induction characters with
  | nil =>
      cases rest with
      | nil => rfl
      | cons first others =>
          rw [List.nil_append, spanDigits, ends first rfl]
          rfl
  | cons first others inductionHypothesis =>
      obtain ⟨isDigit, otherDigits⟩ := List.forall_mem_cons.mp digits
      rw [List.cons_append, spanDigits, digit?_of_isDigit isDigit,
        inductionHypothesis otherDigits]
      rfl

theorem lt_of_digit? {character : Char} {digit : Nat} (read : digit? character = some digit) :
    digit < 10 := by
  rw [digit?] at read
  split at read
  · next bounds =>
      cases read
      have code : character.toNat ≤ '9'.toNat := bounds.2
      have nine : '9'.toNat = 57 := rfl
      have zero : '0'.toNat = 48 := rfl
      omega
  · cases read

theorem lt_of_mem_spanDigits (characters : List Char) :
    ∀ digit ∈ (spanDigits characters).1, digit < 10 := by
  induction characters with
  | nil =>
      intro digit member
      cases member
  | cons first rest inductionHypothesis =>
      rw [spanDigits]
      split
      · next digit read =>
          exact List.forall_mem_cons.mpr ⟨lt_of_digit? read, inductionHypothesis⟩
      · intro digit member
        cases member

theorem ofDigits_lt {digits : List Nat} (below : ∀ digit ∈ digits, digit < 10) :
    ofDigits digits < 10 ^ digits.length := by
  -- Before the digits to come stands a value that they move up by a place each.
  have folded (value : Nat) : digits.foldl (fun value digit => 10 * value + digit) value <
      (value + 1) * 10 ^ digits.length := by
    induction digits generalizing value with
    | nil => simp
    | cons first rest inductionHypothesis =>
        obtain ⟨firstBelow, restBelow⟩ := List.forall_mem_cons.mp below
        have later := inductionHypothesis restBelow (10 * value + first)
        have grows : (10 * value + first + 1) * 10 ^ rest.length ≤
            (value + 1) * 10 ^ (rest.length + 1) := by
          rw [Nat.pow_succ, Nat.mul_comm (10 ^ rest.length) 10, ← Nat.mul_assoc]
          exact Nat.mul_le_mul_right _ (by omega)
        rw [List.foldl_cons, List.length_cons]
        exact Nat.lt_of_lt_of_le later grows
  have whole := folded 0
  rwa [Nat.zero_add, Nat.one_mul] at whole

/-! The order of texts. -/

theorem ordering_ext {first second : Ordering} (less : first = .lt ↔ second = .lt)
    (greater : first = .gt ↔ second = .gt) : first = second := by
  cases first <;> cases second <;> simp_all

theorem compare_eq_lt_iff (left right : List Char) : compare left right = .lt ↔ left < right := by
  induction left generalizing right with
  | nil => cases right <;> simp
  | cons first others inductionHypothesis =>
      cases right with
      | nil => simp
      | cons rightFirst rightOthers =>
          have rest := inductionHypothesis rightOthers
          rw [List.compare_eq_compareLex] at rest ⊢
          rw [List.compareLex_cons_cons, Ordering.then_eq_lt, rest, List.cons_lt_cons_iff,
            Std.LawfulEqCmp.compare_eq_iff_eq]
          exact or_congr_left compareOfLessAndEq_eq_lt

@[simp]
theorem compare_ofList (left right : List Char) :
    compare (String.ofList left) (String.ofList right) = compare left right := by
  have less (left right : List Char) :
      compare (String.ofList left) (String.ofList right) = .lt ↔ compare left right = .lt := by
    have texts : compare (String.ofList left) (String.ofList right) = .lt ↔ _ :=
      compareOfLessAndEq_eq_lt
    rw [String.lt_iff, String.toList_ofList, String.toList_ofList] at texts
    rw [texts, compare_eq_lt_iff]
  apply ordering_ext (less left right)
  rw [Std.OrientedCmp.gt_iff_lt, Std.OrientedCmp.gt_iff_lt, less]

theorem compare_append {left right : List Char} (sameLength : left.length = right.length)
    (leftRest rightRest : List Char) :
    compare (left ++ leftRest) (right ++ rightRest) =
      (compare left right).then (compare leftRest rightRest) := by
  induction left generalizing right with
  | nil =>
      obtain rfl := List.length_eq_zero_iff.mp sameLength.symm
      rfl
  | cons first others inductionHypothesis =>
      cases right with
      | nil => cases sameLength
      | cons rightFirst rightOthers =>
          have rest := inductionHypothesis (Nat.succ.inj sameLength)
          simp only [List.compare_eq_compareLex] at rest ⊢
          rw [List.cons_append, List.cons_append, List.compareLex_cons_cons,
            List.compareLex_cons_cons, rest, Ordering.then_assoc]

theorem compare_cons (character : Char) (left right : List Char) :
    compare (character :: left) (character :: right) = compare left right := by
  have alike : compare character character = .eq := Std.ReflCmp.compare_self
  rw [List.compare_eq_compareLex, List.compareLex_cons_cons, alike]
  rfl

theorem compare_digits {left right : Char} (isDigit : left.isDigit) (otherIsDigit : right.isDigit) :
    compare (left.toNat - '0'.toNat) (right.toNat - '0'.toNat) = compare left right := by
  have code (character : Char) (isDigit : character.isDigit) :
      character.toNat - '0'.toNat + 48 = character.toNat := by
    simp only [Char.isDigit, Bool.and_eq_true, decide_eq_true_eq] at isDigit
    exact Nat.sub_add_cancel isDigit.1
  have less (left right : Char) (isDigit : left.isDigit) (otherIsDigit : right.isDigit) :
      compare (left.toNat - '0'.toNat) (right.toNat - '0'.toNat) = .lt ↔
        compare left right = .lt := by
    have below : compare left right = .lt ↔ left.toNat < right.toNat := compareOfLessAndEq_eq_lt
    have leftCode := code left isDigit
    have rightCode := code right otherIsDigit
    rw [Nat.compare_eq_lt, below]
    omega
  apply ordering_ext (less left right isDigit otherIsDigit)
  rw [Std.OrientedCmp.gt_iff_lt, Std.OrientedCmp.gt_iff_lt, less right left otherIsDigit isDigit]

theorem compare_tens {digit otherDigit : Nat} (small : digit < 10) (otherSmall : otherDigit < 10)
    (tens otherTens : Nat) :
    compare (10 * tens + digit) (10 * otherTens + otherDigit) =
      (compare tens otherTens).then (compare digit otherDigit) := by
  apply ordering_ext
  · rw [Ordering.then_eq_lt, Nat.compare_eq_lt, Nat.compare_eq_lt, Nat.compare_eq_lt,
      Nat.compare_eq_eq]
    omega
  · rw [Ordering.then_eq_gt, Nat.compare_eq_gt, Nat.compare_eq_gt, Nat.compare_eq_gt,
      Nat.compare_eq_eq]
    omega

/-- As many digits on both sides make up numbers that compare as the numbers before them, and then
as the digits do. -/
theorem compare_foldl {left right : List Char} (sameLength : left.length = right.length)
    (digits : ∀ character ∈ left, character.isDigit)
    (otherDigits : ∀ character ∈ right, character.isDigit) (before otherBefore : Nat) :
    compare ((digitValues left).foldl (fun value digit => 10 * value + digit) before)
        ((digitValues right).foldl (fun value digit => 10 * value + digit) otherBefore) =
      (compare before otherBefore).then (compare left right) := by
  induction left generalizing right before otherBefore with
  | nil =>
      obtain rfl := List.length_eq_zero_iff.mp sameLength.symm
      exact Ordering.then_eq.symm
  | cons first others inductionHypothesis =>
      cases right with
      | nil => cases sameLength
      | cons rightFirst rightOthers =>
          obtain ⟨isDigit, digits⟩ := List.forall_mem_cons.mp digits
          obtain ⟨otherIsDigit, otherDigits⟩ := List.forall_mem_cons.mp otherDigits
          have small := lt_of_digit? (digit?_of_isDigit isDigit)
          have otherSmall := lt_of_digit? (digit?_of_isDigit otherIsDigit)
          have later := inductionHypothesis (Nat.succ.inj sameLength) digits otherDigits
            (10 * before + (first.toNat - '0'.toNat))
            (10 * otherBefore + (rightFirst.toNat - '0'.toNat))
          rw [compare_tens small otherSmall, compare_digits isDigit otherIsDigit,
            Ordering.then_assoc] at later
          rw [List.compare_eq_compareLex, List.compareLex_cons_cons, ← List.compare_eq_compareLex]
          exact later

/-- Texts that begin with numbers of one width are compared by these numbers first. -/
theorem compare_padded {other : Nat} (positive : 0 < width) (fits : value < 10 ^ width)
    (otherFits : other < 10 ^ width) (rest otherRest : List Char) :
    compare (padded width value ++ rest) (padded width other ++ otherRest) =
      (compare value other).then (compare rest otherRest) := by
  have sameLength : (padded width value).length = (padded width other).length :=
    (length_padded positive fits).trans (length_padded positive otherFits).symm
  have values := compare_foldl sameLength (digits_padded width value) (digits_padded width other) 0 0
  rw [← ofDigits, ← ofDigits, ofDigits_padded, ofDigits_padded] at values
  rw [compare_append sameLength, values]
  rfl

/-! Hexadecimal digits. -/

theorem hexDigit?_hexDigit : ∀ value < 16, hexDigit? (hexDigit value) = some value := by
  decide

theorem isControl_hexDigit : ∀ value < 16, isControl (hexDigit value) = false := by
  decide

theorem isControl_fourHexDigits (value : Nat) :
    ∀ character ∈ fourHexDigits value, isControl character = false := by
  intro character member
  have small (value : Nat) : isControl (hexDigit (value % 16)) = false :=
    isControl_hexDigit _ (Nat.mod_lt _ (by decide))
  simp only [fourHexDigits, List.mem_cons, List.not_mem_nil, or_false] at member
  rcases member with rfl | rfl | rfl | rfl <;> exact small _

end Text

end EntityCursor
