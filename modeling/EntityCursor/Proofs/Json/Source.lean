import EntityCursor.Json.Source
import EntityCursor.Proofs.Text

/-!
Reading strings back. A string may be spelled in many ways; as long as every character is spelled as
one piece that stands for it, reading gives the text, and goes on behind the closing quotation mark.
-/

namespace EntityCursor

namespace Source

variable {character : Char} {rest : List Char}

theorem skipSpace_cons (noSpace : isSpace character = false) (rest : List Char) :
    skipSpace (character :: rest) = character :: rest := by
  rw [skipSpace, List.dropWhile_cons_of_neg (by simp [noSpace])]

/-- A spelling is read as one piece, which stands for a character. -/
def Spells (spelling : List Char) (character : Char) : Prop :=
  ∃ piece, (∀ rest, pieces (spelling ++ rest) =
      (pieces rest).map fun (others, after) => (piece :: others, after)) ∧
    ∀ others, assemble? (piece :: others) = (assemble? others).map (character :: ·)

theorem spells_short {letter : Char} (short : shortEscape? letter = some character) :
    Spells ['\\', letter] character := by
  refine ⟨.inl character, fun rest => ?_, fun others => by rw [assemble?]⟩
  have noCode : letter ≠ 'u' := by
    rintro rfl
    cases short
  rw [List.cons_append, List.singleton_append, pieces]
  · rw [short]
    cases pieces rest <;> rfl
  · intro _ _ _ _ _ isCode
    exact absurd isCode noCode

/-- A number that is not half of a surrogate pair stands for its character, whatever follows. -/
theorem spells_code {code : Nat} (below : code < 0xD800) :
    Spells ('\\' :: 'u' :: Text.fourHexDigits code) (Char.ofNat code) := by
  refine ⟨.inr code, fun rest => ?_, fun others => ?_⟩
  · have small (value : Nat) : Text.hexDigit? (Text.hexDigit (value % 16)) = some (value % 16) :=
      Text.hexDigit?_hexDigit _ (Nat.mod_lt _ (by decide))
    have whole : 4096 * (code / 4096 % 16) + 256 * (code / 256 % 16) + 16 * (code / 16 % 16) +
        code % 16 = code := by omega
    rw [Text.fourHexDigits, List.cons_append, List.cons_append, List.cons_append, List.cons_append,
      List.cons_append, List.cons_append, List.nil_append, pieces, small, small, small, small]
    cases read : pieces rest with
    | none => rfl
    | some found => simp [whole]
  · -- Only the first half of a pair looks at the number behind it.
    have noHigh : ¬ (0xD800 ≤ code ∧ code < 0xDC00) := by omega
    have noLow : ¬ (0xDC00 ≤ code ∧ code < 0xE000) := by omega
    have noHalf : ¬ (0xD800 ≤ code ∧ code < 0xE000) := by omega
    rcases others with _ | ⟨_ | low, later⟩
    · exact if_neg noHalf
    · exact if_neg noHalf
    · exact (if_neg noHigh).trans (if_neg noLow)

theorem spells_plain (noQuote : character ≠ '"') (noEscape : character ≠ '\\')
    (printable : 0x20 ≤ character.toNat) : Spells [character] character := by
  refine ⟨.inl character, fun rest => ?_, fun others => by rw [assemble?]⟩
  rw [List.singleton_append, pieces]
  · rw [if_neg (Nat.not_lt.mpr printable)]
    cases pieces rest <;> rfl
  · exact noQuote
  · exact fun _ _ _ _ _ isEscape => absurd isEscape noEscape
  · exact fun _ _ isEscape => absurd isEscape noEscape

variable {spell : Char → List Char}

theorem pieces_of_spells (spells : ∀ character, Spells (spell character) character)
    (text rest : List Char) :
    ∃ read, pieces (text.flatMap spell ++ '"' :: rest) = some (read, rest) ∧
      assemble? read = some text := by
  induction text with
  | nil => exact ⟨[], by rw [List.flatMap_nil, List.nil_append, pieces], rfl⟩
  | cons first others inductionHypothesis =>
      obtain ⟨read, readOthers, assembled⟩ := inductionHypothesis
      obtain ⟨piece, readFirst, standsFor⟩ := spells first
      refine ⟨piece :: read, ?_, ?_⟩
      · rw [List.flatMap_cons, List.append_assoc, readFirst, readOthers]
        rfl
      · rw [standsFor, assembled]
        rfl

theorem string?_of_spells (spells : ∀ character, Spells (spell character) character)
    (text : String) (rest : List Char) :
    string? (text.toList.flatMap spell ++ '"' :: rest) = some (some text, rest) := by
  obtain ⟨read, readText, assembled⟩ := pieces_of_spells spells text.toList rest
  rw [string?, readText]
  simp [assembled]

/-! Objects. -/

@[simp]
theorem ofMembers_named (members : List (String × Source)) :
    ofMembers (members.map fun member => (some member.1, member.2)) = .object members := by
  have named : (members.map fun member => (some member.1, member.2)).mapM
      (fun member => member.1.map (·, member.2)) = some members := by
    induction members with
    | nil => rfl
    | cons member rest inductionHypothesis => simp [List.mapM_cons, inductionHypothesis]
  unfold ofMembers
  rw [named]

end Source

end EntityCursor
