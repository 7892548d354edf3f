import EntityCursor.Expr.Evaluate
import EntityCursor.Proofs.Expr.Regex
import EntityCursor.Proofs.Outcome
import Mathlib.Data.List.Forall2

/-!
What patterns match. A text matches a pattern if it can be cut into consecutive parts, one for each
character of the pattern. The source text written for a pattern denotes a regular expression with
exactly these matches, whatever the characters of the pattern mean to the engine, so that every
engine that does as documented decides the question. The engine at hand is one of them; it reads
back what is written for patterns and tests the endings of a text.
-/

namespace EntityCursor

namespace Like

/-- What a piece of a pattern stands for. -/
def Piece.Takes : Piece → List Char → Prop
  | .anyRun, _ => True
  | .anyOne, part => part.length = 1
  | .exactly character, part => part = [character]

def Piece.item : Piece → Regex.Item
  | .anyRun => .run .any
  | .anyOne => .one .any
  | .exactly character => .one (.exactly character)

/-- A text is cut into consecutive parts, one for each piece of a pattern. -/
def Pattern.Cuts (pattern : Pattern) (text : List Char) : Prop :=
  ∃ parts : List (List Char), text = parts.flatten ∧ List.Forall₂ Piece.Takes pattern parts

namespace Pattern

variable {piece : Piece} {pattern : Pattern} {character : Char} {text : List Char}

@[simp]
theorem cuts_nil : Cuts [] text ↔ text = [] := by
  simp [Cuts]

theorem cuts_cons : Cuts (piece :: pattern) text ↔
    ∃ taken rest, text = taken ++ rest ∧ piece.Takes taken ∧ pattern.Cuts rest := by
  constructor
  · rintro ⟨parts, rfl, takes⟩
    cases takes with
    | @cons _ taken _ others takesFirst takesRest =>
        exact ⟨taken, others.flatten, rfl, takesFirst, others, rfl, takesRest⟩
  · rintro ⟨taken, rest, rfl, takesFirst, others, rfl, takesRest⟩
    exact ⟨taken :: others, rfl, .cons takesFirst takesRest⟩

@[simp]
theorem cuts_anyRun_nil : Cuts (.anyRun :: pattern) [] ↔ pattern.Cuts [] := by
  simp [cuts_cons, Piece.Takes]

theorem cuts_anyRun_cons : Cuts (.anyRun :: pattern) (character :: text) ↔
    pattern.Cuts (character :: text) ∨ Cuts (.anyRun :: pattern) text := by
  rw [cuts_cons, cuts_cons]
  constructor
  · rintro ⟨taken, rest, split, -, cuts⟩
    cases taken with
    | nil => exact .inl (split ▸ cuts)
    | cons first more =>
        cases split
        exact .inr ⟨more, rest, rfl, trivial, cuts⟩
  · rintro (cuts | ⟨taken, rest, rfl, -, cuts⟩)
    · exact ⟨[], _, rfl, trivial, cuts⟩
    · exact ⟨character :: taken, rest, rfl, trivial, cuts⟩

@[simp]
theorem cuts_anyOne_cons : Cuts (.anyOne :: pattern) (character :: text) ↔ pattern.Cuts text := by
  rw [cuts_cons]
  constructor
  · rintro ⟨taken, rest, split, single, cuts⟩
    obtain ⟨only, rfl⟩ := List.length_eq_one_iff.mp single
    cases split
    exact cuts
  · intro cuts
    exact ⟨[character], text, rfl, rfl, cuts⟩

@[simp]
theorem cuts_exactly_cons {other : Char} :
    Cuts (.exactly other :: pattern) (character :: text) ↔
      character = other ∧ pattern.Cuts text := by
  rw [cuts_cons]
  constructor
  · rintro ⟨taken, rest, split, rfl, cuts⟩
    cases split
    exact ⟨rfl, cuts⟩
  · rintro ⟨rfl, cuts⟩
    exact ⟨[character], text, rfl, rfl, cuts⟩

@[simp]
theorem not_cuts_nil (taken : piece ≠ .anyRun) : ¬Cuts (piece :: pattern) [] := by
  rw [cuts_cons]
  rintro ⟨part, rest, split, takes, -⟩
  obtain ⟨rfl, -⟩ := List.append_eq_nil_iff.mp split.symm
  cases piece with
  | anyRun => exact taken rfl
  | anyOne => cases takes
  | exactly character => cases takes

/-! The test. It goes over all endings of a text at once, and what it finds for the endings after
the first one is what it finds for the text without its first character. -/

theorem matchingEndings_nil (pattern : Pattern) :
    matchingEndings [] pattern = [(matchingEndings [] pattern).headD false] := by
  induction pattern with
  | nil => rfl
  | cons piece pattern inductionHypothesis =>
      cases piece with
      | anyRun =>
          rw [matchingEndings, inductionHypothesis]
          rfl
      | anyOne => rfl
      | exactly character => rfl

theorem matchingEndings_cons (pattern : Pattern) (character : Char) (text : List Char) :
    matchingEndings (character :: text) pattern =
      (matchingEndings (character :: text) pattern).headD false ::
        matchingEndings text pattern := by
  induction pattern with
  | nil => rfl
  | cons piece pattern inductionHypothesis =>
      cases piece <;>
      · rw [matchingEndings, inductionHypothesis]
        rfl

@[simp]
theorem headD_matchingEndings_iff (pattern : Pattern) (text : List Char) :
    (matchingEndings text pattern).headD false = true ↔ pattern.Cuts text := by
  induction pattern generalizing text with
  | nil => cases text <;> simp [matchingEndings, emptyEndings]
  | cons piece pattern inductionHypothesis =>
      cases piece with
      | anyRun =>
          -- A run takes nothing or one character more, so this case goes by the text as well.
          induction text with
          | nil =>
              rw [cuts_anyRun_nil, ← inductionHypothesis, matchingEndings, matchingEndings_nil]
              simp [runMore]
          | cons character rest later =>
              rw [cuts_anyRun_cons, ← inductionHypothesis, ← later, matchingEndings,
                matchingEndings_cons]
              simp [runMore, matchingEndings]
      | anyOne =>
          cases text with
          | nil => simp [matchingEndings, oneMore]
          | cons character rest =>
              rw [cuts_anyOne_cons, ← inductionHypothesis, matchingEndings, matchingEndings_cons]
              simp [oneMore]
      | exactly other =>
          cases text with
          | nil => simp [matchingEndings, oneMore]
          | cons character rest =>
              rw [cuts_exactly_cons, ← inductionHypothesis, matchingEndings, matchingEndings_cons]
              simp [oneMore]

@[simp]
theorem accepts_iff_cuts (pattern : Pattern) (text : String) :
    pattern.accepts text = true ↔ pattern.Cuts text.toList :=
  headD_matchingEndings_iff pattern text.toList

/-! The regular expression of a pattern. -/

theorem spans_items_iff {before part after : List Char} :
    Regex.Spans (pattern.map Piece.item ++ [.finish]) before part after ↔
      after = [] ∧ pattern.Cuts part := by
  induction pattern generalizing before part with
  | nil =>
      rw [List.map_nil, List.nil_append, cuts_nil]
      constructor
      · rintro (_ | _ | ⟨_⟩)
        exact ⟨rfl, rfl⟩
      · rintro ⟨rfl, rfl⟩
        exact .finish .nil
  | cons piece pattern inductionHypothesis =>
      rw [List.map_cons, List.cons_append]
      cases piece with
      | anyRun =>
          rw [cuts_cons]
          constructor
          · rintro (_ | _ | _ | _ | ⟨-, spans⟩)
            obtain ⟨rfl, cuts⟩ := inductionHypothesis.mp spans
            exact ⟨rfl, _, _, rfl, trivial, cuts⟩
          · rintro ⟨rfl, taken, rest, rfl, -, cuts⟩
            exact .run (fun _ _ => trivial) (inductionHypothesis.mpr ⟨rfl, cuts⟩)
      | anyOne =>
          constructor
          · rintro (_ | _ | _ | ⟨-, spans⟩)
            rw [cuts_anyOne_cons]
            exact inductionHypothesis.mp spans
          · rintro ⟨rfl, cuts⟩
            cases part with
            | nil => exact absurd cuts (not_cuts_nil (by simp))
            | cons character rest =>
                rw [cuts_anyOne_cons] at cuts
                exact .one trivial (inductionHypothesis.mpr ⟨rfl, cuts⟩)
      | exactly other =>
          constructor
          · rintro (_ | _ | _ | ⟨rfl, spans⟩)
            rw [cuts_exactly_cons]
            obtain ⟨ends, cuts⟩ := inductionHypothesis.mp spans
            exact ⟨ends, rfl, cuts⟩
          · rintro ⟨rfl, cuts⟩
            cases part with
            | nil => exact absurd cuts (not_cuts_nil (by simp))
            | cons character rest =>
                rw [cuts_exactly_cons] at cuts
                exact .one cuts.1 (inductionHypothesis.mpr ⟨rfl, cuts.2⟩)

def items (pattern : Pattern) : List Regex.Item :=
  .start :: (pattern.map Piece.item ++ [.finish])

theorem found_items_iff (pattern : Pattern) (text : List Char) :
    Regex.Found pattern.items text ↔ pattern.Cuts text := by
  constructor
  · rintro ⟨before, part, after, rfl, spans⟩
    cases spans with
    | start spans =>
        obtain ⟨rfl, cuts⟩ := spans_items_iff.mp spans
        simpa using cuts
  · intro cuts
    exact ⟨[], text, [], by simp, .start (spans_items_iff.mpr ⟨rfl, cuts⟩)⟩

/-! Writing the source text. -/

theorem spelled_items {engine : RegexEngine} (lawful : engine.Lawful) (characters : List Char) :
    Regex.Spelled ((characters.map Piece.ofChar).map Piece.item ++ [.finish])
      (characters.flatMap (spelling engine) ++ ['$']) := by
  induction characters with
  | nil => exact .finish .nil
  | cons character rest inductionHypothesis =>
      rw [List.map_cons, List.map_cons, List.cons_append, List.flatMap_cons, List.append_assoc,
        spelling]
      cases Piece.ofChar character with
      | anyRun => exact .run .any inductionHypothesis
      | anyOne => exact .one .any inductionHypothesis
      | exactly only => exact .one (lawful.escape_spells only) inductionHypothesis

/-- The source text of a pattern denotes the regular expression of its pieces. -/
theorem denotes_source {engine : RegexEngine} (lawful : engine.Lawful) (pattern : String) :
    Regex.Denotes (source engine pattern) (ofText pattern).items := by
  refine ⟨_, ?_, .start (spelled_items lawful pattern.toList)⟩
  rw [source, String.toList_ofList]
  rfl

/-! Reading the source text back. -/

theorem ofSpellings?_of_meta {character : Char} (isMeta : character ∈ Regex.metaCharacters)
    (notDot : character ≠ '.') (notEscape : character ≠ '\\') {rest : List Char}
    (notEnd : character ≠ '$' ∨ rest ≠ []) : ofSpellings? (character :: rest) = none := by
  rw [ofSpellings?.eq_def]
  split <;> simp_all

theorem ofSpellings?_of_plain {character : Char} (isPlain : character ∉ Regex.metaCharacters)
    (rest : List Char) :
    ofSpellings? (character :: rest) = (ofSpellings? rest).map (.exactly character :: ·) := by
  rw [ofSpellings?.eq_def]
  split <;> simp_all [Regex.metaCharacters]

theorem ofSpellings?_of_dot {rest : List Char} (noStar : ∀ more, rest ≠ '*' :: more) :
    ofSpellings? ('.' :: rest) = (ofSpellings? rest).map (.anyOne :: ·) := by
  rw [ofSpellings?]
  exact noStar

theorem eq_nil_of_spelled {items : List Regex.Item} (spelled : Regex.Spelled items []) :
    items = [] := by
  generalize written : [] = characters at spelled
  cases spelled with
  | nil => rfl
  | start _ => cases written
  | finish _ => cases written
  | one symbol _ => cases symbol <;> cases written
  | run symbol _ => cases symbol <;> cases written

theorem anchor_of_spelled {items : List Regex.Item} {character : Char} {rest : List Char}
    (spelled : Regex.Spelled items (character :: rest))
    (isMeta : character ∈ Regex.metaCharacters) (notDot : character ≠ '.')
    (notEscape : character ≠ '\\') :
    (character = '^' ∧ ∃ later, items = .start :: later ∧ Regex.Spelled later rest) ∨
      (character = '$' ∧ ∃ later, items = .finish :: later ∧ Regex.Spelled later rest) := by
  generalize written : character :: rest = characters at spelled
  cases spelled with
  | nil => cases written
  | start spelled =>
      cases written
      exact .inl ⟨rfl, _, rfl, spelled⟩
  | finish spelled =>
      cases written
      exact .inr ⟨rfl, _, rfl, spelled⟩
  | one symbol _ => cases symbol <;> cases written <;> contradiction
  | run symbol _ => cases symbol <;> cases written <;> contradiction

theorem not_spelled_star (items : List Regex.Item) (rest : List Char) :
    ¬Regex.Spelled items ('*' :: rest) := by
  intro spelled
  rcases anchor_of_spelled spelled (by decide) (by decide) (by decide) with
    ⟨same, -⟩ | ⟨same, -⟩ <;> cases same

theorem items_of_ofSpellings? {items : List Regex.Item} {written : List Char}
    (spelled : Regex.Spelled items written) {pattern : Pattern}
    (found : ofSpellings? written = some pattern) :
    items = pattern.map Piece.item ++ [.finish] := by
  induction spelled generalizing pattern with
  | nil => cases found
  | start _ _ =>
      rw [ofSpellings?_of_meta (by decide) (by decide) (by decide) (.inl (by decide))] at found
      cases found
  | @finish items rest spelled _ =>
      cases rest with
      | nil =>
          cases found
          rw [eq_nil_of_spelled spelled]
          rfl
      | cons next more =>
          rw [ofSpellings?_of_meta (by decide) (by decide) (by decide) (.inr (by simp))] at found
          cases found
  | @one symbol written items rest symbolSpelled spelled inductionHypothesis =>
      cases symbolSpelled with
      | any =>
          have noStar : ∀ more, rest ≠ '*' :: more := by
            rintro more rfl
            exact not_spelled_star _ _ spelled
          rw [List.singleton_append, ofSpellings?_of_dot noStar] at found
          obtain ⟨later, foundLater, rfl⟩ := Option.map_eq_some_iff.mp found
          rw [inductionHypothesis foundLater]
          rfl
      | plain isPlain =>
          rw [List.singleton_append, ofSpellings?_of_plain isPlain] at found
          obtain ⟨later, foundLater, rfl⟩ := Option.map_eq_some_iff.mp found
          rw [inductionHypothesis foundLater]
          rfl
      | escaped isMeta =>
          rw [List.cons_append, List.singleton_append, ofSpellings?, if_pos isMeta] at found
          obtain ⟨later, foundLater, rfl⟩ := Option.map_eq_some_iff.mp found
          rw [inductionHypothesis foundLater]
          rfl
  | @run symbol written items rest symbolSpelled spelled inductionHypothesis =>
      cases symbolSpelled with
      | any =>
          rw [List.singleton_append, ofSpellings?] at found
          obtain ⟨later, foundLater, rfl⟩ := Option.map_eq_some_iff.mp found
          rw [inductionHypothesis foundLater]
          rfl
      | plain isPlain =>
          rw [List.singleton_append, ofSpellings?_of_plain isPlain,
            ofSpellings?_of_meta (by decide) (by decide) (by decide) (.inl (by decide))] at found
          cases found
      | escaped isMeta =>
          rw [List.cons_append, List.singleton_append, ofSpellings?, if_pos isMeta,
            ofSpellings?_of_meta (by decide) (by decide) (by decide) (.inl (by decide))] at found
          cases found

theorem ofSpellings?_of_spelled {pattern : Pattern} {written : List Char}
    (spelled : Regex.Spelled (pattern.map Piece.item ++ [.finish]) written) :
    ofSpellings? written = some pattern := by
  induction pattern generalizing written with
  | nil =>
      cases spelled with
      | finish ended =>
          cases ended
          rfl
  | cons piece pattern inductionHypothesis =>
      rw [List.map_cons, List.cons_append] at spelled
      cases piece with
      | anyRun =>
          cases spelled with
          | run symbol spelled =>
              cases symbol
              rw [List.singleton_append, ofSpellings?, inductionHypothesis spelled, Option.map_some]
      | anyOne =>
          cases spelled with
          | one symbol spelled =>
              cases symbol
              rw [List.singleton_append, ofSpellings?_of_dot, inductionHypothesis spelled,
                Option.map_some]
              rintro more rfl
              exact not_spelled_star _ _ spelled
      | exactly character =>
          cases spelled with
          | one symbol spelled =>
              cases symbol with
              | plain isPlain =>
                  rw [List.singleton_append, ofSpellings?_of_plain isPlain,
                    inductionHypothesis spelled, Option.map_some]
              | escaped isMeta =>
                  rw [List.cons_append, List.singleton_append, ofSpellings?, if_pos isMeta,
                    inductionHypothesis spelled, Option.map_some]

theorem items_of_ofSource? {source : String} {items : List Regex.Item}
    (denotes : Regex.Denotes source items) {pattern : Pattern}
    (found : ofSource? source.toList = some pattern) : items = pattern.items := by
  obtain ⟨rest, written, spelled⟩ := denotes
  rw [written] at found
  cases rest with
  | nil => cases found
  | cons first rest =>
      by_cases anchored : first = '^'
      · subst anchored
        rcases anchor_of_spelled spelled (by decide) (by decide) (by decide) with
          ⟨-, later, rfl, spelledLater⟩ | ⟨same, -⟩
        · rw [items_of_ofSpellings? spelledLater found, Pattern.items]
        · cases same
      · simp [ofSource?, anchored] at found

theorem ofSource?_of_denotes {source : String} {pattern : Pattern}
    (denotes : Regex.Denotes source pattern.items) : ofSource? source.toList = some pattern := by
  obtain ⟨rest, written, spelled⟩ := denotes
  rw [written]
  cases spelled with
  | start spelled => exact ofSpellings?_of_spelled spelled

end Pattern

end Like

namespace RegexEngine

theorem escape_builtIn (character : Char) :
    (builtIn.escape (String.singleton character)).toList = Regex.escaped character := by
  simp [builtIn]

theorem lawful_builtIn : builtIn.Lawful where
  escape_spells character := by
    rw [escape_builtIn, Regex.escaped]
    split
    · next isMeta => exact .escaped isMeta
    · next isPlain => exact .plain isPlain
  matches_iff {source items matcher} denotes success text := by
    cases found : Like.Pattern.ofSource? source.toList with
    | none =>
        simp only [builtIn, found] at success
        cases success
    | some pattern =>
        simp only [builtIn, found] at success
        cases success
        rw [Like.Pattern.accepts_iff_cuts, Like.Pattern.items_of_ofSource? denotes found,
          Like.Pattern.found_items_iff]

end RegexEngine

namespace Like

theorem builtIn_read_source (pattern : String) :
    RegexEngine.builtIn.read (source .builtIn pattern) = .ok (Pattern.ofText pattern).accepts := by
  have found := Pattern.ofSource?_of_denotes
    (Pattern.denotes_source RegexEngine.lawful_builtIn pattern)
  simp only [RegexEngine.builtIn] at found ⊢
  rw [found]

@[simp]
theorem read_builtIn (pattern : String) :
    read .builtIn pattern = .ok (Pattern.ofText pattern).accepts := by
  rw [read, builtIn_read_source]

/-- What a character of a pattern stands for. -/
def Takes (character : Char) (part : List Char) : Prop :=
  if character = '%' then True
  else if character = '_' then part.length = 1
  else part = [character]

/-- A text is cut into consecutive parts, one for each character of a pattern. -/
def Cuts (pattern text : String) : Prop :=
  ∃ parts : List (List Char), text.toList = parts.flatten ∧ List.Forall₂ Takes pattern.toList parts

theorem takes_ofChar : (fun character => (Piece.ofChar character).Takes) = Takes := by
  funext character part
  rw [Piece.ofChar, Takes]
  split
  · rfl
  · split <;> rfl

@[simp]
theorem cuts_ofText_iff {pattern text : String} :
    (Pattern.ofText pattern).Cuts text.toList ↔ Cuts pattern text := by
  rw [Pattern.Cuts, Pattern.ofText, Cuts]
  simp only [List.forall₂_map_left_iff, takes_ofChar]

/-- A matcher that was read for a pattern accepts the texts that can be cut by the pattern. -/
theorem matcher_iff_cuts {engine : RegexEngine} (lawful : engine.Lawful) {pattern : String}
    {matcher : Matcher} (success : engine.read (source engine pattern) = .ok matcher)
    (text : String) : matcher text = true ↔ Cuts pattern text := by
  rw [lawful.matches_iff (Pattern.denotes_source lawful pattern) success,
    Pattern.found_items_iff, cuts_ofText_iff]

theorem Cache.relates_iff_cuts {engine : RegexEngine} (lawful : engine.Lawful)
    {value operand : Value}
    (unrefused : ∀ text pattern, value = .string text → operand = .string pattern →
      ∃ matcher, engine.read (source engine pattern) = .ok matcher) :
    ∃ alike, (Cache.empty engine).relates value operand = .ok alike ∧
      (alike = true ↔ ∃ text pattern, value = .string text ∧ operand = .string pattern ∧
        Cuts pattern text) := by
  cases value with
  | string text =>
      cases operand with
      | string pattern =>
          obtain ⟨matcher, success⟩ := unrefused text pattern rfl rfl
          have accepted : (Cache.empty engine).relates (.string text) (.string pattern) =
              .ok (matcher text) := by
            simp [relates, accepts, empty, get?, read, success]
          refine ⟨matcher text, accepted, ?_⟩
          simp [matcher_iff_cuts lawful success]
      | _ => exact ⟨false, rfl, by simp⟩
  | _ => exact ⟨false, rfl, by simp⟩

end Like

namespace Expr

theorem evaluateWith_like {cache : Like.Cache} {element leftValue rightValue : Value}
    {left right : Expr} (leftRead : left.evaluateWith cache element = .ok leftValue)
    (rightRead : right.evaluateWith cache element = .ok rightValue) {alike : Bool}
    (related : cache.relates leftValue rightValue = .ok alike) (negated : Bool) :
    (binary (.like negated) left right).evaluateWith cache element =
      .ok (.bool (alike != negated)) := by
  rw [evaluateWith, leftRead, rightRead]
  simp [related]

/-- Of two texts the first one is like the second one exactly if it can be cut by it, whichever
lawful engine reads the pattern, as long as it does not refuse it. Nothing else is like anything. -/
theorem like_iff_cuts {engine : RegexEngine} (lawful : engine.Lawful) {left right : Expr}
    {element leftValue rightValue : Value}
    (leftRead : left.evaluateWith (.empty engine) element = .ok leftValue)
    (rightRead : right.evaluateWith (.empty engine) element = .ok rightValue)
    (unrefused : ∀ text pattern, leftValue = .string text → rightValue = .string pattern →
      ∃ matcher, engine.read (Like.source engine pattern) = .ok matcher) :
    ∃ alike : Bool,
      (binary (.like false) left right).evaluateWith (.empty engine) element = .ok (.bool alike) ∧
      (binary (.like true) left right).evaluateWith (.empty engine) element =
        .ok (.bool !alike) ∧
      (alike = true ↔ ∃ text pattern, leftValue = .string text ∧ rightValue = .string pattern ∧
        Like.Cuts pattern text) := by
  obtain ⟨alike, related, iff⟩ := Like.Cache.relates_iff_cuts lawful unrefused
  refine ⟨alike, ?_, ?_, iff⟩
  · simpa using evaluateWith_like leftRead rightRead related false
  · simpa using evaluateWith_like leftRead rightRead related true

/-- An item whose price has a line end and characters that mean something to the engine. -/
def priceTag : Value := .entity "Item" [("price", .string "3.50 $\n(net)")]

def priceLike (pattern : String) (negated : Bool) : Expr :=
  .binary (.like negated) (.field "price") (.literal (.string pattern))

/-- The percent signs of the pattern take the cents, the line end and the word. -/
theorem priceTag_like :
    RegexEngine.builtIn.Lawful ∧
    (Expr.field "price").evaluateWith (.empty .builtIn) priceTag =
      .ok (.string "3.50 $\n(net)") ∧
    (∃ matcher, RegexEngine.builtIn.read (Like.source .builtIn "_.%$%(%_)") = .ok matcher) ∧
    (priceLike "_.%$%(%_)" false).evaluateWith (.empty .builtIn) priceTag = .ok (.bool true) ∧
    (priceLike "_.%$%(%_)" true).evaluateWith (.empty .builtIn) priceTag = .ok (.bool false) := by
  have price : (Expr.field "price").evaluateWith (.empty .builtIn) priceTag =
      .ok (.string "3.50 $\n(net)") := rfl
  have unrefused : ∃ matcher,
      RegexEngine.builtIn.read (Like.source .builtIn "_.%$%(%_)") = .ok matcher :=
    ⟨_, Like.builtIn_read_source _⟩
  have cuts : Like.Cuts "_.%$%(%_)" "3.50 $\n(net)" := by
    refine ⟨[['3'], ['.'], ['5', '0', ' '], ['$'], ['\n'], ['('], ['n', 'e'], ['t'], [')']], rfl,
      ?_⟩
    change List.Forall₂ Like.Takes ['_', '.', '%', '$', '%', '(', '%', '_', ')'] _
    simp [Like.Takes]
  have pattern : (Expr.literal (.string "_.%$%(%_)")).evaluateWith (.empty .builtIn) priceTag =
      .ok (.string "_.%$%(%_)") := rfl
  have lawful := RegexEngine.lawful_builtIn
  obtain ⟨alike, plain, negated, iff⟩ := like_iff_cuts lawful price pattern <| by
    rintro _ _ - ⟨⟩
    exact unrefused
  obtain rfl : alike = true := iff.mpr ⟨_, _, rfl, rfl, cuts⟩
  exact ⟨lawful, price, unrefused, plain, negated⟩

end Expr

end EntityCursor
