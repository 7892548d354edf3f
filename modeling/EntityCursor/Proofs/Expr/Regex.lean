import EntityCursor.Expr.Regex

/-!
What engines for regular expressions are documented to do, as far as patterns need it. A source text
with the flag `s` in front spells a sequence of items: the anchors, symbols for one character, and
symbols that are repeated by a star. It has a match in a text if the items, one after the other and
in the place where they stand, match some part of the text.
-/

namespace EntityCursor

namespace Regex

inductive Symbol where
  | any
  | exactly (character : Char)

inductive Item where
  /-- The beginning of the text. -/
  | start
  /-- The end of the text. -/
  | finish
  | one (symbol : Symbol)
  /-- Any number of characters that the symbol matches. -/
  | run (symbol : Symbol)

/-! Syntax. -/

inductive Symbol.Spelled : Symbol → List Char → Prop where
  | any : Spelled .any ['.']
  | plain {character : Char} :
      character ∉ metaCharacters → Spelled (.exactly character) [character]
  | escaped {character : Char} :
      character ∈ metaCharacters → Spelled (.exactly character) ['\\', character]

/-- How items are written one after the other. -/
inductive Spelled : List Item → List Char → Prop where
  | nil : Spelled [] []
  | start {items : List Item} {rest : List Char} :
      Spelled items rest → Spelled (.start :: items) ('^' :: rest)
  | finish {items : List Item} {rest : List Char} :
      Spelled items rest → Spelled (.finish :: items) ('$' :: rest)
  | one {symbol : Symbol} {written : List Char} {items : List Item} {rest : List Char} :
      symbol.Spelled written → Spelled items rest →
      Spelled (.one symbol :: items) (written ++ rest)
  | run {symbol : Symbol} {written : List Char} {items : List Item} {rest : List Char} :
      symbol.Spelled written → Spelled items rest →
      Spelled (.run symbol :: items) (written ++ '*' :: rest)

/-- The flag in front lets the dot stand for every character, line ends too. -/
def Denotes (source : String) (items : List Item) : Prop :=
  ∃ rest, source.toList = ['(', '?', 's', ')'] ++ rest ∧ Spelled items rest

/-! Matching. -/

def Symbol.Matches : Symbol → Char → Prop
  | .any, _ => True
  | .exactly character, other => other = character

/-- The items match the part of a text that has `before` in front of it and `after` behind it. -/
inductive Spans : List Item → (before part after : List Char) → Prop where
  | nil {before after : List Char} : Spans [] before [] after
  | start {items : List Item} {part after : List Char} :
      Spans items [] part after → Spans (.start :: items) [] part after
  | finish {items : List Item} {before : List Char} :
      Spans items before [] [] → Spans (.finish :: items) before [] []
  | one {symbol : Symbol} {items : List Item} {before part after : List Char} {character : Char} :
      symbol.Matches character → Spans items (before ++ [character]) part after →
      Spans (.one symbol :: items) before (character :: part) after
  | run {symbol : Symbol} {items : List Item} {before taken part after : List Char} :
      (∀ character ∈ taken, symbol.Matches character) →
      Spans items (before ++ taken) part after →
      Spans (.run symbol :: items) before (taken ++ part) after

/-- The items have a match anywhere in a text. -/
def Found (items : List Item) (text : List Char) : Prop :=
  ∃ before part after, text = before ++ part ++ after ∧ Spans items before part after

end Regex

/-- An engine does as documented: what it escapes stands for itself, and a source text that it does
not refuse has the matches of the items that it denotes. -/
structure RegexEngine.Lawful (engine : RegexEngine) : Prop where
  escape_spells (character : Char) :
    (Regex.Symbol.exactly character).Spelled (engine.escape (String.singleton character)).toList
  matches_iff {source : String} {items : List Regex.Item} {matcher : String → Bool} :
    Regex.Denotes source items → engine.read source = .ok matcher →
      ∀ text, matcher text = true ↔ Regex.Found items text.toList

end EntityCursor
