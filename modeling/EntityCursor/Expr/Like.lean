import EntityCursor.Failure
import EntityCursor.Expr.Regex

/-!
Patterns with wildcards. The percent sign stands for any run of characters, the underscore for any
one character, and every other character for itself; a pattern has to account for the whole text.
Patterns are run as regular expressions, by an engine that reads the source text written for them.
-/

namespace EntityCursor

namespace Like

inductive Piece where
  | anyRun
  | anyOne
  | exactly (character : Char)
deriving DecidableEq, Repr

abbrev Pattern := List Piece

def Piece.ofChar (character : Char) : Piece :=
  if character = '%' then .anyRun
  else if character = '_' then .anyOne
  else .exactly character

def Pattern.ofText (text : String) : Pattern :=
  text.toList.map Piece.ofChar

/-- For every ending of a text, the longest first, whether nothing is left to account for. -/
def emptyEndings : List Char → List Bool
  | [] => [true]
  | _ :: rest => false :: emptyEndings rest

/-- For every ending, whether it begins with an accepted character before an ending that matches. -/
def oneMore (accepts : Char → Bool) : List Char → List Bool → List Bool
  | character :: rest, _ :: later =>
      (accepts character && later.headD false) :: oneMore accepts rest later
  | _, _ => [false]

/-- For every ending, whether some ending of it matches. -/
def runMore : List Bool → List Bool
  | [] => []
  | first :: later =>
      let others := runMore later
      (first || others.headD false) :: others

/-- For every ending of a text, the longest first, whether the pattern matches it. -/
def matchingEndings (text : List Char) : Pattern → List Bool
  | [] => emptyEndings text
  | .anyRun :: pattern => runMore (matchingEndings text pattern)
  | .anyOne :: pattern => oneMore (fun _ => true) text (matchingEndings text pattern)
  | .exactly character :: pattern =>
      oneMore (fun other => other = character) text (matchingEndings text pattern)

def Pattern.accepts (pattern : Pattern) (text : String) : Bool :=
  (matchingEndings text.toList pattern).headD false

/-! Patterns as regular expressions. -/

def spelling (engine : RegexEngine) (character : Char) : List Char :=
  match Piece.ofChar character with
  | .anyRun => ['.', '*']
  | .anyOne => ['.']
  | .exactly character => (engine.escape (String.singleton character)).toList

/-- The source text of a pattern: the dot stands for every character, line ends too, and the match
begins and ends with the text. -/
def source (engine : RegexEngine) (pattern : String) : String :=
  String.ofList
    (['(', '?', 's', ')', '^'] ++ pattern.toList.flatMap (spelling engine) ++ ['$'])

abbrev Matcher := String → Bool

def read (engine : RegexEngine) (pattern : String) : Outcome Matcher :=
  match engine.read (source engine pattern) with
  | .ok matcher => .ok matcher
  | .error reason => .error (.invalidFilter (.badPattern reason))

/-! The engine at hand. -/

/-- The pattern whose characters are spelled before the end of a source text. -/
def Pattern.ofSpellings? : List Char → Option Pattern
  | [] => none
  | ['$'] => some []
  | '.' :: '*' :: rest => (ofSpellings? rest).map (.anyRun :: ·)
  | '.' :: rest => (ofSpellings? rest).map (.anyOne :: ·)
  | '\\' :: character :: rest =>
      if character ∈ Regex.metaCharacters then (ofSpellings? rest).map (.exactly character :: ·)
      else none
  | character :: rest =>
      if character ∈ Regex.metaCharacters then none
      else (ofSpellings? rest).map (.exactly character :: ·)

def Pattern.ofSource? : List Char → Option Pattern
  | '(' :: '?' :: 's' :: ')' :: '^' :: rest => ofSpellings? rest
  | _ => none

end Like

/-- The engine at hand, which reads what is written for patterns and nothing else. -/
def RegexEngine.builtIn : RegexEngine where
  escape text := String.ofList (text.toList.flatMap Regex.escaped)
  read source :=
    match Like.Pattern.ofSource? source.toList with
    | some pattern => .ok pattern.accepts
    | none => .error "unsupported regular expression"

end EntityCursor
