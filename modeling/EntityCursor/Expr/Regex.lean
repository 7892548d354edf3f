/-!
Regular expressions. They are read and run by an engine of their own; the library only writes source
texts for one and asks which texts have a match.
-/

namespace EntityCursor

structure RegexEngine where
  /-- Spells a text so that it stands for itself inside of a source text. -/
  escape : String → String
  /-- What a source text denotes, as the test whether a text has a match, or why it is refused. -/
  read : String → Except String (String → Bool)

namespace Regex

/-- The characters that have a meaning of their own in some place of a source text. -/
def metaCharacters : List Char :=
  ['\\', '.', '+', '*', '?', '(', ')', '|', '[', ']', '{', '}', '^', '$', '#', '&', '-', '~']

def escaped (character : Char) : List Char :=
  if character ∈ metaCharacters then ['\\', character] else [character]

end Regex

end EntityCursor
