import EntityCursor.Binary64.Decimal
import EntityCursor.Json.Basic
import EntityCursor.Text

/-!
The compact text of a JSON document: no blanks, and in strings only the quotation mark, the
backslash and the characters below the blank are escaped.
-/

namespace EntityCursor

namespace Json

def escaped (character : Char) : List Char :=
  if character = '"' then ['\\', '"']
  else if character = '\\' then ['\\', '\\']
  else if character = '\x08' then ['\\', 'b']
  else if character = '\x0c' then ['\\', 'f']
  else if character = '\n' then ['\\', 'n']
  else if character = '\r' then ['\\', 'r']
  else if character = '\t' then ['\\', 't']
  else if character.toNat < 0x20 then '\\' :: 'u' :: Text.fourHexDigits character.toNat
  else [character]

def quoted (text : String) : List Char :=
  '"' :: text.toList.flatMap escaped ++ ['"']

def integerText : Int → List Char
  | .ofNat value => Nat.toDigits 10 value
  | .negSucc value => '-' :: Nat.toDigits 10 (value + 1)

mutual

def characters : Json → List Char
  | .null => ['n', 'u', 'l', 'l']
  | .bool true => ['t', 'r', 'u', 'e']
  | .bool false => ['f', 'a', 'l', 's', 'e']
  | .integer value => integerText value
  | .double value => if value.isFinite then value.text else ['n', 'u', 'l', 'l']
  | .string text => quoted text
  | .array [] => ['[', ']']
  | .array (item :: rest) => '[' :: item.characters ++ itemCharacters rest
  | .object [] => ['{', '}']
  | .object ((name, value) :: rest) =>
      '{' :: quoted name ++ ':' :: value.characters ++ memberCharacters rest

def itemCharacters : List Json → List Char
  | [] => [']']
  | item :: rest => ',' :: item.characters ++ itemCharacters rest

def memberCharacters : List (String × Json) → List Char
  | [] => ['}']
  | (name, value) :: rest =>
      ',' :: quoted name ++ ':' :: value.characters ++ memberCharacters rest

end

def compact (document : Json) : String :=
  String.ofList document.characters

end Json

end EntityCursor
