import EntityCursor.Text

/-!
Identifiers of 128 bits. They are written as five groups of hexadecimal digits with hyphens between
the groups; reading also takes the digits in one group, digits of either case, and the five groups
in braces or behind `urn:uuid:` in letters of either case.
-/

namespace EntityCursor

structure Identifier where
  /-- The hexadecimal digits, the highest first. -/
  digits : List Nat
deriving DecidableEq, Repr

namespace Identifier

def groups : List Nat := [8, 4, 4, 4, 12]

def groupedDigits : (lengths digits : List Nat) → List Char
  | [], _ => []
  | [length], digits => (digits.take length).map Text.hexDigit
  | length :: rest, digits =>
      (digits.take length).map Text.hexDigit ++ '-' :: groupedDigits rest (digits.drop length)

def text (identifier : Identifier) : String :=
  String.ofList (groupedDigits groups identifier.digits)

def digits? : (lengths : List Nat) → List Char → Option (List Nat)
  | [], _ => none
  | [length], text => if text.length = length then text.mapM Text.hexDigit? else none
  | length :: rest, text => do
      let digits ← (text.take length).mapM Text.hexDigit?
      match text.drop length with
      | '-' :: text => return digits ++ (← digits? rest text)
      | _ => none

/-- What may stand in front of the groups, in letters of either case. -/
def namespacePrefix : List Char := "urn:uuid:".toList

/-- The groups of a text without what may stand around them. -/
def bare (text : List Char) : List Char :=
  if (text.take namespacePrefix.length).map Char.toLower = namespacePrefix then
    text.drop namespacePrefix.length
  else
    match text with
    | '{' :: rest => if rest.getLast? = some '}' then rest.dropLast else text
    | _ => text

def read? (text : String) : Option Identifier :=
  match digits? [32] text.toList with
  | some digits => some ⟨digits⟩
  | none => (digits? groups (bare text.toList)).map Identifier.mk

end Identifier

end EntityCursor
