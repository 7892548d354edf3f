import EntityCursor.Json.Basic
import EntityCursor.Json.Numeral

/-!
JSON texts. Reading has two steps. The first one checks the grammar and keeps the text's own
structure: repeated names stay repeated, and a part that is well formed but denotes no value (a
number past the largest one, an escape that names half a character, containers nested too deep)
stays in its place as `unreadable`. The second step either makes a document of the whole text, or
reads a record of known names and never looks at the parts filed under other names.
-/

namespace EntityCursor

inductive Source where
  | null
  | bool (flag : Bool)
  | integer (value : Int)
  | double (value : Binary64)
  | string (text : String)
  | array (items : List Source)
  | object (members : List (String × Source))
  | unreadable
deriving Inhabited

namespace Source

/-! The grammar. -/

def isSpace (character : Char) : Bool :=
  character = ' ' || character = '\n' || character = '\r' || character = '\t'

def skipSpace (text : List Char) : List Char :=
  text.dropWhile isSpace

/-- A piece of a string: a character that stands for itself or is named by a short escape, or the
number in a numeric escape. -/
abbrev Piece := Char ⊕ Nat

def shortEscape? : Char → Option Char
  | '"' => some '"'
  | '\\' => some '\\'
  | '/' => some '/'
  | 'b' => some '\x08'
  | 'f' => some '\x0c'
  | 'n' => some '\n'
  | 'r' => some '\r'
  | 't' => some '\t'
  | _ => none

/-- The pieces of a string up to its closing quotation mark, and what follows it. -/
def pieces : List Char → Option (List Piece × List Char)
  | [] => none
  | '"' :: rest => some ([], rest)
  | '\\' :: 'u' :: first :: second :: third :: fourth :: rest => do
      let first ← Text.hexDigit? first
      let second ← Text.hexDigit? second
      let third ← Text.hexDigit? third
      let fourth ← Text.hexDigit? fourth
      let (others, rest) ← pieces rest
      some (.inr (4096 * first + 256 * second + 16 * third + fourth) :: others, rest)
  | '\\' :: character :: rest => do
      let character ← shortEscape? character
      let (others, rest) ← pieces rest
      some (.inl character :: others, rest)
  | character :: rest =>
      if character.toNat < 0x20 then none
      else do
        let (others, rest) ← pieces rest
        some (.inl character :: others, rest)

/-- The characters that pieces stand for. Two numbers of a surrogate pair stand for one character,
and half a pair stands for nothing. -/
def assemble? : List Piece → Option (List Char)
  | [] => some []
  | .inl character :: rest => (assemble? rest).map (character :: ·)
  | .inr high :: .inr low :: rest =>
      if 0xD800 ≤ high ∧ high < 0xDC00 then
        if 0xDC00 ≤ low ∧ low < 0xE000 then
          let code := 0x10000 + 0x400 * (high - 0xD800) + (low - 0xDC00)
          (assemble? rest).map (Char.ofNat code :: ·)
        else none
      else if 0xDC00 ≤ high ∧ high < 0xE000 then none
      else (assemble? (.inr low :: rest)).map (Char.ofNat high :: ·)
  | .inr code :: rest =>
      if 0xD800 ≤ code ∧ code < 0xE000 then none
      else (assemble? rest).map (Char.ofNat code :: ·)

/-- A string after its opening quotation mark: its text, if it has one, and what follows it. -/
def string? (text : List Char) : Option (Option String × List Char) := do
  let (pieces, rest) ← pieces text
  some ((assemble? pieces).map String.ofList, rest)

def ofNumeral (numeral : Numeral) : Source :=
  match numeral.number? with
  | some (.integer value) => .integer value
  | some (.double value) => .double value
  | none => .unreadable

def ofMembers (members : List (Option String × Source)) : Source :=
  match members.mapM fun (name, value) => name.map (·, value) with
  | some members => .object members
  | none => .unreadable

def atDepth (depth : Nat) (container : Source) : Source :=
  if depth = 0 then .unreadable else container

mutual

/-- A value at the front of a text, and what follows it. At most `depth` containers may be nested.
-/
def value? : (fuel depth : Nat) → List Char → Option (Source × List Char)
  | 0, _, _ => none
  | fuel + 1, depth, text =>
      match skipSpace text with
      | 'n' :: 'u' :: 'l' :: 'l' :: rest => some (.null, rest)
      | 't' :: 'r' :: 'u' :: 'e' :: rest => some (.bool true, rest)
      | 'f' :: 'a' :: 'l' :: 's' :: 'e' :: rest => some (.bool false, rest)
      | '"' :: rest => do
          let (text, rest) ← string? rest
          some (text.elim .unreadable .string, rest)
      | '[' :: rest =>
          match skipSpace rest with
          | ']' :: rest => some (atDepth depth (.array []), rest)
          | rest => do
              let (items, rest) ← items? fuel (depth - 1) rest
              some (atDepth depth (.array items), rest)
      | '{' :: rest =>
          match skipSpace rest with
          | '}' :: rest => some (atDepth depth (.object []), rest)
          | rest => do
              let (members, rest) ← members? fuel (depth - 1) rest
              some (atDepth depth (ofMembers members), rest)
      | text => do
          let (numeral, rest) ← Numeral.read? text
          some (ofNumeral numeral, rest)

def items? : (fuel depth : Nat) → List Char → Option (List Source × List Char)
  | 0, _, _ => none
  | fuel + 1, depth, text => do
      let (item, rest) ← value? fuel depth text
      match skipSpace rest with
      | ',' :: rest => do
          let (others, rest) ← items? fuel depth rest
          some (item :: others, rest)
      | ']' :: rest => some ([item], rest)
      | _ => none

def members? : (fuel depth : Nat) → List Char → Option (List (Option String × Source) × List Char)
  | 0, _, _ => none
  | fuel + 1, depth, text =>
      match skipSpace text with
      | '"' :: rest => do
          let (name, rest) ← string? rest
          match skipSpace rest with
          | ':' :: rest => do
              let (value, rest) ← value? fuel depth rest
              match skipSpace rest with
              | ',' :: rest => do
                  let (others, rest) ← members? fuel depth rest
                  some ((name, value) :: others, rest)
              | '}' :: rest => some ([(name, value)], rest)
              | _ => none
          | _ => none
      | _ => none

end

/-- The structure of a text that holds one value and nothing after it but blanks. Every step of the
reading takes a character or enters a container, which bounds their number. -/
def readWithin? (depth : Nat) (text : String) : Option Source :=
  let characters := text.toList
  match value? (2 * characters.length + 2) depth characters with
  | some (source, rest) => if (skipSpace rest).isEmpty then some source else none
  | none => none

def maximumDepth : Nat := 127

def read? (text : String) : Option Source :=
  readWithin? maximumDepth text

/-! Documents. -/

mutual

/-- The document of a text. Of members with one name the last one counts. -/
def toJson? : Source → Option Json
  | .null => some .null
  | .bool flag => some (.bool flag)
  | .integer value => some (.integer value)
  | .double value => some (.double value)
  | .string text => some (.string text)
  | .array items => (itemsToJson? items).map .array
  | .object members => (membersToJson? members).map Json.ofMembers
  | .unreadable => none

def itemsToJson? : List Source → Option (List Json)
  | [] => some []
  | item :: rest => do
      let item ← item.toJson?
      let rest ← itemsToJson? rest
      some (item :: rest)

def membersToJson? : List (String × Source) → Option (List (String × Json))
  | [] => some []
  | (name, value) :: rest => do
      let value ← value.toJson?
      let rest ← membersToJson? rest
      some ((name, value) :: rest)

end

/-! Records, choices and scalars. -/

/-- The value filed under `name`: nothing if the name is repeated, and otherwise the value if there
is one. -/
def member? (name : String) (members : List (String × Source)) : Option (Option Source) :=
  match members.filter (·.1 = name) with
  | [] => some none
  | [(_, value)] => some (some value)
  | _ => none

/-- The values of a record with the given names. A record is written as an object, where other
names are passed over, or as an array in the order of the names, where values at the end may be left
out. -/
def record? (names : List String) : Source → Option (List (Option Source))
  | .object members => names.mapM (member? · members)
  | .array items =>
      if items.length ≤ names.length then
        some (items.map some ++ List.replicate (names.length - items.length) none)
      else none
  | _ => none

/-- A choice is written as its name, or as an object with the name and what belongs to it. -/
def choice? : Source → Option (String × Option Source)
  | .string name => some (name, none)
  | .object [(name, value)] => some (name, some value)
  | _ => none

def bool? : Source → Option Bool
  | .bool flag => some flag
  | _ => none

def text? : Source → Option String
  | .string text => some text
  | _ => none

def natural? (bound : Nat) : Source → Option Nat
  | .integer value => if 0 ≤ value ∧ value.toNat < bound then some value.toNat else none
  | _ => none

def list? : Source → Option (List Source)
  | .array items => some items
  | _ => none

def texts? (source : Source) : Option (List String) := do
  (← source.list?).mapM text?

end Source

namespace Json

mutual

def toSource : Json → Source
  | .null => .null
  | .bool flag => .bool flag
  | .integer value => .integer value
  | .double value => .double value
  | .string text => .string text
  | .array items => .array (itemsToSource items)
  | .object members => .object (membersToSource members)

def itemsToSource : List Json → List Source
  | [] => []
  | item :: rest => item.toSource :: itemsToSource rest

def membersToSource : List (String × Json) → List (String × Source)
  | [] => []
  | (name, value) :: rest => (name, value.toSource) :: membersToSource rest

end

def read? (text : String) : Option Json := do
  (← Source.read? text).toJson?

end Json

end EntityCursor
