import EntityCursor.Journal.Severity
import EntityCursor.Text

/-!
The journal of a process: the events at or above a threshold, in the order in which they were
logged. An event is written as one line that is a JSON object of texts, with the event and its
severity in front and the fields after them in the order of their names.
-/

namespace EntityCursor

structure JournalEntry where
  severity : Severity
  event : String
  fields : List (String × String)
deriving DecidableEq, Repr

namespace JournalEntry

/-- A character inside of a written text. Control characters never stand for themselves. -/
def escaped (character : Char) : List Char :=
  if character = '"' then ['\\', '"']
  else if character = '\\' then ['\\', '\\']
  else if character = '\n' then ['\\', 'n']
  else if character = '\r' then ['\\', 'r']
  else if character = '\t' then ['\\', 't']
  else if Text.isControl character then '\\' :: 'u' :: Text.fourHexDigits character.toNat
  else [character]

def quoted (text : String) : List Char :=
  '"' :: text.toList.flatMap escaped ++ ['"']

def member (name value : String) : List Char :=
  quoted name ++ ':' :: quoted value

/-- The fields by their names; fields of one name keep their order. -/
def sortedFields (entry : JournalEntry) : List (String × String) :=
  entry.fields.mergeSort fun left right => compare left.1 right.1 != .gt

def line (entry : JournalEntry) : String :=
  String.ofList ('\x7b' :: member "event" entry.event ++
    ',' :: member "severity" entry.severity.name ++
    entry.sortedFields.flatMap (fun (name, value) => ',' :: member name value) ++ ['\x7d'])

end JournalEntry

structure Journal where
  threshold : Severity := .warn
  /-- The entries, the oldest first. -/
  entries : List JournalEntry := []

namespace Journal

def log (journal : Journal) (severity : Severity) (event : String)
    (fields : List (String × String)) : Journal :=
  if severity.level < journal.threshold.level then journal
  else { journal with entries := journal.entries ++ [⟨severity, event, fields⟩] }

def lines (journal : Journal) : List String :=
  journal.entries.map JournalEntry.line

end Journal

end EntityCursor
