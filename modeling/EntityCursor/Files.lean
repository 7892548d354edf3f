/-!
Files as a program sees them: byte contents and directories. A path without a file is `none`.
-/

namespace EntityCursor

inductive File where
  | content (bytes : ByteArray)
  | directory (entries : List (String × File))
deriving Inhabited

namespace File

def ofText (text : String) : File := .content text.toUTF8

def isDirectory : Option File → Bool
  | some (.directory _) => true
  | _ => false

def text? : Option File → Option String
  | some (.content bytes) => String.fromUTF8? bytes
  | _ => none

@[simp]
theorem text?_ofText (text : String) : text? (some (ofText text)) = some text := by
  simp [text?, ofText, String.fromUTF8?, String.fromUTF8, text.isValidUTF8]

def entries? : Option File → Option (List (String × File))
  | some (.directory entries) => some entries
  | _ => none

/-- The path of a file in a directory. A path that ends in a separator gets no second one. -/
def join (directory name : String) : String :=
  match directory.toList.getLast? with
  | none => name
  | some last => if last = '/' then directory ++ name else directory ++ "/" ++ name

def isJsonName (name : String) : Bool :=
  let reversed := name.toList.reverse
  let extension := reversed.takeWhile (· ≠ '.')
  let stem := (reversed.dropWhile (· ≠ '.')).drop 1
  extension.reverse = ['j', 's', 'o', 'n'] && !stem.isEmpty

end File

end EntityCursor
