import EntityCursor.Descriptor.Json
import EntityCursor.Descriptor.Registry
import EntityCursor.Files

/-!
Registries from descriptor files. A file holds one descriptor or an array of descriptors, and of a
directory the files with the extension `json` are loaded in the order of their names. What was filed
before a failure stays filed.
-/

namespace EntityCursor

namespace Registry

def descriptorsOfFile (file : Option File) : Except FileFault (List EntityDescriptor) :=
  match File.text? file with
  | none => .error .unreadable
  | some text =>
      match Json.read? text with
      | none => .error .notJson
      | some document =>
          match EntityDescriptor.listOfJson? document with
          | none => .error .noDescriptors
          | some descriptors => .ok descriptors

def loadFile (registry : Registry) (path : String) (file : Option File) :
    Except DescriptorError Unit × Registry :=
  match descriptorsOfFile file with
  | .error fault => (.error (.malformed path fault), registry)
  | .ok descriptors => registry.registerAll descriptors

def loadFiles (registry : Registry) (directory : String) :
    List (String × File) → Except DescriptorError Unit × Registry
  | [] => (.ok (), registry)
  | (name, file) :: rest =>
      match registry.loadFile (File.join directory name) (some file) with
      | (.ok (), registry) => registry.loadFiles directory rest
      | (.error failure, registry) => (.error failure, registry)

def loadDirectory (registry : Registry) (path : String) (directory : Option File) :
    Except DescriptorError Unit × Registry :=
  match File.entries? directory with
  | none => (.error (.malformed path .unreadable), registry)
  | some entries =>
      registry.loadFiles path (Fields.ofList (entries.filter fun entry => File.isJsonName entry.1))

def load (registry : Registry) (path : String) (file : Option File) :
    Except DescriptorError Unit × Registry :=
  if File.isDirectory file then registry.loadDirectory path file else registry.loadFile path file

end Registry

end EntityCursor
