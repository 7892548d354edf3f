import EntityCursor.Descriptor.Basic
import EntityCursor.Fields

/-!
Registries: the descriptors known to a process under the names of their entities. A descriptor is
never replaced. A registry is valid if every reference leads to a registered entity and no entity
leads back to itself.
-/

namespace EntityCursor

/-- Why the descriptors of a file cannot be read. -/
inductive FileFault where
  | unreadable
  | notJson
  | noDescriptors
deriving DecidableEq, Repr

def FileFault.message : FileFault → String
  | .unreadable => "the file cannot be read"
  | .notJson => "the text is not JSON"
  | .noDescriptors => "the document is neither a descriptor nor an array of descriptors"

inductive DescriptorError where
  | malformed (path : String) (fault : FileFault)
  | invalid (fault : StructureFault)
  | duplicate (name : String)
  | dangling (entity field target : String)
  | cycle (name : String)
deriving DecidableEq, Repr

namespace DescriptorError

def code : DescriptorError → String
  | .malformed .. => "ENTIQ_DESCRIPTOR_MALFORMED"
  | .invalid _ => "ENTIQ_DESCRIPTOR_INVALID"
  | .duplicate _ => "ENTIQ_DESCRIPTOR_DUPLICATE"
  | .dangling .. => "ENTIQ_DESCRIPTOR_DANGLING"
  | .cycle _ => "ENTIQ_DESCRIPTOR_CYCLE"

def message : DescriptorError → String
  | .malformed path fault => s!"Malformed descriptor file '{path}': " ++ fault.message
  | .invalid fault => "Invalid descriptor: " ++ fault.message
  | .duplicate name => s!"Entity '{name}' is already registered"
  | .dangling entity field target =>
      s!"Entity '{entity}' field '{field}' references unknown entity '{target}'"
  | .cycle name => s!"Entity references form a cycle through '{name}'"

end DescriptorError

structure Registry where
  descriptors : Fields EntityDescriptor
deriving Inhabited

namespace Registry

def empty : Registry := ⟨[]⟩

def get? (registry : Registry) (name : String) : Option EntityDescriptor :=
  Fields.get? name registry.descriptors

def contains (registry : Registry) (name : String) : Bool :=
  (registry.get? name).isSome

def size (registry : Registry) : Nat := registry.descriptors.length

def register (registry : Registry) (descriptor : EntityDescriptor) :
    Except DescriptorError Registry :=
  match descriptor.fault? with
  | some fault => .error (.invalid fault)
  | none =>
      if registry.contains descriptor.name then .error (.duplicate descriptor.name)
      else .ok ⟨Fields.set descriptor.name descriptor registry.descriptors⟩

/-- Files descriptors up to the first one that is refused. Those before it stay filed. -/
def registerAll (registry : Registry) :
    List EntityDescriptor → Except DescriptorError Unit × Registry
  | [] => (.ok (), registry)
  | descriptor :: rest =>
      match registry.register descriptor with
      | .ok registry => registry.registerAll rest
      | .error failure => (.error failure, registry)

def targets (descriptor : EntityDescriptor) : List String :=
  descriptor.fields.filterMap fun field => field.kind.reference?

def danglingReference? (registry : Registry) : Option (String × String × String) :=
  registry.descriptors.findSome? fun (_, descriptor) =>
    descriptor.fields.findSome? fun field =>
      match field.kind.reference? with
      | some target =>
          if registry.contains target then none else some (descriptor.name, field.name, target)
      | none => none

/-- Follows the references of an entity in depth. `path` holds the entities on the way and `done`
those that are known to lead to no cycle; the result extends `done`, or is an entity met again on
the way. A way without repetition is no longer than the number of entities, which bounds the depth.
-/
def visit (registry : Registry) : (fuel : Nat) → (path done : List String) → (name : String) →
    Except String (List String)
  | 0, _, done, _ => .ok done
  | fuel + 1, path, done, name =>
      if name ∈ done then .ok done
      else if name ∈ path then .error name
      else do
        let next := ((registry.get? name).map targets).getD []
        let done ← next.foldlM (registry.visit fuel (name :: path)) done
        return name :: done

/-- An entity met again by following references, from the entities in ascending order. -/
def cycle? (registry : Registry) : Option String :=
  let names := Fields.names registry.descriptors
  match names.foldlM (registry.visit (registry.size + 1) []) [] with
  | .ok _ => none
  | .error name => some name

/-- Every reference leads to a registered entity, and no entity leads back to itself. -/
def validate (registry : Registry) : Except DescriptorError Unit :=
  match registry.danglingReference? with
  | some (entity, field, target) => .error (.dangling entity field target)
  | none =>
      match registry.cycle? with
      | some name => .error (.cycle name)
      | none => .ok ()

end Registry

end EntityCursor
