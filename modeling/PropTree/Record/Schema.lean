import PropTree.Record.RecordType

set_option autoImplicit false

/-!
# Schemas

Records of unregistered types are values like any other; only lookups by name
depend on registration.
-/

namespace PropTree

structure Schema where
  definition : TypeRef → RecordType := fun _ => {}
  registered : Assoc Nat := .empty

namespace Schema

def define (s : Schema) (type : TypeRef) (body : RecordType) : Schema :=
  { s with definition := fun t => if t = type then body else s.definition t }

def register (s : Schema) (type : TypeRef) : Except SchemaError Schema :=
  if s.registered.contains type.name then .error (.duplicateType type.name)
  else .ok { s with registered := s.registered.insert type.name type.variant }

def find? (s : Schema) (name : String) : Option TypeRef :=
  (s.registered.get? name).map fun variant => ⟨name, variant⟩

def require (s : Schema) (name : String) : Except SchemaError TypeRef :=
  match s.find? name with
  | some type => .ok type
  | none => .error (.unknownType name)

def contains (s : Schema) (name : String) : Bool := s.registered.contains name

def names (s : Schema) : List String := s.registered.keys

def size (s : Schema) : Nat := s.registered.size

def getter (s : Schema) (type : TypeRef) (name : String) :
    Except SchemaError (Declared Getter) :=
  match (s.definition type).getters.get? name with
  | some g => .ok g
  | none => .error (.noSuchProperty type.name name .getter)

def setter (s : Schema) (type : TypeRef) (name : String) :
    Except SchemaError (Declared Setter) :=
  match (s.definition type).setters.get? name with
  | some set => .ok set
  | none => .error (.noSuchProperty type.name name .setter)

def newRecord (s : Schema) (type : TypeRef) : Record := ⟨type, (s.definition type).defaults⟩

def recordOf? (s : Schema) (d : Descriptor) : Option TypeRef := d.recordName?.bind s.find?

/-- A new value of a declared type: lists and mappings start empty, and a
place of unknown type gets a mapping. -/
def instantiate (s : Schema) : Descriptor → Except SchemaError Value
  | .unknown => .ok (.map .empty)
  | .map _ => .ok (.map .empty)
  | .list _ => .ok (.array [])
  | .record name => (s.require name).map fun type => .ofRecord (s.newRecord type)
  | d => .ok d.default

end Schema

abbrev Factory := Descriptor → Except SchemaError Value

end PropTree
