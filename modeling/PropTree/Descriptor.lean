set_option autoImplicit false

namespace PropTree

/-- What kind of value a property holds. `unknown` admits every value. -/
inductive Descriptor where
  | unknown
  | bool
  | integer
  | float
  | string
  | bytes
  | list (element : Descriptor)
  | map (element : Descriptor)
  | record (name : String)
deriving DecidableEq, Repr

namespace Descriptor

def text : Descriptor → String
  | .unknown => "unknown"
  | .bool => "bool"
  | .integer => "integer"
  | .float => "float"
  | .string => "string"
  | .bytes => "bytes"
  | .list element => "list<" ++ element.text ++ ">"
  | .map element => "map<" ++ element.text ++ ">"
  | .record name => name

def element : Descriptor → Descriptor
  | .list element => element
  | .map element => element
  | _ => .unknown

def isList : Descriptor → Bool
  | .list _ => true
  | _ => false

def recordName? : Descriptor → Option String
  | .record name => some name
  | _ => none

end Descriptor

/-- Refers to one definition of a record type. Definitions may share a name,
for instance a registered and an unregistered one; `variant` tells them
apart. -/
structure TypeRef where
  name : String
  variant : Nat
deriving DecidableEq, Repr

end PropTree
