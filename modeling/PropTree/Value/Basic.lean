import PropTree.Assoc
import PropTree.Descriptor
import PropTree.Numeric.Binary64

set_option autoImplicit false

namespace PropTree

inductive Value where
  | null
  | bool (b : Bool)
  | integer (n : Int64)
  | float (x : Binary64)
  | string (s : String)
  | bytes (data : List UInt8)
  | array (items : List Value)
  | map (entries : Assoc Value)
  | record (type : TypeRef) (fields : Assoc Value)
deriving Repr, Inhabited

abbrev Fields := Assoc Value

structure Record where
  type : TypeRef
  fields : Fields
deriving Repr

inductive Kind where
  | null
  | bool
  | integer
  | float
  | string
  | bytes
  | array
  | map
  | record
deriving DecidableEq, Repr

def Kind.text : Kind → String
  | .null => "null"
  | .bool => "bool"
  | .integer => "integer"
  | .float => "float"
  | .string => "string"
  | .bytes => "bytes"
  | .array => "array"
  | .map => "map"
  | .record => "record"

namespace Value

def ofRecord (r : Record) : Value := .record r.type r.fields

def kind : Value → Kind
  | .null => .null
  | .bool _ => .bool
  | .integer _ => .integer
  | .float _ => .float
  | .string _ => .string
  | .bytes _ => .bytes
  | .array _ => .array
  | .map _ => .map
  | .record _ _ => .record

def isNull : Value → Bool
  | .null => true
  | _ => false

/-- The type a value has by itself: elements of arrays and mappings may be of
any type, and a null tells nothing. -/
def descriptor : Value → Descriptor
  | .null => .unknown
  | .bool _ => .bool
  | .integer _ => .integer
  | .float _ => .float
  | .string _ => .string
  | .bytes _ => .bytes
  | .array _ => .list .unknown
  | .map _ => .map .unknown
  | .record type _ => .record type.name

def bool? : Value → Option Bool
  | .bool b => some b
  | _ => none

def integer? : Value → Option Int64
  | .integer n => some n
  | _ => none

def float? : Value → Option Binary64
  | .float x => some x
  | .integer n => some (.ofInt n.toInt)
  | _ => none

def string? : Value → Option String
  | .string s => some s
  | _ => none

def array? : Value → Option (List Value)
  | .array items => some items
  | _ => none

def map? : Value → Option (Assoc Value)
  | .map entries => some entries
  | _ => none

def record? : Value → Option Record
  | .record type fields => some ⟨type, fields⟩
  | _ => none

end Value

def Descriptor.default : Descriptor → Value
  | .bool => .bool false
  | .integer => .integer 0
  | .float => .float .zero
  | .string => .string ""
  | .bytes => .bytes []
  | _ => .null

end PropTree
