import PropTree.Text.Base64
import PropTree.Value.Basic

set_option autoImplicit false

/-!
# Documents

JSON with its three kinds of number. Integers lie between `-2 ^ 63` and `2 ^ 64`,
and a floating number is finite.
-/

namespace PropTree

structure WideInt where
  val : Int
  lower : Int64.minValue.toInt ≤ val
  upper : val < UInt64.size
deriving DecidableEq

def WideInt.ofInt64 (n : Int64) : WideInt :=
  ⟨n.toInt, n.le_toInt, Int.lt_trans n.toInt_lt (by decide)⟩

structure FiniteFloat where
  val : Binary64
  finite : val.isFinite = true
deriving DecidableEq

inductive Document where
  | null
  | bool (b : Bool)
  | integer (n : WideInt)
  | float (x : FiniteFloat)
  | string (s : String)
  | array (items : List Document)
  | object (entries : Assoc Document)

namespace Document

def ofBinary64 (x : Binary64) : Document :=
  if h : x.isFinite = true then .float ⟨x, h⟩ else .null

mutual

def ofValue : Value → Document
  | .null => .null
  | .bool b => .bool b
  | .integer n => .integer (.ofInt64 n)
  | .float x => ofBinary64 x
  | .string s => .string s
  | .bytes data => .string (Base64.encode data)
  | .array items => .array (ofItems items)
  | .map ⟨entries⟩ => .object ⟨ofEntries entries⟩
  | .record _ ⟨fields⟩ => .object ⟨ofEntries fields⟩

def ofItems : List Value → List Document
  | [] => []
  | v :: rest => ofValue v :: ofItems rest

def ofEntries : List (String × Value) → List (String × Document)
  | [] => []
  | (k, v) :: rest => (k, ofValue v) :: ofEntries rest

end

/-- Integers that do not fit a value become the nearest float. -/
def valueOfInt (n : WideInt) : Value :=
  if n.val ≤ Int64.maxValue.toInt then .integer (Int64.ofInt n.val) else .float (.ofInt n.val)

mutual

def toValue : Document → Value
  | .null => .null
  | .bool b => .bool b
  | .integer n => valueOfInt n
  | .float x => .float x.val
  | .string s => .string s
  | .array items => .array (toItems items)
  | .object ⟨entries⟩ => .map ⟨toEntries entries⟩

def toItems : List Document → List Value
  | [] => []
  | d :: rest => toValue d :: toItems rest

def toEntries : List (String × Document) → List (String × Value)
  | [] => []
  | (k, d) :: rest => (k, toValue d) :: toEntries rest

end

def kind : Document → Kind
  | .null => .null
  | .bool _ => .bool
  | .integer n => (valueOfInt n).kind
  | .float _ => .float
  | .string _ => .string
  | .array _ => .array
  | .object _ => .map

end Document

end PropTree
