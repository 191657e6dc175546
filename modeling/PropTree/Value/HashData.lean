import PropTree.Value.Basic

set_option autoImplicit false

namespace PropTree

inductive HashAtom where
  | kind (k : Kind)
  | flag (b : Bool)
  | word (w : UInt64)
  | text (s : String)
  | count (n : Nat)
  | bytes (data : List UInt8)
deriving DecidableEq, Repr

namespace Value

mutual

/-- The kind comes first, and containers state their size. -/
def hashData : Value → List HashAtom
  | .null => [.kind .null]
  | .bool b => [.kind .bool, .flag b]
  | .integer n => [.kind .integer, .word n.toUInt64]
  | .float x => [.kind .float, .word x.bits]
  | .string s => [.kind .string, .text s]
  | .bytes data => [.kind .bytes, .count data.length, .bytes data]
  | .array items => .kind .array :: .count items.length :: hashItems items
  | .map ⟨entries⟩ => .kind .map :: .count entries.length :: hashEntries entries
  | .record type ⟨fields⟩ =>
    .kind .record :: .text type.name :: .count fields.length :: hashEntries fields

def hashItems : List Value → List HashAtom
  | [] => []
  | v :: rest => hashData v ++ hashItems rest

def hashEntries : List (String × Value) → List HashAtom
  | [] => []
  | (k, v) :: rest => .text k :: (hashData v ++ hashEntries rest)

end

end Value

namespace HashAtom

def kindCode : Kind → Nat
  | .null => 0
  | .bool => 1
  | .integer => 2
  | .float => 3
  | .string => 4
  | .bytes => 5
  | .array => 6
  | .map => 7
  | .record => 8

/-- The atom as words, the first of which tells the kinds of atom apart. -/
def words : HashAtom → List UInt64
  | .kind k => [0, UInt64.ofNat (kindCode k)]
  | .flag b => [1, if b then 1 else 0]
  | .word w => [2, w]
  | .text s => 3 :: s.toList.map fun c => c.val.toUInt64
  | .count n => [4, UInt64.ofNat n]
  | .bytes data => 5 :: data.map UInt8.toUInt64

def digest (data : List HashAtom) : UInt64 :=
  (data.flatMap words).foldl (fun h w => (h ^^^ w) * 1099511628211) 14695981039346656037

end HashAtom

end PropTree
