import PropTree.Value.Equality
import PropTree.Value.HashData
import PropTree.Value.Text

set_option autoImplicit false

/-!
# Composite cache keys
-/

namespace PropTree

structure Key where
  hash : Int64
  checksum : Int64
  components : List Value
deriving DecidableEq, Repr

namespace Key

def empty : Key := ⟨17, 0, []⟩

def count (k : Key) : Nat := k.components.length

def updateWith (hash : List HashAtom → UInt64) (k : Key) (component : Value) : Key :=
  let h := (hash component.hashData).toInt64
  { hash := 37 * k.hash + h * Int64.ofNat (k.count + 1)
    checksum := k.checksum + h
    components := k.components ++ [component] }

def updateAllWith (hash : List HashAtom → UInt64) (k : Key) (components : List Value) : Key :=
  components.foldl (updateWith hash) k

def ofListWith (hash : List HashAtom → UInt64) (components : List Value) : Key :=
  updateAllWith hash empty components

def update (k : Key) (component : Value) : Key := updateWith HashAtom.digest k component

def updateAll (k : Key) (components : List Value) : Key :=
  updateAllWith HashAtom.digest k components

def ofList (components : List Value) : Key := ofListWith HashAtom.digest components

/-- The components are compared last: keys that differ are mostly told apart by
their hashes. -/
def same (k l : Key) : Bool :=
  k.hash == l.hash && k.checksum == l.checksum && k.count == l.count &&
    Value.identicalItems k.components l.components

/-- What a key feeds to a hash itself: its running hash alone. -/
def hashData (k : Key) : List HashAtom := [.word k.hash.toUInt64]

def partText : Value → String
  | .null => "null"
  | .bool b => toString b
  | .integer n => toString n.toInt
  | .float x => NumberForm.plain.write x
  | .string s => s
  | v => v.text

def partsText (k : Key) : String :=
  String.join (k.components.map fun v => ":" ++ partText v)

def text (k : Key) : String :=
  toString k.hash.toInt ++ ":" ++ toString k.checksum.toInt ++ k.partsText

end Key

/-- A key whose records refer to their types by name only. -/
structure ContentKey where
  key : Key
  normal : Value.anonymousItems key.components = key.components
deriving DecidableEq, Repr

def Key.content (k : Key) : ContentKey where
  key := { k with components := Value.anonymousItems k.components }
  normal := Value.anonymousItems_anonymousItems k.components

instance : Coe Key ContentKey := ⟨Key.content⟩

end PropTree
