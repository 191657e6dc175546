import PropTree.Navigation.Error
import PropTree.Value.Equality

set_option autoImplicit false

/-!
# Elements of sequences

A read wants an element that is there; a write may also fill a null element or
append one at the end, and treats a null as a sequence still to be made.
-/

namespace PropTree

inductive Lookup where
  | read
  | write
deriving DecidableEq, Repr

namespace Value

def element (property : String) (index : Nat) : Value → Except NavigationError Value
  | .array items =>
    match items[index]? with
    | some item => .ok item
    | none => .error (.indexOutOfRange property index items.length)
  | .null => .error (.indexOutOfRange property index 0)
  | v => .error (.notASequence property v.kind)

/-- The element a longer path leads through; none where a write has to make
it first. -/
def elementChild (property : String) (index : Nat) (lookup : Lookup) :
    Value → Except NavigationError (Option Value)
  | .array items =>
    match items[index]? with
    | some item => .ok (if item.isNull then none else some item)
    | none =>
      if lookup = .write ∧ index = items.length then .ok none
      else .error (.indexOutOfRange property index items.length)
  | .null =>
    match lookup with
    | .read => .error (.indexOutOfRange property index 0)
    | .write => .ok none
  | v => .error (.notASequence property v.kind)

/-- The sequence with one element replaced, or appended right at the end. -/
def setElement (v : Value) (property : String) (index : Nat) (item : Value) :
    Except NavigationError Value :=
  match v with
  | .array items =>
    if index < items.length then .ok (.array (items.set index item))
    else if index = items.length then .ok (.array (items ++ [item]))
    else .error (.indexOutOfRange property index items.length)
  | v => .error (.notASequence property v.kind)

end Value

structure Place where
  key : String
  index : Option Nat
deriving DecidableEq, Repr

def Assoc.putAt (entries : Assoc Value) (place : Place) (v : Value) : Assoc Value :=
  match place.index with
  | none => entries.insert place.key v
  | some index =>
    match entries.get? place.key with
    | some (.array items) => entries.insert place.key (.array (items.set index v))
    | _ => entries

/-- The value one step leads to. A stored child is part of its parent; a
detached one is a copy and reaches the parent only when it is set again. -/
inductive Child where
  | stored (place : Place) (value : Value)
  | detached (value : Value)
deriving DecidableEq, Repr

namespace Child

def value : Child → Value
  | .stored _ v => v
  | .detached v => v

def isDetached : Child → Bool
  | .stored _ _ => false
  | .detached _ => true

end Child

end PropTree
