import PropTree.Value.Basic

set_option autoImplicit false

/-!
# Equalities of values

Equality of the type distinguishes floats by their bits and records by the
definition of their type.
-/

namespace PropTree

namespace Value

mutual

def same : Value → Value → Bool
  | .null, .null => true
  | .bool a, .bool b => a == b
  | .integer a, .integer b => a == b
  | .float x, .float y => x == y
  | .string s, .string t => s == t
  | .bytes s, .bytes t => s == t
  | .array xs, .array ys => sameItems xs ys
  | .map ⟨xs⟩, .map ⟨ys⟩ => sameEntries xs ys
  | .record t ⟨xs⟩, .record u ⟨ys⟩ => t == u && sameEntries xs ys
  | _, _ => false

def sameItems : List Value → List Value → Bool
  | [], [] => true
  | x :: xs, y :: ys => same x y && sameItems xs ys
  | _, _ => false

def sameEntries : List (String × Value) → List (String × Value) → Bool
  | [], [] => true
  | (k, x) :: xs, (l, y) :: ys => k == l && same x y && sameEntries xs ys
  | _, _ => false

end

mutual

theorem same_iff : ∀ a b : Value, same a b = true ↔ a = b
  | .null, b => by cases b <;> simp [same]
  | .bool _, b => by cases b <;> simp [same]
  | .integer _, b => by cases b <;> simp [same]
  | .float _, b => by cases b <;> simp [same]
  | .string _, b => by cases b <;> simp [same]
  | .bytes _, b => by cases b <;> simp [same]
  | .array xs, b => by cases b <;> simp [same, sameItems_iff xs]
  | .map ⟨xs⟩, b => by cases b <;> simp [same, Assoc.ext_iff, sameEntries_iff xs]
  | .record _ ⟨xs⟩, b => by cases b <;> simp [same, Assoc.ext_iff, sameEntries_iff xs]

theorem sameItems_iff : ∀ xs ys : List Value, sameItems xs ys = true ↔ xs = ys
  | [], ys => by cases ys <;> simp [sameItems]
  | x :: xs, ys => by cases ys <;> simp [sameItems, same_iff x, sameItems_iff xs]

theorem sameEntries_iff :
    ∀ xs ys : List (String × Value), sameEntries xs ys = true ↔ xs = ys
  | [], ys => by cases ys <;> simp [sameEntries]
  | (k, x) :: xs, ys => by
    cases ys <;> simp [sameEntries, same_iff x, sameEntries_iff xs, Prod.ext_iff, and_assoc]

end

instance : DecidableEq Value := fun a b => decidable_of_iff _ (same_iff a b)

mutual

/-- Floats are compared as numbers, so NaN differs from itself and the two
zeros agree; records of one type name are compared by their fields. -/
def equal : Value → Value → Bool
  | .float x, .float y => x.sameNumber y
  | .array xs, .array ys => equalItems xs ys
  | .map ⟨xs⟩, .map ⟨ys⟩ => equalEntries xs ys
  | .record t ⟨xs⟩, .record u ⟨ys⟩ => t.name == u.name && equalEntries xs ys
  | .null, .null => true
  | .bool a, .bool b => a == b
  | .integer a, .integer b => a == b
  | .string s, .string t => s == t
  | .bytes s, .bytes t => s == t
  | _, _ => false

def equalItems : List Value → List Value → Bool
  | [], [] => true
  | x :: xs, y :: ys => equal x y && equalItems xs ys
  | _, _ => false

def equalEntries : List (String × Value) → List (String × Value) → Bool
  | [], [] => true
  | (k, x) :: xs, (l, y) :: ys => k == l && equal x y && equalEntries xs ys
  | _, _ => false

end

mutual

/-- Floats are compared by their bits, so every value is identical to itself and
the two zeros differ. -/
def identical : Value → Value → Bool
  | .float x, .float y => x.bits == y.bits
  | .array xs, .array ys => identicalItems xs ys
  | .map ⟨xs⟩, .map ⟨ys⟩ => identicalEntries xs ys
  | .record t ⟨xs⟩, .record u ⟨ys⟩ => t.name == u.name && identicalEntries xs ys
  | a, b => a.equal b

def identicalItems : List Value → List Value → Bool
  | [], [] => true
  | x :: xs, y :: ys => identical x y && identicalItems xs ys
  | _, _ => false

def identicalEntries : List (String × Value) → List (String × Value) → Bool
  | [], [] => true
  | (k, x) :: xs, (l, y) :: ys => k == l && identical x y && identicalEntries xs ys
  | _, _ => false

end

mutual

/-- The same content, with every record referring to its type by name only. -/
def anonymous : Value → Value
  | .array items => .array (anonymousItems items)
  | .map ⟨entries⟩ => .map ⟨anonymousEntries entries⟩
  | .record type ⟨fields⟩ => .record ⟨type.name, 0⟩ ⟨anonymousEntries fields⟩
  | v => v

def anonymousItems : List Value → List Value
  | [] => []
  | v :: rest => anonymous v :: anonymousItems rest

def anonymousEntries : List (String × Value) → List (String × Value)
  | [] => []
  | (k, v) :: rest => (k, anonymous v) :: anonymousEntries rest

end

mutual

theorem anonymous_anonymous : ∀ v : Value, v.anonymous.anonymous = v.anonymous
  | .null | .bool _ | .integer _ | .float _ | .string _ | .bytes _ => rfl
  | .array items => by simp [anonymous, anonymousItems_anonymousItems items]
  | .map ⟨entries⟩ => by simp [anonymous, anonymousEntries_anonymousEntries entries]
  | .record _ ⟨fields⟩ => by simp [anonymous, anonymousEntries_anonymousEntries fields]

theorem anonymousItems_anonymousItems :
    ∀ items : List Value, anonymousItems (anonymousItems items) = anonymousItems items
  | [] => rfl
  | v :: rest => by
    simp [anonymousItems, anonymous_anonymous v, anonymousItems_anonymousItems rest]

theorem anonymousEntries_anonymousEntries :
    ∀ entries : List (String × Value),
      anonymousEntries (anonymousEntries entries) = anonymousEntries entries
  | [] => rfl
  | (k, v) :: rest => by
    simp [anonymousEntries, anonymous_anonymous v, anonymousEntries_anonymousEntries rest]

end

end Value

deriving instance DecidableEq for Record

end PropTree
