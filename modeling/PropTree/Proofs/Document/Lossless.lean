import PropTree.Proofs.Document.RoundTrip

set_option autoImplicit false

/-!
# Documents and values without types

What a value is written as has no integer that does not fit, so it is always read
and written back as it is, also where the value itself is lost.
-/

namespace PropTree

inductive Document.Narrow : Document → Prop where
  | null : Narrow .null
  | bool (b : Bool) : Narrow (.bool b)
  | integer {n : WideInt} (h : n.val ≤ Int64.maxValue.toInt) : Narrow (.integer n)
  | float (x : FiniteFloat) : Narrow (.float x)
  | string (text : String) : Narrow (.string text)
  | array {items : List Document} (h : ∀ d ∈ items, Narrow d) : Narrow (.array items)
  | object {entries : Assoc Document} (h : ∀ entry ∈ entries.entries, Narrow entry.2) :
      Narrow (.object entries)

namespace Document

variable {n : WideInt} {x : Binary64}

/-! ### Numbers -/

theorem ofInt64_ofInt (h : n.val ≤ Int64.maxValue.toInt) :
    WideInt.ofInt64 (Int64.ofInt n.val) = n := by
  have hmost := Int64.toInt_maxValue
  have hval : (Int64.ofInt n.val).toInt = n.val := Int64.toInt_ofInt_of_le n.lower (by omega)
  unfold WideInt.ofInt64
  simp only [hval]

theorem ofValue_valueOfInt_iff :
    ofValue (valueOfInt n) = .integer n ↔ n.val ≤ Int64.maxValue.toInt := by
  unfold valueOfInt
  by_cases h : n.val ≤ Int64.maxValue.toInt
  · rw [if_pos h, ofValue, ofInt64_ofInt h]
    exact iff_of_true rfl h
  · rw [if_neg h, ofValue, ofBinary64]
    split <;> simp [h]

theorem toValue_ofBinary64_iff : (ofBinary64 x).toValue = .float x ↔ x.isFinite = true := by
  unfold ofBinary64
  by_cases h : x.isFinite = true
  · rw [dif_pos h, toValue]
    exact iff_of_true rfl h
  · rw [dif_neg h, toValue]
    simp [h]

theorem narrow_array_iff {items : List Document} :
    Narrow (.array items) ↔ ∀ d ∈ items, d.Narrow :=
  ⟨fun | .array h => h, .array⟩

theorem narrow_object_iff {entries : List (String × Document)} :
    Narrow (.object ⟨entries⟩) ↔ ∀ entry ∈ entries, entry.2.Narrow :=
  ⟨fun | .object h => h, .object⟩

/-! ### Read, then written -/

mutual

theorem ofValue_toValue_iff : ∀ d : Document, ofValue d.toValue = d ↔ d.Narrow
  | .null => iff_of_true rfl .null
  | .bool b => iff_of_true rfl (.bool b)
  | .integer n => by
    rw [toValue, ofValue_valueOfInt_iff]
    exact ⟨.integer, fun | .integer h => h⟩
  | .float x => iff_of_true (ofBinary64_of_isFinite x.finite) (.float x)
  | .string text => iff_of_true rfl (.string text)
  | .array items => by
    rw [toValue, ofValue, Document.array.injEq, ofItems_toItems_iff items, narrow_array_iff]
  | .object ⟨entries⟩ => by
    rw [toValue, ofValue, Document.object.injEq, Assoc.mk.injEq, ofEntries_toEntries_iff entries,
      narrow_object_iff]

theorem ofItems_toItems_iff : ∀ items : List Document,
    ofItems (toItems items) = items ↔ ∀ d ∈ items, d.Narrow
  | [] => iff_of_true rfl (List.forall_mem_nil _)
  | d :: rest => by
    rw [toItems, ofItems, List.cons.injEq, ofValue_toValue_iff d, ofItems_toItems_iff rest,
      List.forall_mem_cons]

theorem ofEntries_toEntries_iff : ∀ entries : List (String × Document),
    ofEntries (toEntries entries) = entries ↔ ∀ entry ∈ entries, entry.2.Narrow
  | [] => iff_of_true rfl (List.forall_mem_nil _)
  | (key, d) :: rest => by
    rw [toEntries, ofEntries, List.cons.injEq, Prod.mk.injEq, ofValue_toValue_iff d,
      ofEntries_toEntries_iff rest, List.forall_mem_cons]
    simp only [true_and]

end

/-! ### Written, then read -/

mutual

/-- What is lost is bytes, a record or a float that is not finite. -/
theorem untyped_of_toValue_ofValue : ∀ v : Value, (ofValue v).toValue = v → v.Untyped
  | .null, _ => .null
  | .bool b, _ => .bool b
  | .integer n, _ => .integer n
  | .float _, h => .float (toValue_ofBinary64_iff.1 h)
  | .string text, _ => .string text
  | .bytes _, h => by cases h
  | .array items, h => .array (untyped_of_toItems_ofItems items (Value.array.inj h))
  | .map ⟨entries⟩, h =>
    .map (untyped_of_toEntries_ofEntries entries (Assoc.mk.inj (Value.map.inj h)))
  | .record _ ⟨_⟩, h => by cases h

theorem untyped_of_toItems_ofItems : ∀ items : List Value,
    toItems (ofItems items) = items → ∀ v ∈ items, v.Untyped
  | [], _ => List.forall_mem_nil _
  | v :: rest, h =>
    have ⟨hv, hrest⟩ := List.cons.inj h
    List.forall_mem_cons.2
      ⟨untyped_of_toValue_ofValue v hv, untyped_of_toItems_ofItems rest hrest⟩

theorem untyped_of_toEntries_ofEntries : ∀ entries : List (String × Value),
    toEntries (ofEntries entries) = entries → ∀ entry ∈ entries, entry.2.Untyped
  | [], _ => List.forall_mem_nil _
  | (_, v) :: rest, h =>
    have ⟨hentry, hrest⟩ := List.cons.inj h
    List.forall_mem_cons.2
      ⟨untyped_of_toValue_ofValue v (Prod.mk.inj hentry).2,
        untyped_of_toEntries_ofEntries rest hrest⟩

end

mutual

theorem narrow_ofValue : ∀ v : Value, (ofValue v).Narrow
  | .null => .null
  | .bool b => .bool b
  | .integer n => .integer n.toInt_le
  | .float x => by
    rw [ofValue, ofBinary64]
    split
    · exact .float _
    · exact .null
  | .string text => .string text
  | .bytes data => .string (Base64.encode data)
  | .array items => .array (narrow_ofItems items)
  | .map ⟨entries⟩ => .object (narrow_ofEntries entries)
  | .record _ ⟨fields⟩ => .object (narrow_ofEntries fields)

theorem narrow_ofItems (items : List Value) : ∀ d ∈ ofItems items, d.Narrow := by
  cases items with
  | nil => exact List.forall_mem_nil _
  | cons v rest => exact List.forall_mem_cons.2 ⟨narrow_ofValue v, narrow_ofItems rest⟩

theorem narrow_ofEntries (entries : List (String × Value)) :
    ∀ entry ∈ ofEntries entries, entry.2.Narrow := by
  cases entries with
  | nil => exact List.forall_mem_nil _
  | cons entry rest => exact List.forall_mem_cons.2 ⟨narrow_ofValue entry.2, narrow_ofEntries rest⟩

end

/-- Without a type, a document is written as it was read exactly if its
integers all fit a value, and a value is read as it was written exactly if it is
made of nulls, booleans, integers, finite floats, texts, arrays and mappings,
with the bits of its floats. What any value at all is written as is read and
written as that again. -/
theorem untyped_lossless :
    (∀ d : Document, ofValue d.toValue = d ↔ d.Narrow) ∧
      (∀ v : Value, (ofValue v).toValue = v ↔ v.Untyped) ∧
      ∀ v : Value, ofValue (ofValue v).toValue = ofValue v := by
  refine ⟨ofValue_toValue_iff, fun v => ?_, fun v => ?_⟩
  · exact ⟨untyped_of_toValue_ofValue v, toValue_ofValue⟩
  · exact (ofValue_toValue_iff (ofValue v)).2 (narrow_ofValue v)

example :
    let n : WideInt := ⟨9223372036854775808, by decide, by decide⟩
    (Document.integer n).toValue = .float ⟨0x43e0000000000000⟩ := by
  rfl

end Document

end PropTree
