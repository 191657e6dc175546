import Mathlib.Data.List.Forall2
import PropTree.Value.Equality
import PropTree.Value.HashData
import PropTree.Value.Text

set_option autoImplicit false

/-!
# Identical values
-/

namespace PropTree

namespace Value

inductive Identical : Value → Value → Prop where
  | null : Identical .null .null
  | bool (b : Bool) : Identical (.bool b) (.bool b)
  | integer (n : Int64) : Identical (.integer n) (.integer n)
  | float {x y : Binary64} (h : x.bits = y.bits) : Identical (.float x) (.float y)
  | string (s : String) : Identical (.string s) (.string s)
  | bytes (data : List UInt8) : Identical (.bytes data) (.bytes data)
  | array {xs ys : List Value} (h : List.Forall₂ Identical xs ys) :
      Identical (.array xs) (.array ys)
  | map {xs ys : Assoc Value} (hkeys : xs.keys = ys.keys)
      (h : List.Forall₂ Identical (xs.entries.map (·.2)) (ys.entries.map (·.2))) :
      Identical (.map xs) (.map ys)
  | record {t u : TypeRef} {xs ys : Fields} (hname : t.name = u.name) (hkeys : xs.keys = ys.keys)
      (h : List.Forall₂ Identical (xs.entries.map (·.2)) (ys.entries.map (·.2))) :
      Identical (.record t xs) (.record u ys)

theorem identical_float_iff {x y : Binary64} :
    Identical (.float x) (.float y) ↔ x.bits = y.bits :=
  ⟨fun | .float h => h, .float⟩

theorem identical_array_iff {xs ys : List Value} :
    Identical (.array xs) (.array ys) ↔ List.Forall₂ Identical xs ys :=
  ⟨fun | .array h => h, .array⟩

theorem identical_map_iff {xs ys : Assoc Value} :
    Identical (.map xs) (.map ys) ↔
      xs.keys = ys.keys ∧ List.Forall₂ Identical (xs.entries.map (·.2)) (ys.entries.map (·.2)) :=
  ⟨fun | .map hkeys h => ⟨hkeys, h⟩, fun h => .map h.1 h.2⟩

theorem identical_record_iff {t u : TypeRef} {xs ys : Fields} :
    Identical (.record t xs) (.record u ys) ↔
      t.name = u.name ∧ xs.keys = ys.keys ∧
        List.Forall₂ Identical (xs.entries.map (·.2)) (ys.entries.map (·.2)) :=
  ⟨fun | .record hname hkeys h => ⟨hname, hkeys, h⟩, fun h => .record h.1 h.2.1 h.2.2⟩

mutual

/-- A comparison tells whether two values are identical, and they are just if they
are one value once the definitions of their records are forgotten. -/
theorem identical_iff : ∀ a b : Value,
    (identical a b = true ↔ Identical a b) ∧ (a.anonymous = b.anonymous ↔ Identical a b)
  | .null, b => by
    cases b with
    | null => exact ⟨iff_of_true rfl .null, iff_of_true rfl .null⟩
    | _ => exact ⟨iff_of_false nofun nofun, iff_of_false nofun nofun⟩
  | .bool _, b => by
    cases b with
    | bool _ => grind [identical, equal, anonymous, Identical]
    | _ => exact ⟨iff_of_false nofun nofun, iff_of_false nofun nofun⟩
  | .integer _, b => by
    cases b with
    | integer _ => grind [identical, equal, anonymous, Identical]
    | _ => exact ⟨iff_of_false nofun nofun, iff_of_false nofun nofun⟩
  | .float ⟨_⟩, b => by
    cases b with
    | float y =>
      obtain ⟨_⟩ := y
      simp [identical, anonymous, identical_float_iff]
    | _ => exact ⟨iff_of_false nofun nofun, iff_of_false nofun nofun⟩
  | .string _, b => by
    cases b with
    | string _ => grind [identical, equal, anonymous, Identical]
    | _ => exact ⟨iff_of_false nofun nofun, iff_of_false nofun nofun⟩
  | .bytes _, b => by
    cases b with
    | bytes _ => grind [identical, equal, anonymous, Identical]
    | _ => exact ⟨iff_of_false nofun nofun, iff_of_false nofun nofun⟩
  | .array xs, b => by
    cases b with
    | array ys =>
      rw [identical_array_iff, identical, anonymous, anonymous, array.injEq]
      exact identicalItems_iff xs ys
    | _ => exact ⟨iff_of_false nofun nofun, iff_of_false nofun nofun⟩
  | .map ⟨xs⟩, b => by
    cases b with
    | map ys =>
      rw [identical_map_iff, identical, anonymous, anonymous, map.injEq, Assoc.mk.injEq]
      exact identicalEntries_iff xs ys.entries
    | _ => exact ⟨iff_of_false nofun nofun, iff_of_false nofun nofun⟩
  | .record t ⟨xs⟩, b => by
    cases b with
    | record u ys =>
      obtain ⟨hsame, hcontent⟩ := identicalEntries_iff xs ys.entries
      constructor
      · rw [identical_record_iff, identical, Bool.and_eq_true, beq_iff_eq, hsame]
        rfl
      · simp only [identical_record_iff, anonymous, record.injEq, TypeRef.mk.injEq, and_true,
          Assoc.mk.injEq, hcontent]
        rfl
    | _ => exact ⟨iff_of_false nofun nofun, iff_of_false nofun nofun⟩

theorem identicalItems_iff : ∀ xs ys : List Value,
    (identicalItems xs ys = true ↔ List.Forall₂ Identical xs ys) ∧
      (anonymousItems xs = anonymousItems ys ↔ List.Forall₂ Identical xs ys)
  | [], ys => by cases ys <;> simp [identicalItems, anonymousItems]
  | x :: xs, ys => by
    cases ys <;> simp [identicalItems, anonymousItems, identical_iff x, identicalItems_iff xs]

theorem identicalEntries_iff : ∀ xs ys : List (String × Value),
    (identicalEntries xs ys = true ↔
        xs.map (·.1) = ys.map (·.1) ∧ List.Forall₂ Identical (xs.map (·.2)) (ys.map (·.2))) ∧
      (anonymousEntries xs = anonymousEntries ys ↔
        xs.map (·.1) = ys.map (·.1) ∧ List.Forall₂ Identical (xs.map (·.2)) (ys.map (·.2)))
  | [], ys => by cases ys <;> simp [identicalEntries, anonymousEntries]
  | (k, x) :: xs, ys => by
    cases ys <;> simp [identicalEntries, anonymousEntries, identical_iff x,
      identicalEntries_iff xs, and_assoc, and_left_comm]

end

/-! ### Content alone -/

theorem anonymousItems_eq_map (vs : List Value) : anonymousItems vs = vs.map anonymous := by
  induction vs with
  | nil => rfl
  | cons v vs ih => rw [anonymousItems, ih, List.map_cons]

/-! ### What is hashed -/

mutual

theorem hashData_anonymous : ∀ v : Value, v.anonymous.hashData = v.hashData
  | .null | .bool _ | .integer _ | .float _ | .string _ | .bytes _ => rfl
  | .array items => by simp [anonymous, hashData, hashItems_anonymous items]
  | .map ⟨entries⟩ => by simp [anonymous, hashData, hashEntries_anonymous entries]
  | .record _ ⟨fields⟩ => by simp [anonymous, hashData, hashEntries_anonymous fields]

theorem hashItems_anonymous : ∀ items : List Value,
    (anonymousItems items).length = items.length ∧
      hashItems (anonymousItems items) = hashItems items
  | [] => ⟨rfl, rfl⟩
  | v :: rest => by simp [anonymousItems, hashItems, hashData_anonymous v, hashItems_anonymous rest]

theorem hashEntries_anonymous : ∀ entries : List (String × Value),
    (anonymousEntries entries).length = entries.length ∧
      hashEntries (anonymousEntries entries) = hashEntries entries
  | [] => ⟨rfl, rfl⟩
  | (k, v) :: rest => by
    simp [anonymousEntries, hashEntries, hashData_anonymous v, hashEntries_anonymous rest]

end

theorem Identical.hashData_eq {a b : Value} (h : Identical a b) : a.hashData = b.hashData := by
  rw [← hashData_anonymous a, (identical_iff a b).2.2 h, hashData_anonymous b]

/-! ### What is written -/

mutual

theorem text_anonymous : ∀ v : Value, v.anonymous.text = v.text
  | .null | .bool _ | .integer _ | .float _ | .string _ | .bytes _ => rfl
  | .array items => by simp only [anonymous, text, itemTexts_anonymous items]
  | .map ⟨entries⟩ => by simp only [anonymous, text, entryTexts_anonymous entries]
  | .record _ ⟨fields⟩ => by simp only [anonymous, text, entryTexts_anonymous fields]

theorem itemTexts_anonymous :
    ∀ items : List Value, itemTexts (anonymousItems items) = itemTexts items
  | [] => rfl
  | v :: rest => by simp [anonymousItems, itemTexts, text_anonymous v, itemTexts_anonymous rest]

theorem entryTexts_anonymous :
    ∀ entries : List (String × Value), entryTexts (anonymousEntries entries) = entryTexts entries
  | [] => rfl
  | (k, v) :: rest => by
    simp [anonymousEntries, entryTexts, text_anonymous v, entryTexts_anonymous rest]

end

end Value

end PropTree
