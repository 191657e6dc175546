import PropTree.Navigation.Element

set_option autoImplicit false

/-!
# Places and elements
-/

namespace PropTree

namespace Value

theorem isNull_iff {v : Value} : v.isNull = true ↔ v = .null := by
  cases v <;> simp [isNull]

theorem isNull_eq_false_iff {v : Value} : v.isNull = false ↔ v ≠ .null := by
  cases v <;> simp [isNull]

theorem element_eq_ok_iff {held item : Value} {property : String} {index : Nat} :
    held.element property index = .ok item ↔
      ∃ items, held = .array items ∧ items[index]? = some item := by
  cases held with
  | array items => cases h : items[index]? <;> simp [element, h]
  | _ => simp [element]

theorem elementChild_eq_some_iff {held item : Value} {property : String} {index : Nat}
    {lookup : Lookup} :
    held.elementChild property index lookup = .ok (some item) ↔
      held.element property index = .ok item ∧ item.isNull = false := by
  rw [element_eq_ok_iff]
  cases held with
  | array items =>
    cases h : items[index]? with
    | none => simp only [elementChild, h]; split <;> simp [h]
    | some found =>
      cases hn : found.isNull <;> simp only [elementChild, h, hn] <;> grind
  | null => cases lookup <;> simp [elementChild]
  | _ => simp [elementChild]

theorem elementChild_of_none {held : Value} {property : String} {index : Nat}
    (h : held.elementChild property index .read = .ok none) (lookup : Lookup) :
    held.elementChild property index lookup = .ok none := by
  cases held with
  | array items =>
    simp only [elementChild] at h ⊢
    cases hitem : items[index]? with
    | some item => simpa [hitem] using h
    | none => simp [hitem] at h
  | _ => cases h

theorem setElement_eq_ok {held changed item : Value} {property : String} {index : Nat}
    (h : held.setElement property index item = .ok changed) :
    ∃ items items', held = .array items ∧ changed = .array items' ∧
      items'[index]? = some item ∧ ∀ j, j ≠ index → items'[j]? = items[j]? := by
  cases held with
  | array items =>
    simp only [setElement] at h
    split at h
    · rename_i hlt
      obtain rfl := Except.ok.inj h
      refine ⟨items, _, rfl, rfl, by simp [hlt], ?_⟩
      intro j hj
      exact List.getElem?_set_ne (Ne.symm hj)
    · split at h
      · rename_i heq
        obtain rfl := Except.ok.inj h
        refine ⟨items, _, rfl, rfl, by simp [heq], ?_⟩
        intro j hj
        rcases Nat.lt_or_gt_of_ne hj with hlt | hgt
        · exact List.getElem?_append_left (by omega)
        · rw [List.getElem?_eq_none (by simp; omega), List.getElem?_eq_none (by omega)]
      · nomatch h
  | _ => nomatch h

theorem setElement_of_le {items : List Value} {index : Nat} (h : index ≤ items.length)
    (property : String) (item : Value) :
    ∃ items', (Value.array items).setElement property index item = .ok (.array items') := by
  simp only [setElement]
  split
  · exact ⟨_, rfl⟩
  · rw [if_pos (by omega)]
    exact ⟨_, rfl⟩

end Value

def Value.part (held : Value) (step : Step) : Except NavigationError Value :=
  match step.index with
  | none => .ok held
  | some index => held.element step.name index

theorem Value.isNull_of_part {held v : Value} {step : Step} (hpart : held.part step = .ok v)
    (hv : v.isNull = false) : held.isNull = false := by
  unfold part at hpart
  split at hpart
  · obtain rfl := Except.ok.inj hpart
    exact hv
  · obtain ⟨items, rfl, _⟩ := element_eq_ok_iff.1 hpart
    rfl

/-- No value is below both: other names, or one name with two indexes. -/
def Step.Apart (s t : Step) : Prop :=
  s.name ≠ t.name ∨ ∃ i j, s.index = some i ∧ t.index = some j ∧ i ≠ j

namespace Assoc

def peek (entries : Assoc Value) (place : Place) : Option Value :=
  match place.index with
  | none => entries.get? place.key
  | some index => ((entries.get? place.key).bind Value.array?).bind fun items => items[index]?

theorem peek_element {entries : Assoc Value} {key : String} {index : Nat} {v : Value} :
    entries.peek ⟨key, some index⟩ = some v ↔
      ∃ items, entries.get? key = some (.array items) ∧ items[index]? = some v := by
  cases h : entries.get? key with
  | none => simp [peek, h]
  | some held => cases held <;> simp [peek, h, Value.array?]

theorem peek_eq_some_iff {entries : Assoc Value} {key : String} {step : Step} {v : Value} :
    entries.peek ⟨key, step.index⟩ = some v ↔
      ∃ held, entries.get? key = some held ∧ held.part step = .ok v := by
  unfold Value.part
  cases step.index with
  | none => simp [peek]
  | some index => simp only [peek_element, Value.element_eq_ok_iff]; grind

theorem peek_putAt {entries : Assoc Value} {place : Place} {held : Value}
    (h : entries.peek place = some held) (v : Value) :
    (entries.putAt place v).peek place = some v := by
  obtain ⟨key, index⟩ := place
  cases index with
  | none => simp [peek, putAt]
  | some index =>
    obtain ⟨items, hget, hitem⟩ := peek_element.1 h
    have hlt : index < items.length := (List.getElem?_eq_some_iff.1 hitem).1
    have hput : entries.putAt ⟨key, some index⟩ v =
        entries.insert key (.array (items.set index v)) := by
      simp only [putAt, hget]
    rw [hput, peek_element]
    exact ⟨_, get?_insert_self _ _ _, by simp [hlt]⟩

theorem putAt_of_peek {entries : Assoc Value} {place : Place} {held : Value}
    (h : entries.peek place = some held) : entries.putAt place held = entries := by
  obtain ⟨key, index⟩ := place
  cases index with
  | none => exact insert_of_get? h
  | some index =>
    obtain ⟨items, hget, hitem⟩ := peek_element.1 h
    obtain ⟨hlt, rfl⟩ := List.getElem?_eq_some_iff.1 hitem
    simp only [putAt, hget, List.set_getElem_self]
    exact insert_of_get? hget

end Assoc

end PropTree
