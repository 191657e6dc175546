import PropTree.Proofs.Navigation.Place
import PropTree.Navigation.Property

set_option autoImplicit false

/-!
# Values that only grow

A null may have become anything, an array may have more elements and a table more
keys, and everything else is as it was.
-/

namespace PropTree

theorem Assoc.sizeOf_lt_of_get? {α : Type} [SizeOf α] {m : Assoc α} {key : String} {a : α}
    (h : m.get? key = some a) : sizeOf a < sizeOf m := by
  obtain ⟨entries⟩ := m
  have hentry : sizeOf (key, a) < sizeOf entries :=
    List.sizeOf_lt_of_mem (Assoc.mem_of_findEntry h)
  simp only [Prod.mk.sizeOf_spec, Assoc.mk.sizeOf_spec] at hentry ⊢
  omega

namespace Value

@[elab_as_elim]
theorem parts_induction {P : Value → Prop} (v : Value)
    (scalar : ∀ v, v.shape? = none → P v)
    (array : ∀ items, (∀ v ∈ items, P v) → P (.array items))
    (map : ∀ entries, (∀ key v, entries.get? key = some v → P v) → P (.map entries))
    (record : ∀ type fields, (∀ key v, fields.get? key = some v → P v) →
      P (.record type fields)) : P v := by
  induction hn : sizeOf v using Nat.strongRecOn generalizing v with
  | _ n ih =>
    subst hn
    cases v with
    | array items =>
      refine array items fun u hu => ih (sizeOf u) ?_ u rfl
      have hlt := List.sizeOf_lt_of_mem hu
      simp only [Value.array.sizeOf_spec]
      omega
    | map entries =>
      refine map entries fun key u hu => ih (sizeOf u) ?_ u rfl
      have hlt := Assoc.sizeOf_lt_of_get? hu
      simp only [Value.map.sizeOf_spec]
      omega
    | record type fields =>
      refine record type fields fun key u hu => ih (sizeOf u) ?_ u rfl
      have hlt := Assoc.sizeOf_lt_of_get? hu
      simp only [Value.record.sizeOf_spec]
      omega
    | _ => exact scalar _ rfl

inductive ExtendedBy : Value → Value → Prop where
  | null (b : Value) : ExtendedBy .null b
  | scalar {v : Value} (h : v.shape? = none) : ExtendedBy v v
  | array {xs ys : List Value} (hlength : xs.length ≤ ys.length)
      (h : ∀ (i : Nat) (x y : Value), xs[i]? = some x → ys[i]? = some y →
        ExtendedBy x y) : ExtendedBy (.array xs) (.array ys)
  | map {m m' : Assoc Value} (hkeys : ∀ key, m.contains key → m'.contains key)
      (h : ∀ key a b, m.get? key = some a → m'.get? key = some b → ExtendedBy a b) :
      ExtendedBy (.map m) (.map m')
  | record {type : TypeRef} {fields fields' : Fields}
      (hkeys : ∀ key, fields.contains key → fields'.contains key)
      (h : ∀ key a b, fields.get? key = some a → fields'.get? key = some b → ExtendedBy a b) :
      ExtendedBy (.record type fields) (.record type fields')

theorem ExtendedBy.of_elements {xs ys : List Value}
    (h : ∀ (i : Nat) (x : Value), xs[i]? = some x → ∃ y, ys[i]? = some y ∧ x.ExtendedBy y) :
    (Value.array xs).ExtendedBy (.array ys) := by
  refine .array ?_ ?_
  · refine Nat.le_of_not_lt fun hlt => ?_
    obtain ⟨y, hy, _⟩ := h ys.length xs[ys.length] (List.getElem?_eq_getElem hlt)
    have hnone : ys[ys.length]? = none := List.getElem?_eq_none (Nat.le_refl _)
    rw [hnone] at hy
    nomatch hy
  · intro i x y hx hy
    obtain ⟨y', hy', hxy⟩ := h i x hx
    rw [hy] at hy'
    obtain rfl := Option.some.inj hy'
    exact hxy

end Value

namespace Assoc

def ExtendedBy (m m' : Assoc Value) : Prop :=
  ∀ key a, m.get? key = some a → ∃ b, m'.get? key = some b ∧ a.ExtendedBy b

variable {m m' : Assoc Value}

theorem ExtendedBy.contains (h : m.ExtendedBy m') (key : String) (hkey : m.contains key) :
    m'.contains key := by
  obtain ⟨a, ha⟩ := Option.isSome_iff_exists.1 hkey
  obtain ⟨b, hb, _⟩ := h key a ha
  exact Option.isSome_iff_exists.2 ⟨b, hb⟩

theorem ExtendedBy.entry (h : m.ExtendedBy m') (key : String) (a b : Value)
    (ha : m.get? key = some a) (hb : m'.get? key = some b) : a.ExtendedBy b := by
  obtain ⟨b', hb', hab⟩ := h key a ha
  rw [hb] at hb'
  obtain rfl := Option.some.inj hb'
  exact hab

end Assoc

namespace Value

theorem ExtendedBy.refl (v : Value) : v.ExtendedBy v := by
  induction v using parts_induction with
  | scalar v h => exact .scalar h
  | array items ih =>
    refine .of_elements fun i x hx => ⟨x, hx, ih x (List.mem_of_getElem? hx)⟩
  | map entries ih =>
    have h : entries.ExtendedBy entries := fun key a ha => ⟨a, ha, ih key a ha⟩
    exact .map h.contains h.entry
  | record type fields ih =>
    have h : fields.ExtendedBy fields := fun key a ha => ⟨a, ha, ih key a ha⟩
    exact .record h.contains h.entry

theorem ExtendedBy.of_setElement {held changed v : Value} {property : String} {index : Nat}
    (h : held.setElement property index v = .ok changed)
    (hv : ∀ item, held.element property index = .ok item → item.ExtendedBy v) :
    held.ExtendedBy changed := by
  obtain ⟨items, items', rfl, rfl, hput, hother⟩ := setElement_eq_ok h
  refine .of_elements fun i x hx => ?_
  by_cases hi : i = index
  · subst hi
    exact ⟨v, hput, hv x (element_eq_ok_iff.2 ⟨items, rfl, hx⟩)⟩
  · exact ⟨x, (hother i hi).trans hx, .refl x⟩

end Value

namespace Assoc

variable {m : Assoc Value} {key : String} {v : Value}

theorem ExtendedBy.refl (m : Assoc Value) : m.ExtendedBy m :=
  fun _ a ha => ⟨a, ha, .refl a⟩

/-- A missing key counts as a null here. -/
theorem extendedBy_insert (h : ((m.get? key).getD .null).ExtendedBy v) :
    m.ExtendedBy (m.insert key v) := by
  intro other a ha
  by_cases hother : other = key
  · subst hother
    rw [ha, Option.getD_some] at h
    exact ⟨v, get?_insert_self m other v, h⟩
  · exact ⟨a, (get?_insert_of_ne m hother v).trans ha, .refl a⟩

end Assoc

end PropTree
