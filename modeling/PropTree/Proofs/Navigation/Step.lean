import PropTree.Navigation.Walk
import PropTree.Proofs.Navigation.Place

set_option autoImplicit false

/-!
# What one step reads

`Value.get` and `Value.child` look at the same property: a step leads to a child
exactly if what it reads is not null.
-/

namespace PropTree

theorem map_eq_none_iff {ε α β : Type} {found : Except ε (Option α)} {f : α → β} :
    found.map (Option.map f) = .ok none ↔ found = .ok none := by
  cases found with
  | error e => simp [Except.map]
  | ok v => cases v <;> simp [Except.map]

theorem map_eq_some_iff {ε α β : Type} {found : Except ε (Option α)} {f : α → β} {b : β} :
    found.map (Option.map f) = .ok (some b) ↔ ∃ a, found = .ok (some a) ∧ f a = b := by
  cases found with
  | error e => simp [Except.map]
  | ok v => cases v <;> simp [Except.map]

namespace Record

variable {ctx : Context} {r : Record} {step : Step} {lookup : Lookup}

theorem childValue_eq_some_iff {held v : Value} :
    childValue held step lookup = .ok (some v) ↔ held.part step = .ok v ∧ v.isNull = false := by
  unfold childValue Value.part
  cases step.index with
  | none => cases h : held.isNull <;> simp <;> grind
  | some index => exact Value.elementChild_eq_some_iff

theorem get_eq_ok_iff {found : Option Value} :
    r.get ctx step = .ok found ↔
      ∃ held v, r.readProperty ctx step.name = .ok held ∧ held.part step = .ok v ∧
        found = some v := by
  unfold get
  cases r.readProperty ctx step.name with
  | error e => simp
  | ok held =>
    simp only [Except.ok.injEq, exists_and_left, exists_eq_left']
    unfold Value.part
    cases step.index with
    | none => simp [eq_comm]
    | some index =>
      dsimp only
      cases held.element step.name index <;> simp [Except.map, eq_comm]

theorem getter_of_readProperty {name : String} {held : Value}
    (h : r.readProperty ctx name = .ok held) :
    ∃ g, ctx.schema.getter r.type name = .ok g ∧ g.access.invoke r = .ok held := by
  unfold readProperty invokeGetter at h
  cases hg : ctx.schema.getter r.type name with
  | error e => simp [hg] at h
  | ok g => cases hi : g.access.invoke r <;> simp_all

theorem readProperty_of_getter {name : String} {g : Declared Getter} {held : Value}
    (hg : ctx.schema.getter r.type name = .ok g) (h : g.access.invoke r = .ok held) :
    r.readProperty ctx name = .ok held := by
  simp [readProperty, invokeGetter, hg, h]

def childOf (g : Getter) (step : Step) (v : Value) : Child :=
  match g.key? with
  | some key => .stored ⟨key, step.index⟩ v
  | none => .detached v

theorem childOf_value (g : Getter) (step : Step) (v : Value) : (childOf g step v).value = v := by
  cases g <;> rfl

theorem child_of_getter {g : Declared Getter} (hg : ctx.schema.getter r.type step.name = .ok g) :
    r.child ctx step lookup = (r.invokeGetter step.name g.access).bind fun held =>
      (childValue held step lookup).map (Option.map (childOf g.access step)) := by
  obtain ⟨type, access⟩ := g
  cases access with
  | field key => simp only [child, hg]; rfl
  | method run =>
    simp only [child, hg]
    cases r.invokeGetter step.name (.method run) <;> rfl

theorem childValue_of_none {held : Value} (h : childValue held step .read = .ok none)
    (lookup : Lookup) : childValue held step lookup = .ok none := by
  unfold childValue at h ⊢
  cases hindex : step.index with
  | none => simpa [hindex] using h
  | some index =>
    simp only [hindex] at h ⊢
    exact Value.elementChild_of_none h lookup

theorem child_eq_none_iff {g : Declared Getter} {held : Value}
    (hg : ctx.schema.getter r.type step.name = .ok g)
    (hi : r.invokeGetter step.name g.access = .ok held) :
    r.child ctx step lookup = .ok none ↔ childValue held step lookup = .ok none := by
  rw [child_of_getter hg, hi, Except.bind, map_eq_none_iff]

theorem child_of_none (h : r.child ctx step .read = .ok none) (lookup : Lookup) :
    r.child ctx step lookup = .ok none := by
  cases hg : ctx.schema.getter r.type step.name with
  | error e => simp [child, hg] at h
  | ok g =>
    cases hi : r.invokeGetter step.name g.access with
    | error e => simp [child_of_getter hg, hi, Except.bind] at h
    | ok held =>
      rw [child_eq_none_iff hg hi] at h ⊢
      exact childValue_of_none h lookup

theorem child_eq_some_iff {c : Child} :
    r.child ctx step lookup = .ok (some c) ↔
      ∃ g held v, ctx.schema.getter r.type step.name = .ok g ∧
        g.access.invoke r = .ok held ∧ held.part step = .ok v ∧ v.isNull = false ∧
        childOf g.access step v = c := by
  constructor
  · intro h
    cases hg : ctx.schema.getter r.type step.name with
    | error e => simp [child, hg] at h
    | ok g =>
      rw [child_of_getter hg, invokeGetter] at h
      cases hi : g.access.invoke r with
      | error e => simp [hi, Except.bind] at h
      | ok held =>
        rw [hi, Except.bind, map_eq_some_iff] at h
        obtain ⟨v, hv, hc⟩ := h
        obtain ⟨hpart, hnull⟩ := childValue_eq_some_iff.1 hv
        exact ⟨g, held, v, rfl, hi, hpart, hnull, hc⟩
  · rintro ⟨g, held, v, hg, hi, hpart, hnull, rfl⟩
    rw [child_of_getter hg, invokeGetter, hi, Except.bind, map_eq_some_iff]
    exact ⟨v, childValue_eq_some_iff.2 ⟨hpart, hnull⟩, rfl⟩

/-- A stored child is what its place holds: a field without storage reads as
null, and null has no parts to lead to. -/
theorem peek_of_child {place : Place} {v : Value}
    (h : r.child ctx step lookup = .ok (some (.stored place v))) :
    ∃ g key, ctx.schema.getter r.type step.name = .ok g ∧ g.access = .field key ∧
      place = ⟨key, step.index⟩ ∧ r.fields.peek place = some v := by
  obtain ⟨g, held, w, hg, hi, hpart, hnull, hc⟩ := child_eq_some_iff.1 h
  obtain ⟨type, access⟩ := g
  cases access with
  | method run => nomatch hc
  | field key =>
    obtain ⟨rfl, rfl⟩ := Child.stored.inj hc
    refine ⟨_, key, hg, rfl, rfl, Assoc.peek_eq_some_iff.2 ⟨held, ?_, hpart⟩⟩
    cases hw : r.fields.get? key with
    | some stored => simpa [Getter.invoke, hw] using hi
    | none =>
      obtain rfl : held = .null := by simpa [Getter.invoke, hw, eq_comm] using hi
      cases Value.isNull_of_part hpart hnull

end Record

namespace Mapping

variable {entries : Assoc Value} {step : Step} {lookup : Lookup}

theorem get_eq_some_iff {v : Value} :
    get entries step = .ok (some v) ↔
      ∃ held, entries.get? step.name = some held ∧ held.part step = .ok v := by
  unfold get Value.part
  cases step.index with
  | none => simp
  | some index =>
    cases entries.get? step.name with
    | none => simp [Value.element, Except.map]
    | some held => cases h : held.element step.name index <;> simp [h, Except.map]

theorem child_of_held {held : Value} (h : entries.get? step.name = some held)
    (hnull : held.isNull = false) :
    child entries step lookup =
      (Record.childValue held step lookup).map
        (Option.map (.stored ⟨step.name, step.index⟩)) := by
  unfold child Record.childValue
  simp only [h, hnull]
  cases step.index <;> rfl

theorem child_eq_some_iff {c : Child} :
    child entries step lookup = .ok (some c) ↔
      ∃ held v, entries.get? step.name = some held ∧ held.part step = .ok v ∧
        v.isNull = false ∧ .stored ⟨step.name, step.index⟩ v = c := by
  constructor
  · intro h
    cases hheld : entries.get? step.name with
    | none => simp [child, hheld] at h
    | some held =>
      cases hnull : held.isNull with
      | true => simp [child, hheld, hnull] at h
      | false =>
        rw [child_of_held hheld hnull, map_eq_some_iff] at h
        obtain ⟨v, hv, hc⟩ := h
        obtain ⟨hpart, hnotnull⟩ := Record.childValue_eq_some_iff.1 hv
        exact ⟨held, v, rfl, hpart, hnotnull, hc⟩
  · rintro ⟨held, v, hheld, hpart, hnull, rfl⟩
    rw [child_of_held hheld (Value.isNull_of_part hpart hnull), map_eq_some_iff]
    exact ⟨v, Record.childValue_eq_some_iff.2 ⟨hpart, hnull⟩, rfl⟩

theorem child_of_none (h : child entries step .read = .ok none) (lookup : Lookup) :
    child entries step lookup = .ok none := by
  cases hheld : entries.get? step.name with
  | none => simp [child, hheld]
  | some held =>
    cases hnull : held.isNull with
    | true => simp [child, hheld, hnull]
    | false =>
      rw [child_of_held hheld hnull, map_eq_none_iff] at h ⊢
      exact Record.childValue_of_none h lookup

theorem peek_of_child {place : Place} {v : Value}
    (h : child entries step lookup = .ok (some (.stored place v))) :
    place = ⟨step.name, step.index⟩ ∧ entries.peek place = some v := by
  obtain ⟨held, w, hheld, hpart, _, hc⟩ := child_eq_some_iff.1 h
  obtain ⟨rfl, rfl⟩ := Child.stored.inj hc
  exact ⟨rfl, Assoc.peek_eq_some_iff.2 ⟨held, hheld, hpart⟩⟩

end Mapping

namespace Value

variable {ctx : Context} {root v : Value} {step : Step} {lookup : Lookup} {c : Child}

theorem get_of_child (h : root.child ctx step lookup = .ok (some c)) :
    root.get ctx step = .ok (some c.value) ∧ c.value.isNull = false := by
  cases root with
  | record type fields =>
    obtain ⟨g, held, v, hg, hi, hpart, hnull, rfl⟩ := Record.child_eq_some_iff.1 h
    have hread := Record.readProperty_of_getter (r := ⟨type, fields⟩) hg hi
    rw [Record.childOf_value]
    exact ⟨Record.get_eq_ok_iff.2 ⟨held, v, hread, hpart, rfl⟩, hnull⟩
  | map entries =>
    obtain ⟨held, v, hheld, hpart, hnull, rfl⟩ := Mapping.child_eq_some_iff.1 h
    exact ⟨Mapping.get_eq_some_iff.2 ⟨held, hheld, hpart⟩, hnull⟩
  | _ => nomatch h

theorem child_of_get (h : root.get ctx step = .ok (some v)) (hv : v.isNull = false)
    (lookup : Lookup) : ∃ c, root.child ctx step lookup = .ok (some c) ∧ c.value = v := by
  cases root with
  | record type fields =>
    obtain ⟨held, w, hread, hpart, hw⟩ := Record.get_eq_ok_iff.1 h
    obtain rfl := Option.some.inj hw
    obtain ⟨g, hg, hi⟩ := Record.getter_of_readProperty hread
    exact ⟨_, Record.child_eq_some_iff.2 ⟨g, held, v, hg, hi, hpart, hv, rfl⟩,
      Record.childOf_value _ _ _⟩
  | map entries =>
    obtain ⟨held, hheld, hpart⟩ := Mapping.get_eq_some_iff.1 h
    exact ⟨_, Mapping.child_eq_some_iff.2 ⟨held, v, hheld, hpart, hv, rfl⟩, rfl⟩
  | _ => nomatch h

theorem child_of_child (h : root.child ctx step lookup = .ok (some c)) (other : Lookup) :
    root.child ctx step other = .ok (some c) := by
  cases root with
  | record type fields => exact Record.child_eq_some_iff.2 (Record.child_eq_some_iff.1 h)
  | map entries => exact Mapping.child_eq_some_iff.2 (Mapping.child_eq_some_iff.1 h)
  | _ => nomatch h

theorem child_of_none (h : root.child ctx step .read = .ok none) (lookup : Lookup) :
    root.child ctx step lookup = .ok none := by
  cases root with
  | record type fields => exact Record.child_of_none (r := ⟨type, fields⟩) h lookup
  | map entries => exact Mapping.child_of_none h lookup
  | _ => nomatch h

theorem get_putAt {place : Place} {held : Value}
    (h : root.child ctx step lookup = .ok (some (.stored place held))) (new : Value) :
    (root.putAt place new).get ctx step = .ok (some new) := by
  cases root with
  | record type fields =>
    obtain ⟨g, key, hg, haccess, rfl, hpeek⟩ := Record.peek_of_child h
    obtain ⟨whole, hstored, hpart⟩ := Assoc.peek_eq_some_iff.1 (Assoc.peek_putAt hpeek new)
    have hread : Record.readProperty ctx ⟨type, fields.putAt ⟨key, step.index⟩ new⟩ step.name =
        .ok whole :=
      Record.readProperty_of_getter hg (by simp [haccess, Getter.invoke, hstored])
    exact Record.get_eq_ok_iff.2 ⟨whole, new, hread, hpart, rfl⟩
  | map entries =>
    obtain ⟨rfl, hpeek⟩ := Mapping.peek_of_child h
    exact Mapping.get_eq_some_iff.2 (Assoc.peek_eq_some_iff.1 (Assoc.peek_putAt hpeek new))
  | _ => nomatch h

theorem putAt_of_child {place : Place} {held : Value}
    (h : root.child ctx step lookup = .ok (some (.stored place held))) :
    root.putAt place held = root := by
  cases root with
  | record type fields =>
    obtain ⟨_, _, _, _, rfl, hpeek⟩ := Record.peek_of_child h
    exact congrArg (Value.record type) (Assoc.putAt_of_peek hpeek)
  | map entries =>
    obtain ⟨rfl, hpeek⟩ := Mapping.peek_of_child h
    exact congrArg Value.map (Assoc.putAt_of_peek hpeek)
  | _ => nomatch h

end Value

end PropTree
