import PropTree.Navigation.Declared
import PropTree.Proofs.Navigation.Step

set_option autoImplicit false

/-!
# One level of a walk

A write is entering the child, writing below and giving it back; a read is looking
at the child.
-/

namespace PropTree

namespace Value

variable {ctx : Context} {root parent : Value} {step : Step} {rest : Path} {new : Value}
  {lookup : Lookup} {c : Child}

def lookBelow (ctx : Context) (root : Value) (step : Step) (rest : Path) (lookup : Lookup) :
    Except NavigationError (Option Child) := do
  let _ ← root.shape
  rest.check
  root.child ctx step lookup

/-- The child a write goes on in, with the parent it belongs to; none where a
null is written below something absent. -/
def enter (ctx : Context) (root : Value) (step : Step) (rest : Path) (new : Value) :
    Value × Except NavigationError (Option Child) :=
  match root.lookBelow ctx step rest .write with
  | .error e => (root, .error e)
  | .ok (some found) => (root, .ok (some found))
  | .ok none =>
    if new.isNull then (root, .ok none)
    else ((root.instantiateChild ctx step).1, (root.instantiateChild ctx step).2.map some)

theorem write_next :
    root.write ctx (.next step rest) new =
      match root.enter ctx step rest new with
      | (parent, .error e) => (parent, .error e)
      | (parent, .ok none) => (parent, .ok ())
      | (parent, .ok (some c)) =>
        parent.giveBack ctx step c (c.value.write ctx rest new) := by
  rw [write]
  change (match root.lookBelow ctx step rest .write with
    | .error e => (root, .error e)
    | .ok (some found) => root.giveBack ctx step found (found.value.write ctx rest new)
    | .ok none => _ : Value × Except NavigationError Unit) = _
  unfold enter
  cases root.lookBelow ctx step rest .write with
  | error e => rfl
  | ok found =>
    cases found with
    | some found => rfl
    | none =>
      cases new.isNull with
      | true => rfl
      | false =>
        obtain ⟨root', made⟩ := root.instantiateChild ctx step
        cases made <;> rfl

theorem lookBelow_eq_ok_iff {found : Option Child} :
    root.lookBelow ctx step rest lookup = .ok found ↔
      rest.check = .ok () ∧ root.child ctx step lookup = .ok found := by
  unfold lookBelow shape
  cases hs : root.shape? with
  | none =>
    have hchild : root.child ctx step lookup ≠ .ok found := by
      cases root <;> simp_all [shape?, child, refuse]
    simp [hchild, bind, Except.bind]
  | some s => cases rest.check <;> simp [bind, Except.bind]

theorem read_next :
    root.read ctx (.next step rest) =
      match root.lookBelow ctx step rest .read with
      | .error e => .error e
      | .ok none => .ok none
      | .ok (some c) => c.value.read ctx rest := by
  simp only [read, lookBelow]
  cases root.shape with
  | error e => rfl
  | ok s =>
    cases rest.check with
    | error e => rfl
    | ok u =>
      cases root.child ctx step .read with
      | error e => rfl
      | ok found => cases found <;> rfl

theorem read_of_check_error {e : NavigationError} (h : rest.check = .error e) (v : Value) :
    v.read ctx rest = .error e := by
  cases rest with
  | malformed e' => simpa [Path.check, Path.headError?, read] using h
  | last _ | next _ _ => nomatch h

theorem read_next_of_child (h : root.child ctx step .read = .ok (some c)) :
    root.read ctx (.next step rest) = c.value.read ctx rest := by
  rw [read_next]
  cases hr : rest.check with
  | ok u => rw [lookBelow_eq_ok_iff.2 ⟨hr, h⟩]
  | error e =>
    have hshape : root.shape? ≠ none := by
      intro hs
      cases root <;> simp_all [shape?, child, refuse]
    obtain ⟨s, hs⟩ := Option.ne_none_iff_exists'.1 hshape
    have hlook : root.lookBelow ctx step rest .read = .error e := by
      simp [lookBelow, shape, hs, hr, bind, Except.bind]
    rw [hlook, read_of_check_error hr]

theorem child_of_read_next {w : Value} (h : root.read ctx (.next step rest) = .ok (some w)) :
    ∃ c, root.child ctx step .read = .ok (some c) ∧ c.value.read ctx rest = .ok (some w) := by
  rw [read_next] at h
  split at h
  · nomatch h
  · nomatch h
  · rename_i c hlook
    exact ⟨c, (lookBelow_eq_ok_iff.1 hlook).2, h⟩

/-! ### Entering -/

theorem enter_fst (ctx : Context) (root : Value) (step : Step) (rest : Path) (new : Value) :
    (root.enter ctx step rest new).1 = root ∨
      (root.enter ctx step rest new).1 = (root.instantiateChild ctx step).1 := by
  unfold enter
  split
  · exact .inl rfl
  · exact .inl rfl
  · split
    · exact .inl rfl
    · exact .inr rfl

theorem isNull_of_enter_none (h : root.enter ctx step rest new = (parent, .ok none)) :
    parent = root ∧ new.isNull = true := by
  unfold enter at h
  split at h
  · nomatch h
  · nomatch h
  · split at h
    · rename_i hnull
      exact ⟨(Prod.mk.inj h).1.symm, hnull⟩
    · simp only [Prod.mk.injEq] at h
      cases hm : (root.instantiateChild ctx step).2 <;> simp [hm, Except.map] at h

theorem enter_of_child (hrest : rest.check = .ok ())
    (h : root.child ctx step .write = .ok (some c)) :
    root.enter ctx step rest new = (root, .ok (some c)) := by
  rw [enter, lookBelow_eq_ok_iff.2 ⟨hrest, h⟩]

theorem write_next_of_check_error {e : NavigationError} (h : rest.check = .error e) :
    (root.write ctx (.next step rest) new).1 = root := by
  have hlook : ∃ e', root.lookBelow ctx step rest .write = .error e' := by
    unfold lookBelow
    cases root.shape with
    | error e' => exact ⟨e', rfl⟩
    | ok s => exact ⟨e, by simp [h, bind, Except.bind]⟩
  obtain ⟨e', hlook⟩ := hlook
  rw [write_next, enter, hlook]

end Value

theorem Context.create_of_createFor {ctx : Context} {property : String} {target : Descriptor}
    {v : Value} (h : ctx.createFor property target = .ok v) : ctx.create target = .ok v := by
  unfold createFor at h
  split at h <;> simp_all

namespace Record

variable {ctx : Context} {r : Record} {step : Step} {c : Child} {fields : Fields}

theorem instantiateChild_cases (ctx : Context) (r : Record) (step : Step) :
    ((r.instantiateChild ctx step).1 = r.fields ∧ ∃ e, (r.instantiateChild ctx step).2 = .error e) ∨
    ∃ s created, ctx.schema.setter r.type step.name = .ok s ∧
      ctx.createFor step.name (s.type.ofStep step) = .ok created ∧
      (r.instantiateChild ctx step).1 = (r.set ctx step created).1 ∧
      ∀ c, (r.instantiateChild ctx step).2 = .ok c →
        (r.set ctx step created).2 = .ok () ∧
        Record.child ctx ⟨r.type, (r.set ctx step created).1⟩ step .write = .ok (some c) := by
  unfold instantiateChild Descriptor.ofStep
  cases hs : ctx.schema.setter r.type step.name with
  | error e => exact .inl ⟨rfl, _, rfl⟩
  | ok s =>
    dsimp only
    generalize htarget : (if step.index.isSome then s.type.element else s.type) = target
    cases hc : ctx.createFor step.name target with
    | error e => exact .inl ⟨rfl, _, rfl⟩
    | ok created =>
      refine .inr ⟨s, created, rfl, by rw [htarget, hc], ?_⟩
      dsimp only
      cases hset : r.set ctx step created with
      | mk fields outcome =>
        cases outcome with
        | error e => exact ⟨rfl, fun c h => nomatch h⟩
        | ok u =>
          dsimp only
          cases Record.child ctx ⟨r.type, fields⟩ step .write with
          | error e => exact ⟨rfl, fun c h => nomatch h⟩
          | ok found =>
            cases found with
            | none => exact ⟨rfl, fun c h => nomatch h⟩
            | some made => exact ⟨rfl, fun c h => ⟨rfl, by rw [Except.ok.inj h]⟩⟩

theorem instantiateChild_of_set {s : Declared Setter} {created : Value}
    (hs : ctx.schema.setter r.type step.name = .ok s)
    (hcreated : ctx.createFor step.name (s.type.ofStep step) = .ok created)
    (hset : r.set ctx step created = (fields, .ok ()))
    (hc : Record.child ctx ⟨r.type, fields⟩ step .write = .ok (some c)) :
    r.instantiateChild ctx step = (fields, .ok c) := by
  unfold Descriptor.ofStep at hcreated
  simp only [instantiateChild, hs, hcreated, hset, hc]

theorem child_of_instantiateChild (h : r.instantiateChild ctx step = (fields, .ok c)) :
    Record.child ctx ⟨r.type, fields⟩ step .write = .ok (some c) := by
  rcases instantiateChild_cases ctx r step with
    ⟨_, e, he⟩ | ⟨s, created, _, _, hfields, hmade⟩
  · rw [h] at he
    nomatch he
  · rw [h] at hfields hmade
    subst hfields
    exact (hmade c rfl).2

end Record

namespace Mapping

variable {entries entries' : Assoc Value} {step : Step} {v : Value} {c : Child}

theorem get_set (h : set entries step v = (entries', .ok ())) :
    get entries' step = .ok (some v) := by
  rw [get_eq_some_iff]
  unfold set at h
  unfold Value.part
  cases hi : step.index with
  | none =>
    simp only [hi, Prod.mk.injEq, and_true] at h
    exact ⟨v, by simp [← h], rfl⟩
  | some index =>
    simp only [hi] at h
    split at h
    · nomatch h
    · rename_i changed hset
      simp only [Prod.mk.injEq, and_true] at h
      obtain ⟨_, items', _, rfl, hitem, _⟩ := Value.setElement_eq_ok hset
      exact ⟨.array items', by simp [← h], Value.element_eq_ok_iff.2 ⟨items', rfl, hitem⟩⟩

theorem child_of_set (h : set entries step v = (entries', .ok ())) (hv : v.isNull = false)
    (lookup : Lookup) :
    child entries' step lookup = .ok (some (.stored ⟨step.name, step.index⟩ v)) := by
  obtain ⟨held, hheld, hpart⟩ := get_eq_some_iff.1 (get_set h)
  exact child_eq_some_iff.2 ⟨held, v, hheld, hpart, hv, rfl⟩

/-- A new mapping that could be set is always found, so making it fails only as
setting it does. -/
theorem instantiateChild_eq (entries : Assoc Value) (step : Step) :
    instantiateChild entries step =
      ((set entries step (.map .empty)).1, (set entries step (.map .empty)).2.map fun _ =>
        .stored ⟨step.name, step.index⟩ (.map .empty)) := by
  unfold instantiateChild
  cases hset : set entries step (.map .empty) with
  | mk entries' outcome =>
    cases outcome with
    | error e => rfl
    | ok u =>
      dsimp only
      rw [child_of_set hset rfl .write]
      rfl

theorem child_of_instantiateChild (h : instantiateChild entries step = (entries', .ok c)) :
    child entries' step .write = .ok (some c) := by
  rw [instantiateChild_eq] at h
  cases hset : set entries step (.map .empty) with
  | mk made outcome =>
    rw [hset] at h
    cases outcome with
    | error e => nomatch h
    | ok u =>
      obtain ⟨rfl, hc⟩ := Prod.mk.inj h
      obtain rfl := Except.ok.inj hc
      exact child_of_set hset rfl .write

end Mapping

namespace Value

variable {ctx : Context} {root parent : Value} {step : Step} {rest path : Path} {new : Value}
  {c : Child}

theorem instantiateChild_map {entries : Assoc Value} :
    (Value.map entries).instantiateChild ctx step =
      (((Value.map entries).set ctx step (.map .empty)).1,
        ((Value.map entries).set ctx step (.map .empty)).2.map fun _ =>
          .stored ⟨step.name, step.index⟩ (.map .empty)) := by
  simp only [instantiateChild, Mapping.instantiateChild_eq, set]

theorem child_of_instantiateChild (h : root.instantiateChild ctx step = (parent, .ok c)) :
    parent.child ctx step .write = .ok (some c) := by
  cases root with
  | record type fields =>
    simp only [instantiateChild, Prod.mk.injEq] at h
    obtain ⟨rfl, hmade⟩ := h
    exact Record.child_of_instantiateChild (r := ⟨type, fields⟩) (Prod.ext rfl hmade)
  | map entries =>
    simp only [instantiateChild, Prod.mk.injEq] at h
    obtain ⟨rfl, hmade⟩ := h
    exact Mapping.child_of_instantiateChild (Prod.ext rfl hmade)
  | _ => nomatch h

theorem enter_eq_some (h : root.enter ctx step rest new = (parent, .ok (some c))) :
    (parent = root ∧ root.child ctx step .write = .ok (some c)) ∨
      root.instantiateChild ctx step = (parent, .ok c) := by
  unfold enter at h
  split at h
  · nomatch h
  · rename_i hlook
    simp only [Prod.mk.injEq, Except.ok.injEq, Option.some.injEq] at h
    obtain ⟨rfl, rfl⟩ := h
    exact .inl ⟨rfl, (lookBelow_eq_ok_iff.1 hlook).2⟩
  · split at h
    · nomatch h
    · simp only [Prod.mk.injEq] at h
      obtain ⟨rfl, hmade⟩ := h
      cases hm : (root.instantiateChild ctx step).2 with
      | error e => rw [hm] at hmade; nomatch hmade
      | ok made =>
        rw [hm] at hmade
        obtain rfl := Option.some.inj (Except.ok.inj hmade)
        exact .inr (Prod.ext rfl hm)

theorem child_of_enter (h : root.enter ctx step rest new = (parent, .ok (some c))) :
    parent.child ctx step .write = .ok (some c) := by
  rcases enter_eq_some h with ⟨rfl, hchild⟩ | hmade
  · exact hchild
  · exact child_of_instantiateChild hmade

/-- If what was set is found again, the child that was made is a mapping or what
the factory gave. -/
theorem value_of_instantiateChild
    (hset : ∀ v root' found, root.set ctx step v = (root', .ok ()) →
      root'.child ctx step .write = .ok (some found) → found.value = v)
    (h : root.instantiateChild ctx step = (parent, .ok c)) :
    c.value = .map .empty ∨ ∃ d, ctx.create d = .ok c.value := by
  have hchild := child_of_instantiateChild h
  cases root with
  | record type fields =>
    simp only [instantiateChild, Prod.mk.injEq] at h
    obtain ⟨rfl, hmade⟩ := h
    rcases Record.instantiateChild_cases ctx ⟨type, fields⟩ step with
      ⟨_, e, he⟩ | ⟨s, created, _, hcreated, hfields, hdone⟩
    · rw [he] at hmade
      cases hmade
    · obtain ⟨hok, -⟩ := hdone c hmade
      have hwritten : (Value.record type fields).set ctx step created =
          (.record type (Record.instantiateChild ctx ⟨type, fields⟩ step).1, .ok ()) :=
        Prod.ext (congrArg (Value.record type) hfields.symm) hok
      rw [hset _ _ _ hwritten hchild]
      exact .inr ⟨_, Context.create_of_createFor hcreated⟩
  | map entries =>
    rw [instantiateChild_map] at h
    obtain ⟨-, hmade⟩ := Prod.mk.inj h
    cases hwritten : ((Value.map entries).set ctx step (.map .empty)).2 with
    | error e =>
      rw [hwritten] at hmade
      cases hmade
    | ok u =>
      rw [hwritten] at hmade
      exact .inl (congrArg Child.value (Except.ok.inj hmade)).symm
  | _ => cases h

/-! ### Shapes -/

theorem shape?_set (ctx : Context) (root : Value) (step : Step) (new : Value) :
    (root.set ctx step new).1.shape? = root.shape? := by
  cases root <;> rfl

theorem shape?_instantiateChild : (root.instantiateChild ctx step).1.shape? = root.shape? := by
  cases root <;> rfl

theorem shape?_putAt (place : Place) : (root.putAt place new).shape? = root.shape? := by
  cases root <;> rfl

theorem shape?_enter (ctx : Context) (root : Value) (step : Step) (rest : Path) (new : Value) :
    (root.enter ctx step rest new).1.shape? = root.shape? := by
  rcases enter_fst ctx root step rest new with h | h
  · rw [h]
  · rw [h, shape?_instantiateChild]

theorem shape?_giveBack {α : Type} (changed : Value × Except NavigationError α) :
    (root.giveBack ctx step c changed).1.shape? = root.shape? := by
  cases c with
  | stored place v => exact shape?_putAt place
  | detached v =>
    simp only [giveBack]
    cases changed.2 with
    | error e => rfl
    | ok a =>
      have hset := shape?_set ctx root step changed.1
      dsimp only
      split <;> simp_all

theorem shape?_write : (root.write ctx path new).1.shape? = root.shape? := by
  cases path with
  | malformed e => rfl
  | last step => exact shape?_set ctx root step new
  | next step rest =>
    rw [write_next]
    have hshape := shape?_enter ctx root step rest new
    split
    · simp_all
    · simp_all
    · rename_i parent c henter
      rw [shape?_giveBack]
      simpa [henter] using hshape

theorem shape?_of_write_ok (h : (root.write ctx path new).2 = .ok ()) : root.shape?.isSome := by
  cases root with
  | record _ _ | map _ | array _ => rfl
  | _ => cases path <;> nomatch h

theorem shape?_of_read_ok {found : Option Value} (h : root.read ctx path = .ok found) :
    root.shape?.isSome := by
  cases root with
  | record _ _ | map _ | array _ => rfl
  | _ => cases path <;> nomatch h

theorem isNull_of_shape? (h : root.shape?.isSome) : root.isNull = false := by
  cases root <;> simp_all [shape?, isNull]

end Value

end PropTree
