import PropTree.Proofs.Navigation.Queries
import PropTree.Proofs.Navigation.TypesBelow

set_option autoImplicit false

/-!
# What has a getter can be read
-/

namespace PropTree

/-- Denies that there is such a property, or any property at all. -/
def NavigationError.isDenial : NavigationError → Bool
  | .noSuchProperty _ _ _ => true
  | .unsupportedOperation _ _ => true
  | .unsupportedKind _ => true
  | _ => false

namespace Value

variable {ctx : Context} {root v held : Value} {step : Step} {path rest : Path} {c : Child}
  {e : NavigationError}

/-! ### One step -/

theorem isDenial_of_part (h : held.part step = .error e) : e.isDenial = false := by
  unfold part at h
  split at h
  · cases h
  · cases held with
    | array items =>
      simp only [element] at h
      split at h
      · cases h
      · exact Except.error.inj h ▸ rfl
    | _ => exact Except.error.inj h ▸ rfl

theorem hasGetter_of_get (h : root.get ctx step = .ok (some v)) :
    root.hasGetter ctx (.last step) = .ok true := by
  cases root with
  | record type fields =>
    obtain ⟨held, w, hread, -, -⟩ := Record.get_eq_ok_iff.1 h
    obtain ⟨g, hg, -⟩ := Record.getter_of_readProperty hread
    exact congrArg Except.ok (Option.isSome_iff_exists.2 ⟨g, Schema.getter_eq_ok_iff.1 hg⟩)
  | map entries =>
    obtain ⟨held, hheld, hpart⟩ := Mapping.get_eq_some_iff.1 h
    refine congrArg Except.ok ?_
    unfold part at hpart
    unfold storedHas
    cases hindex : step.index with
    | none => rw [hheld]
    | some index =>
      simp only [hindex] at hpart
      obtain ⟨items, rfl, hitem⟩ := element_eq_ok_iff.1 hpart
      obtain ⟨hlt, -⟩ := List.getElem?_eq_some_iff.1 hitem
      simp [hheld, array?, hlt]
  | _ => cases h

theorem getterType_of_hasGetter_last (h : root.hasGetter ctx (.last step) = .ok true) :
    ∃ d, root.getterType ctx (.last step) = .ok d := by
  cases root with
  | record type fields => exact Schema.getterType_of_hasGetter h
  | map entries => exact ⟨_, rfl⟩
  | _ => nomatch h

theorem isDenial_of_get (h : root.hasGetter ctx (.last step) = .ok true)
    (he : root.get ctx step = .error e) : e.isDenial = false := by
  cases root with
  | record type fields =>
    obtain ⟨g, hg⟩ := Option.isSome_iff_exists.1 (Except.ok.inj h)
    have hread : Record.readProperty ctx ⟨type, fields⟩ step.name =
        Record.invokeGetter ⟨type, fields⟩ step.name g.access := by
      rw [Record.readProperty, Schema.getter_eq_ok_iff.2 hg]
    change Record.get ctx ⟨type, fields⟩ step = _ at he
    rw [record_get, hread, Record.invokeGetter] at he
    cases hinvoke : g.access.invoke ⟨type, fields⟩ with
    | error refusal =>
      rw [hinvoke] at he
      exact Except.error.inj he ▸ rfl
    | ok held =>
      rw [hinvoke] at he
      cases hpart : held.part step with
      | error e' =>
        have hsame : e' = e := by simpa [Except.bind, hpart, Except.map] using he
        exact hsame ▸ isDenial_of_part hpart
      | ok w => simp [Except.bind, hpart, Except.map] at he
  | map entries =>
    change Mapping.get entries step = _ at he
    unfold Mapping.get at he
    cases hindex : step.index with
    | none => simp [hindex] at he
    | some index =>
      have hpart : ((entries.get? step.name).getD .null).part step = .error e := by
        simp only [hindex] at he
        simp only [part, hindex]
        cases hitem : ((entries.get? step.name).getD .null).element step.name index with
        | error e' => simpa [hitem, Except.map] using he
        | ok item => simp [hitem, Except.map] at he
      exact isDenial_of_part hpart
  | _ => cases h

/-! ### Below a step -/

theorem hasGetter_next_of_child (h : root.child ctx step .read = .ok (some c)) :
    root.hasGetter ctx (.next step rest) =
      if c.value.shape?.isSome then c.value.hasGetter ctx rest else .ok false := by
  cases root with
  | record type fields =>
    obtain ⟨g, _, _, hg, -⟩ := Record.child_eq_some_iff.1 h
    have hhas : (ctx.schema.definition type).hasGetter step.name = true :=
      Option.isSome_iff_exists.2 ⟨g, Schema.getter_eq_ok_iff.1 hg⟩
    simp only [hasGetter, hhas, reached_of_child h, if_true]
  | map entries =>
    obtain ⟨held, _, hheld, -⟩ := Mapping.child_eq_some_iff.1 h
    have hhas : entries.contains step.name = true := Option.isSome_iff_exists.2 ⟨held, hheld⟩
    simp only [hasGetter, hhas, h, if_true]
  | _ => nomatch h

theorem child_of_reached_none (h : root.reached ctx step = .ok none) :
    root.child ctx step .read = .ok none ∨
      ∃ property index length,
        root.child ctx step .read = .error (.indexOutOfRange property index length) := by
  unfold reached at h
  split at h
  · rename_i found hchild
    obtain rfl := Option.map_eq_none_iff.1 (Except.ok.inj h)
    exact .inl hchild
  · rename_i property index length hchild
    exact .inr ⟨property, index, length, hchild⟩
  · nomatch h

theorem hasGetter_next_cases (h : root.hasGetter ctx (.next step rest) = .ok true) :
    (∃ c, root.child ctx step .read = .ok (some c) ∧ c.value.hasGetter ctx rest = .ok true) ∨
      root.reached ctx step = .ok none ∧ ∃ d, root.getterType ctx (.next step rest) = .ok d := by
  by_cases hthere : ∃ c, root.child ctx step .read = .ok (some c)
  · obtain ⟨c, hchild⟩ := hthere
    rw [hasGetter_next_of_child hchild] at h
    split at h
    · exact .inl ⟨c, hchild, h⟩
    · cases h
  · refine .inr ?_
    have habsent {u : Value} : root.reached ctx step ≠ .ok (some u) := by
      intro hu
      unfold reached at hu
      split at hu
      · rename_i found hchild
        obtain ⟨c, rfl, -⟩ := Option.map_eq_some_iff.1 (Except.ok.inj hu)
        exact hthere ⟨c, hchild⟩
      · cases hu
      · cases hu
    cases root with
    | record type fields =>
      unfold hasGetter at h
      split at h
      · split at h
        · cases h
        · exact absurd ‹_› habsent
        · rename_i hreached
          refine ⟨hreached, ?_⟩
          simp only [getterType, hreached]
          exact Schema.getterType_of_hasGetter h
      · cases h
    | map entries =>
      unfold hasGetter at h
      split at h
      · split at h
        · cases h
        · cases h
        · rename_i found hchild
          exact absurd ⟨found, hchild⟩ hthere
        · rename_i hchild
          have hreached : (Value.map entries).reached ctx step = .ok none := by
            rw [reached, hchild]
            rfl
          exact ⟨hreached, .unknown, by simp only [getterType, hreached]⟩
      · cases h
    | _ => cases h

theorem isDenial_of_read_next (hreached : root.reached ctx step = .ok none)
    (he : root.read ctx (.next step rest) = .error e) : e.isDenial = false := by
  cases hcheck : rest.check with
  | error fault =>
    obtain ⟨cause, rfl⟩ : ∃ cause, rest = .malformed cause := by
      cases rest with
      | malformed cause => exact ⟨cause, rfl⟩
      | _ => nomatch hcheck
    cases root with
    | record _ _ | map _ => exact Except.error.inj he ▸ rfl
    | _ => nomatch hreached
  | ok u =>
    rw [read_next_of_check hcheck] at he
    rcases child_of_reached_none hreached with hchild | ⟨property, index, length, hchild⟩
    · rw [hchild] at he
      nomatch he
    · rw [hchild] at he
      exact Except.error.inj he ▸ rfl

/-! ### Along a path -/

theorem hasGetter_of_read (h : root.read ctx path = .ok (some v)) :
    root.hasGetter ctx path = .ok true := by
  induction path generalizing root with
  | malformed e => nomatch h
  | last step => exact hasGetter_of_get h
  | next step rest ih =>
    obtain ⟨c, hchild, hrest⟩ := child_of_read_next h
    rw [hasGetter_next_of_child hchild, if_pos (shape?_of_read_ok hrest)]
    exact ih hrest

theorem getterType_of_hasGetter (h : root.hasGetter ctx path = .ok true) :
    ∃ d, root.getterType ctx path = .ok d := by
  induction path generalizing root with
  | malformed e => cases root <;> nomatch h
  | last step => exact getterType_of_hasGetter_last h
  | next step rest ih =>
    rcases hasGetter_next_cases h with ⟨c, hchild, hrest⟩ | ⟨-, htype⟩
    · rw [getterType_next_of_child hchild]
      exact ih hrest
    · exact htype

theorem isDenial_of_read (h : root.hasGetter ctx path = .ok true)
    (he : root.read ctx path = .error e) : e.isDenial = false := by
  induction path generalizing root with
  | malformed e' => exact Except.error.inj he ▸ rfl
  | last step => exact isDenial_of_get h he
  | next step rest ih =>
    rcases hasGetter_next_cases h with ⟨c, hchild, hrest⟩ | ⟨hreached, -⟩
    · rw [read_next_of_child hchild] at he
      exact ih hrest he
    · exact isDenial_of_read_next hreached he

end Value

/-- A path that leads to a value has a getter. A path that has a getter has a
type, and no read along it fails because there is no such property or because a
value on the way cannot have any. -/
theorem Context.hasGetter_faithful (ctx : Context) (root : Value) (path : String) :
    (∀ v, ctx.getValue root path = .ok (some v) →
        root.hasGetter ctx (.ofText path) = .ok true) ∧
      (root.hasGetter ctx (.ofText path) = .ok true →
        (∃ d, root.getterType ctx (.ofText path) = .ok d) ∧
          ∀ e, ctx.getValue root path = .error e → e.isDenial = false) :=
  ⟨fun _ h => Value.hasGetter_of_read h,
    fun h => ⟨Value.getterType_of_hasGetter h, fun _ he => Value.isDenial_of_read h he⟩⟩

def homeMap : Value :=
  .map (.ofList [("house", .record ⟨"House", 0⟩
    (.ofList [("doors", .array [.ofRecord (houseSchema.newRecord ⟨"Door", 0⟩)])]))])

theorem hasGetter_faithful_doors :
    let ctx := Context.ofSchema houseSchema
    let first := Path.ofText "house.doors[0].number"
    let second := Path.ofText "house.doors[1].number"
    let outside := NavigationError.indexOutOfRange "doors" 1 1
    ctx.getValue homeMap "house.doors[0].number" = .ok (some (.integer 0)) ∧
      homeMap.hasGetter ctx first = .ok true ∧
      ctx.getValue homeMap "house.doors[1].number" = .error outside ∧
      homeMap.hasGetter ctx second = .ok true ∧
      (∃ d, homeMap.getterType ctx second = .ok d) ∧ outside.isDenial = false := by
  intro ctx first second outside
  have hnumber : Path.ofText "number" = .last ⟨"number", none⟩ := Path.ofText_of_last rfl
  have hpath (i : Nat) (door : String)
      (hdoor : Segment.parse door = .ok ⟨⟨"doors", some i⟩, "doors[" ++ toString i ++ "]", "number"⟩)
      (text : String) (htext : Segment.parse text = .ok ⟨⟨"house", none⟩, "house", door⟩) :
      Path.ofText text =
        .next ⟨"house", none⟩ (.next ⟨"doors", some i⟩ (.last ⟨"number", none⟩)) := by
    rw [Path.ofText_of_next htext, Path.ofText_of_next hdoor, hnumber]
  have hfirst := hpath 0 "doors[0].number" rfl "house.doors[0].number" rfl
  have hsecond := hpath 1 "doors[1].number" rfl "house.doors[1].number" rfl
  have hread : ctx.getValue homeMap "house.doors[0].number" = .ok (some (.integer 0)) := by
    rw [Context.getValue, hfirst]
    rfl
  have hfail : ctx.getValue homeMap "house.doors[1].number" = .error outside := by
    rw [Context.getValue, hsecond]
    rfl
  have hhas : homeMap.hasGetter ctx second = .ok true := by
    change homeMap.hasGetter ctx (.ofText "house.doors[1].number") = _
    rw [hsecond]
    rfl
  obtain ⟨htype, hdenial⟩ := (Context.hasGetter_faithful ctx homeMap "house.doors[1].number").2 hhas
  exact ⟨hread, (Context.hasGetter_faithful ctx homeMap "house.doors[0].number").1 _ hread, hfail,
    hhas, htype, hdenial _ hfail⟩

end PropTree
