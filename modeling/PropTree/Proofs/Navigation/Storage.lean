import PropTree.Proofs.Navigation.Walk
import PropTree.Proofs.Record.Stored
import PropTree.Proofs.Value.Records

set_option autoImplicit false

/-!
# Steps into stored fields

A record that keeps every property in the field of its name and a mapping are
written alike. They differ only in what they put in place of a null that is to get
an element.
-/

namespace PropTree

namespace Value

theorem setElement_setElement {held changed v : Value} {property : String} {index : Nat}
    (h : held.setElement property index v = .ok changed) (w : Value) :
    ∃ items, changed = .array items ∧
      held.setElement property index w = .ok (.array (items.set index w)) := by
  cases held with
  | array items =>
    simp only [setElement] at h ⊢
    by_cases hlt : index < items.length
    · rw [if_pos hlt] at h
      refine ⟨items.set index v, (Except.ok.inj h).symm, ?_⟩
      rw [if_pos hlt, List.set_set]
    · rw [if_neg hlt] at h
      by_cases hend : index = items.length
      · rw [if_pos hend] at h
        refine ⟨items ++ [v], (Except.ok.inj h).symm, ?_⟩
        rw [if_neg hlt, if_pos hend, hend, List.set_append_right _ _ (Nat.le_refl _)]
        simp
      · rw [if_neg hend] at h
        cases h
  | _ => cases h

end Value

namespace Assoc

/-- Put a value where a step leads to. If the step has an index and there is a
null in place of the sequence, `make` comes first. -/
def setStep (m : Assoc Value) (step : Step) (make : Except NavigationError Value) (v : Value) :
    Assoc Value × Except NavigationError Unit :=
  match step.index with
  | none => (m.insert step.name v, .ok ())
  | some index =>
    let held := (m.get? step.name).getD .null
    match if held.isNull then make else .ok held with
    | .error e => (m.insert step.name held, .error e)
    | .ok collection =>
      match collection.setElement step.name index v with
      | .error e => (m.insert step.name collection, .error e)
      | .ok changed => (m.insert step.name changed, .ok ())

variable {m m' : Assoc Value} {step : Step} {make : Except NavigationError Value} {v : Value}

/-- Something is put under the name of the step: the value itself, or a changed
sequence, or after an error what was there unless that was a null. -/
theorem setStep_cases (m : Assoc Value) (step : Step) (make : Except NavigationError Value)
    (v : Value) :
    ∃ stored, (m.setStep step make v).1 = m.insert step.name stored ∧
      ((step.index = none ∧ stored = v ∧ (m.setStep step make v).2 = .ok ()) ∨
       ((m.get? step.name).getD .null = .null ∨ stored = (m.get? step.name).getD .null) ∧
          (∃ index e, step.index = some index ∧ (m.setStep step make v).2 = .error e) ∨
       ∃ index collection, step.index = some index ∧ (m.setStep step make v).2 = .ok () ∧
          ((m.get? step.name).getD .null = .null ∨
            collection = (m.get? step.name).getD .null) ∧
          collection.setElement step.name index v = .ok stored) := by
  unfold setStep
  cases step.index with
  | none => exact ⟨v, rfl, .inl ⟨rfl, rfl, rfl⟩⟩
  | some index =>
    dsimp only
    generalize hheld : (m.get? step.name).getD .null = held
    cases hmake : (if held.isNull then make else .ok held) with
    | error e => exact ⟨held, rfl, .inr (.inl ⟨.inr rfl, index, e, rfl, rfl⟩)⟩
    | ok collection =>
      have hkept : held = .null ∨ collection = held := by
        by_cases hnull : held.isNull = true
        · exact .inl (Value.isNull_iff.1 hnull)
        · rw [if_neg hnull] at hmake
          exact .inr (Except.ok.inj hmake).symm
      dsimp only
      cases hset : collection.setElement step.name index v with
      | error e => exact ⟨collection, rfl, .inr (.inl ⟨hkept, index, e, rfl, rfl⟩)⟩
      | ok changed => exact ⟨changed, rfl, .inr (.inr ⟨index, collection, rfl, rfl, hkept, hset⟩)⟩

theorem putAt_setStep (h : m.setStep step make v = (m', .ok ())) (w : Value) :
    m'.putAt ⟨step.name, step.index⟩ w = (m.setStep step make w).1 := by
  unfold setStep at h ⊢
  cases hi : step.index with
  | none =>
    rw [hi] at h
    obtain rfl := (Prod.mk.inj h).1
    exact insert_insert m step.name v w
  | some index =>
    rw [hi] at h
    dsimp only at h ⊢
    split at h
    · nomatch h
    · rename_i collection _
      split at h
      · nomatch h
      · rename_i changed hchanged
        obtain ⟨items, rfl, hw⟩ := Value.setElement_setElement hchanged w
        obtain rfl := (Prod.mk.inj h).1
        simp only [putAt, get?_insert_self, hw, insert_insert]

end Assoc

namespace Record

variable {ctx : Context} {r : Record} {step : Step} {lookup : Lookup}

/-- Which error a step meets, or what it puts in place of a null, does not depend
on what the record stores. -/
theorem set_eq_setStep {type : TypeRef} (hb : (ctx.schema.definition type).FieldBacked)
    (step : Step) :
    (∃ e, ∀ fields v, Record.set ctx ⟨type, fields⟩ step v = (fields, .error e)) ∨
      ∃ make, ∀ fields v, Record.set ctx ⟨type, fields⟩ step v =
        Assoc.setStep fields step make v := by
  unfold set Assoc.setStep
  cases step.index with
  | none =>
    dsimp only
    unfold writeProperty
    cases hs : ctx.schema.setter type step.name with
    | error e => exact .inl ⟨_, fun fields v => by simp only [hs]; rfl⟩
    | ok s =>
      have haccess : s.access = .field step.name := hb.writes (Schema.setter_eq_ok_iff.1 hs)
      refine .inr ⟨.ok .null, fun fields v => ?_⟩
      simp only [hs, haccess, Setter.invoke]
  | some index =>
    dsimp only
    unfold setElement
    cases hg : ctx.schema.getter type step.name with
    | error e => exact .inl ⟨_, fun fields v => by simp only [hg]; rfl⟩
    | ok g =>
      have haccess : g.access = .field step.name := hb.reads (Schema.getter_eq_ok_iff.1 hg)
      refine .inr ⟨ctx.createFor step.name g.type, fun fields v => ?_⟩
      simp only [hg, haccess]
      rfl

theorem childValue_of_child_none (hb : (ctx.schema.definition r.type).FieldBacked)
    (h : r.child ctx step lookup = .ok none) :
    childValue ((r.fields.get? step.name).getD .null) step lookup = .ok none := by
  cases hg : ctx.schema.getter r.type step.name with
  | error e => simp [child, hg] at h
  | ok g =>
    have haccess : g.access = .field step.name := hb.reads (Schema.getter_eq_ok_iff.1 hg)
    have hi : r.invokeGetter step.name g.access =
        .ok ((r.fields.get? step.name).getD .null) := by
      rw [haccess]
      rfl
    exact (child_eq_none_iff hg hi).1 h

theorem part_of_childValue_none {held : Value} (h : childValue held step lookup = .ok none)
    {part : Value} (hpart : held.part step = .ok part) : part = .null := by
  refine Decidable.byContradiction fun hne => ?_
  have hsome : childValue held step lookup = .ok (some part) :=
    childValue_eq_some_iff.2 ⟨hpart, Value.isNull_eq_false_iff.2 hne⟩
  rw [h] at hsome
  nomatch hsome

end Record

namespace Mapping

variable {entries : Assoc Value} {step : Step} {lookup : Lookup}

theorem set_eq_setStep (entries : Assoc Value) (step : Step) (v : Value) :
    set entries step v = entries.setStep step (.ok (.array [])) v := by
  unfold set Assoc.setStep
  cases step.index with
  | none => rfl
  | some index =>
    dsimp only
    cases ((entries.get? step.name).getD .null).isNull <;> rfl

theorem part_of_child_none (h : child entries step lookup = .ok none) {part : Value}
    (hpart : ((entries.get? step.name).getD .null).part step = .ok part) : part = .null := by
  cases hget : entries.get? step.name with
  | none =>
    rw [hget, Option.getD_none] at hpart
    unfold Value.part at hpart
    split at hpart
    · exact (Except.ok.inj hpart).symm
    · nomatch hpart
  | some held =>
    rw [hget, Option.getD_some] at hpart
    refine Decidable.byContradiction fun hne => ?_
    have hsome : child entries step lookup = .ok (some (.stored ⟨step.name, step.index⟩ part)) :=
      child_eq_some_iff.2 ⟨held, part, hget, hpart, Value.isNull_eq_false_iff.2 hne, rfl⟩
    rw [h] at hsome
    nomatch hsome

end Mapping

namespace Value

variable {ctx : Context} {root root' parent new v w : Value} {step : Step} {rest : Path}
  {lookup : Lookup} {c : Child} {m : Assoc Value}

def FieldBacked (ctx : Context) : Value → Prop
  | .record type _ => (ctx.schema.definition type).FieldBacked
  | _ => True

theorem EveryRecord.fieldBacked
    (h : root.EveryRecord fun type => (ctx.schema.definition type).FieldBacked) :
    root.FieldBacked ctx := by
  cases h with
  | record ht _ => exact ht
  | scalar hs => cases root <;> trivial
  | array _ | map _ => trivial

def table? : Value → Option (Assoc Value)
  | .record _ fields => some fields
  | .map entries => some entries
  | _ => none

def withTable (v : Value) (m : Assoc Value) : Value :=
  match v with
  | .record type _ => .record type m
  | .map _ => .map m
  | v => v

theorem withTable_of_table? (h : root.table? = some m) : root.withTable m = root := by
  cases root with
  | record _ _ | map _ => exact congrArg _ (Option.some.inj h).symm
  | _ => nomatch h

theorem set_withTable (hb : root.FieldBacked ctx) (step : Step) :
    (∃ e, ∀ v, root.set ctx step v = (root, .error e)) ∨
      ∃ make, root.table?.isSome ∧ ∀ m v, (root.withTable m).set ctx step v =
        (root.withTable (m.setStep step make v).1, (m.setStep step make v).2) := by
  cases root with
  | record type fields =>
    rcases Record.set_eq_setStep hb step with ⟨e, h⟩ | ⟨make, h⟩
    · exact .inl ⟨e, fun v => by simp only [set, h]⟩
    · exact .inr ⟨make, rfl, fun m v => by simp only [withTable, set, h]⟩
  | map entries =>
    exact .inr ⟨.ok (.array []), rfl, fun m v => by
      simp only [withTable, set, Mapping.set_eq_setStep]⟩
  | _ => exact .inl ⟨_, fun _ => rfl⟩

theorem set_cases (hb : root.FieldBacked ctx) (step : Step) :
    (∃ e, ∀ v, root.set ctx step v = (root, .error e)) ∨
      ∃ m make, root.table? = some m ∧ ∀ v, root.set ctx step v =
        (root.withTable (m.setStep step make v).1, (m.setStep step make v).2) := by
  rcases set_withTable hb step with h | ⟨make, htable, h⟩
  · exact .inl h
  · obtain ⟨m, hm⟩ := Option.isSome_iff_exists.1 htable
    refine .inr ⟨m, make, hm, fun v => ?_⟩
    rw [← h, withTable_of_table? hm]

theorem part_of_child_none (hb : root.FieldBacked ctx)
    (h : root.child ctx step lookup = .ok none) (hm : root.table? = some m) {part : Value}
    (hpart : ((m.get? step.name).getD .null).part step = .ok part) : part = .null := by
  cases root with
  | record type fields =>
    obtain rfl := Option.some.inj hm
    exact Record.part_of_childValue_none
      (Record.childValue_of_child_none (r := ⟨type, fields⟩) hb h) hpart
  | map entries =>
    obtain rfl := Option.some.inj hm
    exact Mapping.part_of_child_none h hpart
  | _ => nomatch hm

theorem putAt_set (hb : root.FieldBacked ctx) (h : root.set ctx step v = (root', .ok ()))
    (w : Value) : root'.putAt ⟨step.name, step.index⟩ w = (root.set ctx step w).1 := by
  rcases set_cases hb step with ⟨e, hset⟩ | ⟨m, make, hm, hset⟩
  · rw [hset] at h
    nomatch h
  · rw [hset] at h ⊢
    obtain ⟨rfl, hok⟩ := Prod.mk.inj h
    rw [← Assoc.putAt_setStep (Prod.ext rfl hok) w]
    cases root with
    | record _ _ | map _ => rfl
    | _ => nomatch hm

theorem child_of_fieldBacked (hb : root.FieldBacked ctx)
    (hc : root.child ctx step lookup = .ok (some c)) :
    ∃ v, c = .stored ⟨step.name, step.index⟩ v := by
  cases root with
  | record type fields =>
    obtain ⟨g, held, v, hg, _, _, _, rfl⟩ := Record.child_eq_some_iff.1 hc
    have haccess : g.access = .field step.name := hb.reads (Schema.getter_eq_ok_iff.1 hg)
    exact ⟨v, by rw [haccess]; rfl⟩
  | map entries =>
    obtain ⟨_, v, _, _, _, rfl⟩ := Mapping.child_eq_some_iff.1 hc
    exact ⟨v, rfl⟩
  | _ => nomatch hc

theorem instantiateChild_cases (ctx : Context) (root : Value) (step : Step) :
    ((root.instantiateChild ctx step).1 = root ∧
      ∃ e, (root.instantiateChild ctx step).2 = .error e) ∨
    ∃ created, (root.instantiateChild ctx step).1 = (root.set ctx step created).1 ∧
      ∀ c, (root.instantiateChild ctx step).2 = .ok c →
        (root.set ctx step created).2 = .ok () := by
  cases root with
  | record type fields =>
    rcases Record.instantiateChild_cases ctx ⟨type, fields⟩ step with
      ⟨hfields, he⟩ | ⟨_, created, _, _, hfields, hmade⟩
    · exact .inl ⟨congrArg (Value.record type) hfields, he⟩
    · exact .inr ⟨created, congrArg (Value.record type) hfields, fun c hc => (hmade c hc).1⟩
  | map entries =>
    refine .inr ⟨.map .empty, ?_, fun c hc => ?_⟩
    · rw [instantiateChild_map]
    · rw [instantiateChild_map] at hc
      cases hset : ((Value.map entries).set ctx step (.map .empty)).2 with
      | error e =>
        rw [hset] at hc
        cases hc
      | ok u => rfl
  | _ => exact .inl ⟨rfl, _, rfl⟩

theorem enter_cases (ctx : Context) (root : Value) (step : Step) (rest : Path) (new : Value) :
    ((root.enter ctx step rest new).1 = root ∧
      ∀ c, (root.enter ctx step rest new).2 = .ok (some c) →
        root.child ctx step .write = .ok (some c)) ∨
    (root.child ctx step .write = .ok none ∧
      ∃ created, (root.enter ctx step rest new).1 = (root.set ctx step created).1 ∧
        ∀ c, (root.enter ctx step rest new).2 = .ok (some c) →
          (root.set ctx step created).2 = .ok ()) := by
  unfold enter
  cases hlook : root.lookBelow ctx step rest .write with
  | error e => exact .inl ⟨rfl, nofun⟩
  | ok found =>
    cases found with
    | some c =>
      refine .inl ⟨rfl, fun c' hc' => ?_⟩
      obtain rfl := Option.some.inj (Except.ok.inj hc')
      exact (lookBelow_eq_ok_iff.1 hlook).2
    | none =>
      have habsent := (lookBelow_eq_ok_iff.1 hlook).2
      dsimp only
      split
      · exact .inl ⟨rfl, nofun⟩
      · rcases instantiateChild_cases ctx root step with ⟨hroot, e, he⟩ | ⟨created, hset, hmade⟩
        · refine .inl ⟨hroot, fun c hc => ?_⟩
          rw [he] at hc
          nomatch hc
        · refine .inr ⟨habsent, created, hset, fun c hc => ?_⟩
          cases hm : (root.instantiateChild ctx step).2 with
          | error e => rw [hm] at hc; nomatch hc
          | ok made => exact hmade made hm

theorem fieldBacked_enter (hb : root.FieldBacked ctx) (step : Step) (rest : Path) (new : Value) :
    (root.enter ctx step rest new).1.FieldBacked ctx := by
  rcases enter_fst ctx root step rest new with he | he
  · rw [he]
    exact hb
  · rw [he]
    cases root with
    | record type fields => exact hb
    | _ => trivial

end Value

end PropTree
