import PropTree.Proofs.Navigation.Walk
import PropTree.Proofs.Record.Stored

set_option autoImplicit false

/-!
# Values of declared types

`s.Fits admits v d` says that `v` is a value of the declared type `d`, where the
types in `admits` take any value.
-/

namespace PropTree

namespace Descriptor

def IsUnknown (d : Descriptor) : Prop := d = .unknown

theorem isUnknown_unknown : Descriptor.unknown.IsUnknown := rfl

theorem not_isUnknown_record (name : String) : ¬(Descriptor.record name).IsUnknown := nofun

def HasOpenMaps : Descriptor → Prop
  | .list element => element.HasOpenMaps
  | .map element => element = .unknown
  | _ => True

theorem HasOpenMaps.ofStep {d : Descriptor} (h : d.HasOpenMaps) (step : Step) :
    (d.ofStep step).HasOpenMaps := by
  unfold Descriptor.ofStep
  split
  · cases d with
    | list element => exact h
    | map element =>
      rw [Descriptor.element, show element = .unknown from h]
      trivial
    | _ => trivial
  · exact h

end Descriptor

namespace Schema

inductive Fits (s : Schema) (admits : Descriptor → Prop) : Value → Descriptor → Prop where
  | null {d : Descriptor} : Fits s admits .null d
  | admitted {v : Value} {d : Descriptor} (h : admits d) : Fits s admits v d
  | scalar {v : Value} {d : Descriptor} (hv : v.shape? = none) (hd : v.descriptor = d) :
      Fits s admits v d
  | array {items : List Value} {element : Descriptor}
      (h : ∀ v ∈ items, Fits s admits v element) : Fits s admits (.array items) (.list element)
  | map {entries : Assoc Value} {element : Descriptor}
      (h : ∀ key v, entries.get? key = some v → Fits s admits v element) :
      Fits s admits (.map entries) (.map element)
  | record {type : TypeRef} {fields : Fields} (hfind : s.find? type.name = some type)
      (h : ∀ name declared key v,
        (s.definition type).getters.get? name = some ⟨declared, .field key⟩ →
        fields.get? key = some v → Fits s admits v declared) :
      Fits s admits (.record type fields) (.record type.name)

/-- Only a place of unknown type takes any value. -/
def Conforms (s : Schema) : Value → Descriptor → Prop := s.Fits Descriptor.IsUnknown

def FieldsFit (s : Schema) (admits : Descriptor → Prop) (type : TypeRef) (fields : Fields) :
    Prop :=
  ∀ name declared key v, (s.definition type).getters.get? name = some ⟨declared, .field key⟩ →
    fields.get? key = some v → s.Fits admits v declared

variable {s : Schema} {admits : Descriptor → Prop} {v held changed item : Value}
  {d : Descriptor} {type : TypeRef} {fields : Fields} {name : String} {step : Step}

theorem stepType_of_getter {g : Declared Getter}
    (hg : (s.definition type).getters.get? step.name = some g) :
    s.stepType type step = .ok (g.type.ofStep step) := by
  rw [stepType, getter_eq_ok_iff.2 hg]

theorem fits_record_iff (ha : ¬admits (.record name)) :
    s.Fits admits (.record type fields) (.record name) ↔
      s.find? name = some type ∧ s.FieldsFit admits type fields := by
  constructor
  · intro h
    cases h with
    | admitted h => exact absurd h ha
    | scalar hv _ => nomatch hv
    | record hfind h => exact ⟨hfind, h⟩
  · rintro ⟨hfind, h⟩
    have hname : type.name = name := name_of_find? hfind
    subst hname
    exact .record hfind h

theorem Fits.eq_record (ha : ¬admits (.record name)) (hfind : s.find? name = some type)
    (h : s.Fits admits v (.record name)) (hv : v.isNull = false) :
    ∃ fields, v = .record type fields := by
  cases h with
  | null => nomatch hv
  | admitted h => exact absurd h ha
  | scalar hs hd => cases v <;> simp_all [Value.shape?, Value.descriptor]
  | @record _ fields hfound _ => exact ⟨fields, Option.some.inj (hfound.symm.trans hfind) ▸ rfl⟩

theorem Fits.eq_array {element : Descriptor} (ha : ¬admits (.list element))
    (h : s.Fits admits v (.list element)) (hv : v.isNull = false) :
    ∃ items, v = .array items := by
  cases h with
  | null => nomatch hv
  | admitted h => exact absurd h ha
  | scalar hs hd => cases v <;> simp_all [Value.shape?, Value.descriptor]
  | @array items _ _ => exact ⟨items, rfl⟩

theorem Fits.eq_map {element : Descriptor} (ha : ¬admits (.map element))
    (h : s.Fits admits v (.map element)) (hv : v.isNull = false) :
    ∃ entries, v = .map entries := by
  cases h with
  | null => nomatch hv
  | admitted h => exact absurd h ha
  | scalar hs hd => cases v <;> simp_all [Value.shape?, Value.descriptor]
  | @map entries _ _ => exact ⟨entries, rfl⟩

theorem fits_default (d : Descriptor) : s.Fits admits d.default d := by
  cases d with
  | bool | integer | float | string | bytes => exact .scalar rfl rfl
  | _ => exact .null

theorem Fits.part (ha : step.index.isSome → admits d → admits d.element)
    (h : s.Fits admits held d) (hpart : held.part step = .ok v) : s.Fits admits v (d.ofStep step) := by
  unfold Value.part at hpart
  unfold Descriptor.ofStep
  cases hi : step.index with
  | none =>
    simp only [hi, Except.ok.injEq] at hpart
    subst hpart
    exact h
  | some index =>
    simp only [hi] at hpart
    obtain ⟨items, rfl, hitem⟩ := Value.element_eq_ok_iff.1 hpart
    cases h with
    | admitted h => exact .admitted (ha (by rw [hi]; rfl) h)
    | scalar hs _ => nomatch hs
    | array hitems => exact hitems v (List.mem_of_getElem? hitem)

theorem Fits.array_of_mem {items items' : List Value} (h : s.Fits admits (.array items) d)
    (hitem : s.Fits admits item d.element) (hmem : ∀ v ∈ items', v ∈ items ∨ v = item) :
    s.Fits admits (.array items') d := by
  cases h with
  | admitted h => exact .admitted h
  | scalar hs _ => nomatch hs
  | array hitems =>
    refine .array ?_
    intro v hv
    rcases hmem v hv with hv | rfl
    · exact hitems v hv
    · exact hitem

theorem Fits.setElement {property : String} {index : Nat} (h : s.Fits admits held d)
    (hitem : s.Fits admits item d.element)
    (hset : held.setElement property index item = .ok changed) : s.Fits admits changed d := by
  obtain ⟨items, items', rfl, rfl, hat, hother⟩ := Value.setElement_eq_ok hset
  refine h.array_of_mem hitem ?_
  intro v hv
  obtain ⟨j, hj⟩ := List.mem_iff_getElem?.1 hv
  by_cases hji : j = index
  · subst hji
    exact .inr (Option.some.inj (hj.symm.trans hat))
  · rw [hother j hji] at hj
    exact .inl (List.mem_of_getElem? hj)

/-! ### Stored fields -/

theorem FieldsFit.insert {g : Declared Getter} (hb : (s.definition type).FieldBacked)
    (h : s.FieldsFit admits type fields)
    (hg : (s.definition type).getters.get? name = some g) (hv : s.Fits admits v g.type) :
    s.FieldsFit admits type (fields.insert name v) := by
  intro other declared key w hother hw
  obtain rfl : key = other := Getter.field.inj (hb.reads hother)
  by_cases hname : key = name
  · subst hname
    rw [Assoc.get?_insert_self] at hw
    rw [hg] at hother
    obtain rfl := Option.some.inj hother
    exact Option.some.inj hw ▸ hv
  · rw [Assoc.get?_insert_of_ne fields hname] at hw
    exact h key declared key w hother hw

theorem FieldsFit.stored {g : Declared Getter} (hb : (s.definition type).FieldBacked)
    (h : s.FieldsFit admits type fields)
    (hg : (s.definition type).getters.get? name = some g) :
    s.Fits admits ((fields.get? name).getD .null) g.type := by
  obtain ⟨declared, access⟩ := g
  obtain rfl : access = .field name := hb.reads hg
  cases hw : fields.get? name with
  | none => exact .null
  | some w => exact h name declared name w hg hw

theorem FieldsFit.putAt {g : Declared Getter} (hb : (s.definition type).FieldBacked)
    (h : s.FieldsFit admits type fields)
    (hg : (s.definition type).getters.get? step.name = some g)
    (hv : s.Fits admits v (g.type.ofStep step)) :
    s.FieldsFit admits type (fields.putAt ⟨step.name, step.index⟩ v) := by
  unfold Assoc.putAt
  unfold Descriptor.ofStep at hv
  cases hi : step.index with
  | none =>
    rw [hi] at hv
    exact h.insert hb hg hv
  | some index =>
    rw [hi] at hv
    dsimp only
    split
    · rename_i items hitems
      have hheld := h.stored hb hg
      rw [hitems] at hheld
      refine h.insert hb hg (hheld.array_of_mem hv ?_)
      intro w hw
      exact List.mem_or_eq_of_mem_set hw
    · exact h

theorem FieldsFit.child {lookup : Lookup} {c : Child}
    (hb : (s.definition type).FieldBacked) (h : s.FieldsFit admits type fields)
    (ha : ∀ g : Declared Getter, (s.definition type).getters.get? step.name = some g →
      step.index.isSome → admits g.type → admits g.type.element)
    (hc : Record.child (Context.ofSchema s) ⟨type, fields⟩ step lookup = .ok (some c)) :
    ∃ g v, (s.definition type).getters.get? step.name = some g ∧
      c = .stored ⟨step.name, step.index⟩ v ∧ v.isNull = false ∧
      s.Fits admits v (g.type.ofStep step) := by
  obtain ⟨g, held, v, hget, hi, hpart, hnull, rfl⟩ := Record.child_eq_some_iff.1 hc
  have hg : (s.definition type).getters.get? step.name = some g := getter_eq_ok_iff.1 hget
  have haccess : g.access = .field step.name := hb.reads hg
  rw [haccess] at hi ⊢
  obtain rfl := Except.ok.inj hi
  exact ⟨g, v, hg, rfl, hnull, (h.stored hb hg).part (ha g hg) hpart⟩

theorem fieldsFit_defaults (hplain : (s.definition type).Plain) :
    s.FieldsFit admits type (s.definition type).defaults := by
  intro name declared key v hg hv
  obtain rfl : key = name := Getter.field.inj (hplain.reads hg)
  rw [hplain.starts hg] at hv
  exact Option.some.inj hv ▸ fits_default declared

theorem fits_of_instantiate (hunknown : admits .unknown) (hs : s.Plain)
    (h : s.instantiate d = .ok v) : s.Fits admits v d := by
  cases d with
  | unknown => exact .admitted hunknown
  | map element =>
    obtain rfl := Except.ok.inj h
    exact .map fun key v hv => nomatch hv
  | list element =>
    obtain rfl := Except.ok.inj h
    exact .array fun v hv => nomatch hv
  | record name =>
    rw [instantiate, require] at h
    cases hfind : s.find? name with
    | none => rw [hfind] at h; nomatch h
    | some type =>
      rw [hfind] at h
      obtain rfl := Except.ok.inj h
      have hname : type.name = name := name_of_find? hfind
      subst hname
      exact .record hfind (fieldsFit_defaults (hs hfind))
  | bool | integer | float | string | bytes =>
    obtain rfl := Except.ok.inj h
    exact fits_default _

end Schema

end PropTree
