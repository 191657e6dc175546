import PropTree.Proofs.Value.Conformance

set_option autoImplicit false

/-!
# Writes keep declared types

What a write that fails leaves behind is of the declared types too: everything it
made on the way was made for the place it is in.
-/

namespace PropTree

namespace Declaration

/-- A stored field whose type has no mappings of declared elements. -/
def IsOpenField (d : Declaration) : Prop := d.isStored = true ∧ d.type.HasOpenMaps

theorem type_of_getter? {d : Declaration} {g : Declared Getter} (h : d.getter? = some g) :
    g.type = d.type := by
  cases d with
  | writeOnly _ _ _ => nomatch h
  | _ => exact Option.some.inj h ▸ rfl

end Declaration

namespace Schema

variable {s : Schema} {type : TypeRef} {fields : Fields} {name : String} {step : Step}
  {held new v : Value} {g : Declared Getter} {rest : Path} {t : Descriptor}

/-! ### One record -/

section Record

variable {admits : Descriptor → Prop} (hunknown : admits .unknown) (hs : s.Plain)
  (ht : (s.definition type).Plain)

include hunknown hs

theorem fits_of_createFor {property : String} {target : Descriptor}
    (h : (Context.ofSchema s).createFor property target = .ok v) : s.Fits admits v target := by
  unfold Context.createFor at h
  cases hv : (Context.ofSchema s).create target with
  | error e => rw [hv] at h; nomatch h
  | ok created =>
    rw [hv] at h
    obtain rfl := Except.ok.inj h
    exact fits_of_instantiate hunknown hs hv

theorem fits_of_collectionFor {declared : Descriptor} (hheld : s.Fits admits held declared)
    (h : Record.collectionFor (Context.ofSchema s) name declared held = .ok v) :
    s.Fits admits v declared := by
  unfold Record.collectionFor at h
  split at h
  · exact fits_of_createFor hunknown hs h
  · exact Except.ok.inj h ▸ hheld

include ht

/-- Storage that a failed write leaves at a property, a null or a collection
without the element, is of the property's type too. -/
theorem FieldsFit.setElement {index : Nat} (h : s.FieldsFit admits type fields)
    (hg : (s.definition type).getters.get? name = some g)
    (hnew : s.Fits admits new g.type.element) :
    s.FieldsFit admits type
      (Record.setElement (Context.ofSchema s) ⟨type, fields⟩ name index new).1 := by
  have hb := ht.toFieldBacked
  unfold Record.setElement
  have hget : (Context.ofSchema s).schema.getter type name = .ok g := getter_eq_ok_iff.2 hg
  have haccess : g.access = .field name := hb.reads hg
  have hheld := h.stored hb hg
  simp only [hget, haccess]
  split
  · exact h.insert hb hg hheld
  · rename_i collection hcollection
    have hfits := fits_of_collectionFor hunknown hs hheld hcollection
    split
    · exact h.insert hb hg hfits
    · rename_i changed hchanged
      exact h.insert hb hg (hfits.setElement hnew hchanged)

theorem FieldsFit.set (h : s.FieldsFit admits type fields)
    (hg : (s.definition type).getters.get? step.name = some g)
    (hnew : s.Fits admits new (g.type.ofStep step)) :
    s.FieldsFit admits type (Record.set (Context.ofSchema s) ⟨type, fields⟩ step new).1 := by
  unfold Record.set
  unfold Descriptor.ofStep at hnew
  cases hi : step.index with
  | some index =>
    rw [hi] at hnew
    exact FieldsFit.setElement hunknown hs ht h hg hnew
  | none =>
    rw [hi] at hnew
    dsimp only
    unfold Record.writeProperty
    cases hset : (Context.ofSchema s).schema.setter type step.name with
    | error e => exact h
    | ok set =>
      obtain ⟨declared, access⟩ := set
      obtain rfl : access = .field step.name := ht.writes (setter_eq_ok_iff.1 hset)
      exact h.insert ht.toFieldBacked hg hnew

theorem FieldsFit.instantiateChild (h : s.FieldsFit admits type fields) (step : Step) :
    s.FieldsFit admits type
      (Record.instantiateChild (Context.ofSchema s) ⟨type, fields⟩ step).1 := by
  rcases Record.instantiateChild_cases (Context.ofSchema s) ⟨type, fields⟩ step with
    ⟨hfields, _⟩ | ⟨set, created, hset, hcreated, hfields, _⟩
  · rw [hfields]
    exact h
  · rw [hfields]
    obtain ⟨g, hg, hsame⟩ := ht.readable (setter_eq_ok_iff.1 hset)
    have hfits := fits_of_createFor hunknown hs hcreated
    rw [← hsame] at hfits
    exact FieldsFit.set hunknown hs ht h hg hfits

theorem FieldsFit.enter (h : s.FieldsFit admits type fields) (step : Step) (rest : Path)
    (new : Value) :
    ∃ fields', ((Value.record type fields).enter (Context.ofSchema s) step rest new).1 =
      .record type fields' ∧ s.FieldsFit admits type fields' := by
  rcases Value.enter_fst (Context.ofSchema s) (.record type fields) step rest new with he | he
  · exact ⟨fields, he, h⟩
  · exact ⟨_, he, FieldsFit.instantiateChild hunknown hs ht h step⟩

end Record

theorem conforms_write_of_belowUndeclared {ctx : Context} {declared : Descriptor}
    (hopen : declared.HasOpenMaps) (hv : s.Conforms v declared) (hnull : v.isNull = false)
    (h : belowUndeclared declared rest = .ok t) :
    s.Conforms (v.write ctx rest new).1 declared := by
  cases declared with
  | unknown => exact .admitted rfl
  | map element =>
    obtain rfl : element = .unknown := hopen
    obtain ⟨inside, rfl⟩ := Fits.eq_map nofun hv hnull
    have hshape : ((Value.map inside).write ctx rest new).1.shape? = some .mapping := by
      rw [Value.shape?_write]
      rfl
    cases hw : ((Value.map inside).write ctx rest new).1 with
    | map entries => exact .map fun _ _ _ => .admitted rfl
    | _ => rw [hw] at hshape; nomatch hshape
  | _ => cases rest <;> nomatch h

section Conforming

variable (hs : s.Declares Declaration.IsOpenField)

include hs

theorem plain_of_openFields : s.Plain := plain_of_declares hs fun _ h => h.1

theorem hasOpenMaps_of_getter (hfind : s.find? type.name = some type)
    (hg : (s.definition type).getters.get? name = some g) : g.type.HasOpenMaps := by
  obtain ⟨declarations, hd, hall, hbuild⟩ := hs type.name type hfind
  rw [hbuild, RecordType.getters_build_eq_some_iff hd] at hg
  obtain ⟨d, hmem, _, hget⟩ := hg
  rw [Declaration.type_of_getter? hget]
  exact (hall d hmem).2

theorem conforms_set {set : Declared Setter}
    (hroot : s.Conforms (.record type fields) (.record type.name))
    (hset : s.setter type step.name = .ok set) (hnew : s.Conforms new (set.type.ofStep step)) :
    s.Conforms ((Value.record type fields).set (.ofSchema s) step new).1 (.record type.name) := by
  have hrecord := Descriptor.not_isUnknown_record type.name
  have hplain := plain_of_openFields hs
  obtain ⟨hfind, hfields⟩ := (fits_record_iff hrecord).1 hroot
  obtain ⟨g, hg, hsame⟩ := (hplain hfind).readable (setter_eq_ok_iff.1 hset)
  rw [← hsame] at hnew
  exact (fits_record_iff hrecord).2
    ⟨hfind, FieldsFit.set Descriptor.isUnknown_unknown hplain (hplain hfind) hfields hg hnew⟩

theorem conforms_write_next (hroot : s.Conforms (.record type fields) (.record type.name))
    (hbelow : ∀ g v, (s.definition type).getters.get? step.name = some g →
      s.Conforms v (g.type.ofStep step) → v.isNull = false →
      s.Conforms (v.write (.ofSchema s) rest new).1 (g.type.ofStep step)) :
    s.Conforms ((Value.record type fields).write (.ofSchema s) (.next step rest) new).1
      (.record type.name) := by
  have hrecord := Descriptor.not_isUnknown_record type.name
  have hplain := plain_of_openFields hs
  obtain ⟨hfind, hfields⟩ := (fits_record_iff hrecord).1 hroot
  have ht := hplain hfind
  obtain ⟨fields', hparent, hfields'⟩ :=
    FieldsFit.enter Descriptor.isUnknown_unknown hplain ht hfields step rest new
  have hkept := (fits_record_iff hrecord).2 ⟨hfind, hfields'⟩
  rw [Value.write_next]
  cases henter : (Value.record type fields).enter (.ofSchema s) step rest new with
  | mk parent outcome =>
    rw [henter] at hparent
    subst hparent
    cases outcome with
    | error e => exact hkept
    | ok found =>
      cases found with
      | none => exact hkept
      | some c =>
        have hopen : ∀ d : Descriptor, d.IsUnknown → d.element.IsUnknown := by
          rintro _ rfl
          rfl
        obtain ⟨g, v, hg, rfl, hnull, hv⟩ := hfields'.child ht.toFieldBacked
          (fun g _ _ => hopen g.type) (Value.child_of_enter henter)
        exact (fits_record_iff hrecord).2
          ⟨hfind, hfields'.putAt ht.toFieldBacked hg (hbelow g v hg hv hnull)⟩

theorem conforms_write {path : Path} (hnew : s.Conforms new t)
    (hroot : s.Conforms (.record type fields) (.record type.name))
    (ht : s.setterType type path = .ok t) :
    s.Conforms ((Value.record type fields).write (.ofSchema s) path new).1
      (.record type.name) := by
  -- along the path the declared types and the values go down together
  induction path generalizing type fields with
  | malformed e => nomatch ht
  | last step =>
    rw [setterType] at ht
    cases hset : s.setter type step.name with
    | error e => rw [hset] at ht; nomatch ht
    | ok set =>
      rw [hset] at ht
      obtain rfl := Except.ok.inj ht
      exact conforms_set hs hroot hset hnew
  | next step rest ih =>
    refine conforms_write_next hs hroot ?_
    intro g v hg hv hnull
    rw [setterType, stepType_of_getter hg] at ht
    dsimp only at ht
    split at ht
    · rename_i below hbelow
      obtain ⟨hdeclared, hfind⟩ := recordOf?_eq_some_iff.1 hbelow
      have hrecord := Descriptor.not_isUnknown_record below.name
      rw [hdeclared] at hv ⊢
      obtain ⟨inside, rfl⟩ := Fits.eq_record hrecord hfind hv hnull
      exact ih hv ht
    · have hfind := ((fits_record_iff (Descriptor.not_isUnknown_record _)).1 hroot).1
      have hopen := (hasOpenMaps_of_getter hs hfind hg).ofStep step
      exact conforms_write_of_belowUndeclared hopen hv hnull ht

end Conforming

end Schema

/-- Setting a value of the type that is declared at the path keeps the root
conforming, whether or not the value is put there in the end. -/
theorem Context.conforms_setValue {s : Schema} (hs : s.Declares Declaration.IsOpenField)
    {type : TypeRef} {fields : Fields} {path : String} {t : Descriptor} {new : Value}
    (hroot : s.Conforms (.record type fields) (.record type.name))
    (ht : s.setterType type (.ofText path) = .ok t) (hnew : s.Conforms new t) :
    s.Conforms ((Context.ofSchema s).setValue (.record type fields) path new).1
      (.record type.name) :=
  Schema.conforms_write hs hnew hroot ht

def nodeFields : List Declaration :=
  [.readOnly "id" .integer, .field "label" .string, .field "notes" (.map .unknown),
    .field "children" (.list (.record "Node"))]

def nodeSchema : Schema where
  definition := fun _ => .build nodeFields
  registered := .ofList [("Node", 0)]

theorem nodeSchema_declares : nodeSchema.Declares Declaration.IsOpenField := by
  intro name type _
  refine ⟨nodeFields, by decide, ?_, rfl⟩
  simp [nodeFields, Declaration.IsOpenField, Declaration.isStored, Declaration.type,
    Descriptor.HasOpenMaps]

theorem conforms_setValue_node :
    let type : TypeRef := ⟨"Node", 0⟩
    let root := nodeSchema.newRecord type
    let path := "children[0].label"
    nodeSchema.Declares Declaration.IsOpenField ∧
      nodeSchema.Conforms (.record type root.fields) (.record "Node") ∧
      nodeSchema.setterType type (.ofText path) = .ok .string ∧
      nodeSchema.Conforms (.string "leaf") .string ∧
      nodeSchema.Conforms ((Context.ofSchema nodeSchema).setValue (.record type root.fields)
        path (.string "leaf")).1 (.record "Node") := by
  intro type root path
  have hs := nodeSchema_declares
  have hfind : nodeSchema.find? type.name = some type := rfl
  have hroot : nodeSchema.Conforms (.record type root.fields) (.record type.name) :=
    (Schema.fits_record_iff nofun).2
      ⟨hfind, Schema.fieldsFit_defaults (Schema.plain_of_openFields hs hfind)⟩
  have hlabel : Path.ofText "label" = .last ⟨"label", none⟩ := Path.ofText_of_last rfl
  have hpath : Path.ofText "children[0].label" = .next ⟨"children", some 0⟩ (.ofText "label") :=
    Path.ofText_of_next rfl
  have ht : nodeSchema.setterType type (.ofText "children[0].label") = .ok .string := by
    rw [hpath, hlabel]
    rfl
  have hnew : nodeSchema.Conforms (.string "leaf") .string := .scalar rfl rfl
  exact ⟨hs, hroot, ht, hnew, Context.conforms_setValue hs hroot ht hnew⟩

end PropTree
