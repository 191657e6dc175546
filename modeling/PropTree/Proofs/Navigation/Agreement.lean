import PropTree.Navigation.Inspect
import PropTree.Proofs.Navigation.Composition
import PropTree.Proofs.Navigation.Preservation

set_option autoImplicit false

/-!
# What values and declared types say

How much of what is declared on the way is there makes no difference: a query goes
on in a record of the declared type where there is one, and asks the type where
there is none.
-/

namespace PropTree

namespace Schema

/-- Each step that the path goes on below leads to a registered record type,
and asks for an element only of a list. -/
def LeadsThroughRecords (s : Schema) (type : TypeRef) : Path → Prop
  | .malformed _ => True
  | .last _ => True
  | .next step rest =>
    ∃ g below, (s.definition type).getters.get? step.name = some g ∧
      (step.index.isSome → g.type.isList) ∧ s.recordOf? (g.type.ofStep step) = some below ∧
      s.LeadsThroughRecords below rest

variable {s : Schema} {type below : TypeRef} {fields : Fields} {held : Value} {step : Step}
  {d : Descriptor} {g : Declared Getter} {e : NavigationError}

theorem outOfRange_of_part (hlist : step.index.isSome → d.isList) (hheld : s.Conforms held d)
    (h : held.part step = .error e) :
    ∃ index length, e = .indexOutOfRange step.name index length := by
  unfold Value.part at h
  cases hi : step.index with
  | none => simp [hi] at h
  | some index =>
    simp only [hi] at h
    obtain ⟨element, rfl⟩ : ∃ element, d = .list element := by
      cases d with
      | list element => exact ⟨element, rfl⟩
      | _ => simp [hi, Descriptor.isList] at hlist
    cases hnull : held.isNull with
    | true =>
      obtain rfl := Value.isNull_iff.1 hnull
      exact ⟨index, 0, (Except.error.inj h).symm⟩
    | false =>
      obtain ⟨items, rfl⟩ := Fits.eq_array nofun hheld hnull
      cases hitem : items[index]? with
      | none =>
        simp only [Value.element, hitem] at h
        exact ⟨index, items.length, (Except.error.inj h).symm⟩
      | some item => simp [Value.element, hitem] at h

theorem reached_of_part {ctx : Context} (hb : (ctx.schema.definition type).FieldBacked)
    (hg : (ctx.schema.definition type).getters.get? step.name = some g) :
    (Value.record type fields).reached ctx step =
      match ((fields.get? step.name).getD .null).part step with
      | .ok v => .ok v.present?
      | .error (.indexOutOfRange _ _ _) => .ok none
      | .error e => .error e := by
  have haccess : g.access = .field step.name := hb.reads hg
  have hread : Record.readProperty ctx ⟨type, fields⟩ step.name =
      .ok ((fields.get? step.name).getD .null) :=
    Record.readProperty_of_getter (getter_eq_ok_iff.2 hg) (by rw [haccess]; rfl)
  have hchild : ((Value.record type fields).child ctx step .read).map (Option.map Child.value) =
      (((fields.get? step.name).getD .null).part step).map Value.present? := by
    change (Record.child ctx ⟨type, fields⟩ step .read).map _ = _
    rw [Value.record_child, hread]
    rfl
  unfold Value.reached
  cases hpart : ((fields.get? step.name).getD .null).part step with
  | ok v =>
    rw [hpart] at hchild
    cases hfound : (Value.record type fields).child ctx step .read with
    | ok found => rwa [hfound] at hchild
    | error e => rw [hfound] at hchild; nomatch hchild
  | error e =>
    rw [hpart] at hchild
    cases hfound : (Value.record type fields).child ctx step .read with
    | ok found => rw [hfound] at hchild; nomatch hchild
    | error e' =>
      rw [hfound] at hchild
      obtain rfl := Except.error.inj hchild
      cases e' <;> rfl

theorem reached_of_fieldsFit {ctx : Context} (hb : (ctx.schema.definition type).FieldBacked)
    (hfields : ctx.schema.FieldsFit Descriptor.IsUnknown type fields)
    (hg : (ctx.schema.definition type).getters.get? step.name = some g)
    (hlist : step.index.isSome → g.type.isList)
    (hbelow : ctx.schema.recordOf? (g.type.ofStep step) = some below) :
    (Value.record type fields).reached ctx step = .ok none ∨
      ∃ inside, (Value.record type fields).reached ctx step = .ok (some (.record below inside)) ∧
        ctx.schema.FieldsFit Descriptor.IsUnknown below inside := by
  obtain ⟨hdeclared, hfind⟩ := recordOf?_eq_some_iff.1 hbelow
  have hrecord := Descriptor.not_isUnknown_record below.name
  have hheld : ctx.schema.Conforms ((fields.get? step.name).getD .null) g.type :=
    hfields.stored hb hg
  rw [reached_of_part hb hg]
  cases hpart : ((fields.get? step.name).getD .null).part step with
  | error e =>
    obtain ⟨index, length, rfl⟩ := outOfRange_of_part hlist hheld hpart
    exact .inl rfl
  | ok v =>
    have hv : ctx.schema.Conforms v (.record below.name) := by
      have hopen : g.type.IsUnknown → g.type.element.IsUnknown := by
        intro h
        rw [show g.type = .unknown from h]
        rfl
      rw [← hdeclared]
      exact hheld.part (fun _ => hopen) hpart
    cases hnull : v.isNull with
    | true => exact .inl (by simp [Value.present?, hnull])
    | false =>
      obtain ⟨inside, rfl⟩ := Fits.eq_record hrecord hfind hv hnull
      exact .inr ⟨inside, rfl, ((fits_record_iff hrecord).1 hv).2⟩

theorem queries_of_leadsThroughRecords {ctx : Context}
    (hs : ctx.schema.Declares fun d => d.isStored = true) {path : Path}
    (hb : (ctx.schema.definition type).FieldBacked)
    (hfields : ctx.schema.FieldsFit Descriptor.IsUnknown type fields)
    (hpath : ctx.schema.LeadsThroughRecords type path) :
    (Value.record type fields).getterType ctx path = ctx.schema.getterType type path ∧
      (Value.record type fields).setterType ctx path = ctx.schema.setterType type path ∧
      (Value.record type fields).hasGetter ctx path = ctx.schema.hasGetter type path := by
  induction path generalizing type fields with
  | malformed e => exact ⟨rfl, rfl, rfl⟩
  | last step => exact ⟨rfl, rfl, rfl⟩
  | next step rest ih =>
    obtain ⟨g, below, hg, hlist, hbelow, hrest⟩ := hpath
    have hhas : (ctx.schema.definition type).hasGetter step.name = true := by
      simp [RecordType.hasGetter, Assoc.contains, hg]
    rcases reached_of_fieldsFit hb hfields hg hlist hbelow with habsent | ⟨inside, hinside, hfits⟩
    · simp only [Value.getterType, Value.setterType, Value.hasGetter, habsent, hhas, if_true,
        and_self]
    · -- both sides go on below, in the record that is there and in its type
      have hfind := (recordOf?_eq_some_iff.1 hbelow).2
      have hplain := plain_of_declares hs (fun _ h => h) hfind
      have hproperty : ctx.schema.propertyType type step = .ok (some below) := by
        rw [propertyType, stepType_of_getter hg]
        exact congrArg Except.ok hbelow
      obtain ⟨hgetter, hsetter, hhasBelow⟩ := ih hplain.toFieldBacked hfits hrest
      refine ⟨?_, ?_, ?_⟩
      · simp only [Value.getterType, hinside, hgetter, getterType, stepType_of_getter hg, hbelow]
      · simp only [Value.setterType, hinside, hsetter, setterType, stepType_of_getter hg, hbelow]
      · simp only [Value.hasGetter, hinside, hhasBelow, hasGetter, hhas, hproperty, if_true,
          Value.shape?, Option.isSome_some]

end Schema

/-- A record of a type that is built from stored fields, and that holds in them
values of their declared types, answers for the types and getters along a path
through declared records exactly as its type does. -/
theorem Context.queries_eq_declared (ctx : Context)
    (hs : ctx.schema.Declares fun d => d.isStored = true) {type : TypeRef} {fields : Fields}
    {declarations : List Declaration} (hd : (declarations.map Declaration.name).Nodup)
    (hstored : ∀ d ∈ declarations, d.isStored = true)
    (htype : ctx.schema.definition type = .build declarations)
    (hfields : ctx.schema.FieldsFit Descriptor.IsUnknown type fields) {path : String}
    (hpath : ctx.schema.LeadsThroughRecords type (.ofText path)) :
    let root := Value.record type fields
    root.getterType ctx (.ofText path) = ctx.schema.getterType type (.ofText path) ∧
      root.setterType ctx (.ofText path) = ctx.schema.setterType type (.ofText path) ∧
      root.hasGetter ctx (.ofText path) = ctx.schema.hasGetter type (.ofText path) := by
  have hplain := RecordType.plain_build hd hstored
  rw [← htype] at hplain
  exact Schema.queries_of_leadsThroughRecords hs hplain.toFieldBacked hfields hpath

def leafFields : Fields := Assoc.empty.insert "label" (.string "leaf")

def trunkFields : Fields :=
  (Assoc.empty.insert "id" (.integer 1)).insert "children"
    (.array [.null, .record ⟨"Node", 0⟩ leafFields])

theorem fieldsFit_trunk :
    nodeSchema.FieldsFit Descriptor.IsUnknown ⟨"Node", 0⟩ trunkFields := by
  have hplain : (RecordType.build nodeFields).Plain :=
    RecordType.plain_build (by decide) (by decide)
  have hb : (nodeSchema.definition ⟨"Node", 0⟩).FieldBacked := hplain.toFieldBacked
  have hempty : nodeSchema.FieldsFit Descriptor.IsUnknown ⟨"Node", 0⟩ Assoc.empty := nofun
  have hleaf : nodeSchema.FieldsFit Descriptor.IsUnknown ⟨"Node", 0⟩ leafFields :=
    hempty.insert hb (g := ⟨.string, .field "label"⟩) rfl (.scalar rfl rfl)
  have hid : nodeSchema.FieldsFit Descriptor.IsUnknown ⟨"Node", 0⟩
      (Assoc.empty.insert "id" (.integer 1)) :=
    hempty.insert hb (g := ⟨.integer, .field "id"⟩) rfl (.scalar rfl rfl)
  refine hid.insert hb (g := ⟨.list (.record "Node"), .field "children"⟩) rfl (.array ?_)
  intro v hv
  simp only [List.mem_cons, List.not_mem_nil, or_false] at hv
  rcases hv with rfl | rfl
  · exact .null
  · exact (Schema.fits_record_iff nofun).2 ⟨rfl, hleaf⟩

theorem queries_eq_declared_trunk :
    let ctx := Context.ofSchema nodeSchema
    let type : TypeRef := ⟨"Node", 0⟩
    let root := Value.record type trunkFields
    let path := Path.ofText "children[1].children[1].id"
    (nodeSchema.Declares fun d => d.isStored = true) ∧ (nodeFields.map Declaration.name).Nodup ∧
      (∀ d ∈ nodeFields, d.isStored = true) ∧ nodeSchema.definition type = .build nodeFields ∧
      nodeSchema.FieldsFit Descriptor.IsUnknown type trunkFields ∧
      nodeSchema.LeadsThroughRecords type path ∧
      root.getterType ctx path = .ok .integer ∧
      root.setterType ctx path = .error (.noSuchProperty "Node" "id" .setter) ∧
      root.hasGetter ctx path = .ok true := by
  intro ctx type root path
  have hs : nodeSchema.Declares fun d => d.isStored = true :=
    fun _ _ _ => ⟨nodeFields, by decide, by decide, rfl⟩
  have hid : Path.ofText "id" = .last ⟨"id", none⟩ := Path.ofText_of_last rfl
  have hinner : Path.ofText "children[1].id" = .next ⟨"children", some 1⟩ (.ofText "id") :=
    Path.ofText_of_next rfl
  have houter : Path.ofText "children[1].children[1].id" =
      .next ⟨"children", some 1⟩ (.ofText "children[1].id") := Path.ofText_of_next rfl
  have hpath : nodeSchema.LeadsThroughRecords type
      (.ofText "children[1].children[1].id") := by
    rw [houter, hinner, hid]
    exact ⟨_, type, rfl, fun _ => rfl, rfl, _, type, rfl, fun _ => rfl, rfl, trivial⟩
  obtain ⟨hgetter, hsetter, hhas⟩ :=
    Context.queries_eq_declared ctx hs (by decide) (by decide) rfl fieldsFit_trunk hpath
  refine ⟨hs, by decide, by decide, rfl, fieldsFit_trunk, hpath, ?_, ?_, ?_⟩
  · refine hgetter.trans ?_
    rw [houter, hinner, hid]
    rfl
  · refine hsetter.trans ?_
    rw [houter, hinner, hid]
    rfl
  · refine hhas.trans ?_
    rw [houter, hinner, hid]
    rfl

end PropTree
