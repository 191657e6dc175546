import PropTree.Proofs.Navigation.Preservation
import PropTree.Proofs.Navigation.ReadBack

set_option autoImplicit false

/-!
# Declared writable paths can be written
-/

namespace PropTree

namespace Descriptor

def IsLeaf : Descriptor → Prop
  | .list _ => False
  | .record _ => False
  | _ => True

theorem isLeaf_unknown : Descriptor.unknown.IsLeaf := trivial

theorem not_isLeaf_list (element : Descriptor) : ¬(Descriptor.list element).IsLeaf := id

theorem not_isLeaf_record (name : String) : ¬(Descriptor.record name).IsLeaf := id

end Descriptor

namespace Value

def length : Value → Nat
  | .array items => items.length
  | _ => 0

def valueAt (ctx : Context) (v : Value) (step : Step) : Value :=
  match v.get ctx step with
  | .ok (some found) => found
  | _ => .null

variable {ctx : Context} {root v : Value} {step : Step} {lookup : Lookup} {c : Child}

theorem valueAt_of_child (h : root.child ctx step lookup = .ok (some c)) :
    root.valueAt ctx step = c.value := by
  rw [valueAt, (get_of_child h).1]

theorem valueAt_of_child_none (h : root.child ctx step lookup = .ok none) :
    root.valueAt ctx step = .null := by
  unfold valueAt
  split
  · rename_i found hget
    by_cases hnull : found.isNull = true
    · exact isNull_iff.1 hnull
    · obtain ⟨c, hc, _⟩ := child_of_get hget (Bool.eq_false_iff.2 hnull) lookup
      rw [h] at hc
      nomatch hc
  · rfl

end Value

namespace Schema

def StepInRange (s : Schema) (type : TypeRef) (current : Value) (step : Step) : Prop :=
  ∀ index, step.index = some index →
    ∃ g element, (s.definition type).getters.get? step.name = some g ∧ g.type = .list element ∧
      index ≤ (current.valueAt (.ofSchema s) ⟨step.name, none⟩).length

/-- Every index on the path is in range, the declared types and the values that
are there being followed together. -/
def InRange (s : Schema) (type : TypeRef) (current : Value) : Path → Prop
  | .malformed _ => True
  | .last step => s.StepInRange type current step
  | .next step rest =>
    s.StepInRange type current step ∧
      ∀ below, s.propertyType type step = .ok (some below) →
        s.InRange below (current.valueAt (.ofSchema s) step) rest

variable {s : Schema} {type below : TypeRef} {fields : Fields} {name : String} {step : Step}
  {held new v : Value} {g : Declared Getter} {rest path : Path} {element : Descriptor}

section Fields

variable (hs : s.Declares fun d => d.isField = true)

include hs

theorem plain_of_fields : s.Plain :=
  plain_of_declares hs fun _ h => Declaration.isStored_of_isField h

theorem setter_of_fields (hfind : s.find? type.name = some type)
    (hg : (s.definition type).getters.get? name = some g) :
    ∃ set, s.setter type name = .ok set ∧ set.type = g.type := by
  obtain ⟨declarations, hd, hall, hbuild⟩ := hs type.name type hfind
  rw [hbuild] at hg
  obtain ⟨set, hset, hsame⟩ := RecordType.writable_build hd hall hg
  exact ⟨set, setter_eq_ok_iff.2 (by rw [hbuild]; exact hset), hsame⟩

theorem readsBack_of_fields (hfind : s.find? type.name = some type) : s.ReadsBack type := by
  obtain ⟨declarations, hd, hall, hbuild⟩ := hs type.name type hfind
  exact readsBack_of_build hbuild hd fun d hmem =>
    Declaration.readsBack_of_isStored (Declaration.isStored_of_isField (hall d hmem))

end Fields

/-! ### One record -/

theorem valueAt_of_plain (ht : (s.definition type).Plain)
    (hg : (s.definition type).getters.get? name = some g) :
    (Value.record type fields).valueAt (.ofSchema s) ⟨name, none⟩ =
      (fields.get? name).getD .null := by
  have haccess : g.access = .field name := ht.reads hg
  have hread : Record.readProperty (.ofSchema s) ⟨type, fields⟩ name =
      .ok ((fields.get? name).getD .null) :=
    Record.readProperty_of_getter (getter_eq_ok_iff.2 hg) (by rw [haccess]; rfl)
  have hget : (Value.record type fields).get (.ofSchema s) ⟨name, none⟩ = .ok (some _) :=
    Record.get_eq_ok_iff.2 ⟨_, _, hread, rfl, rfl⟩
  rw [Value.valueAt, hget]

theorem StepInRange.stored (ht : (s.definition type).Plain)
    (hfields : s.FieldsFit Descriptor.IsLeaf type fields)
    (hg : (s.definition type).getters.get? step.name = some g)
    (h : s.StepInRange type (.record type fields) step) {index : Nat}
    (hi : step.index = some index) :
    ∃ element, g.type = .list element ∧
      ((fields.get? step.name).getD .null = .null ∧ index = 0 ∨
        ∃ items, (fields.get? step.name).getD .null = .array items ∧ index ≤ items.length) := by
  obtain ⟨g', element, hg', hlist, hle⟩ := h index hi
  obtain rfl := Option.some.inj (hg'.symm.trans hg)
  refine ⟨element, hlist, ?_⟩
  rw [valueAt_of_plain ht hg] at hle
  have hheld := hfields.stored ht.toFieldBacked hg
  rw [hlist] at hheld
  by_cases hnull : ((fields.get? step.name).getD .null).isNull = true
  · have hheld := Value.isNull_iff.1 hnull
    rw [hheld] at hle
    exact .inl ⟨hheld, Nat.le_zero.1 hle⟩
  · obtain ⟨items, hitems⟩ := hheld.eq_array (Descriptor.not_isLeaf_list element)
      (Bool.eq_false_iff.2 hnull)
    rw [hitems] at hle
    exact .inr ⟨items, hitems, hle⟩

theorem child_ok (ht : (s.definition type).Plain)
    (hfields : s.FieldsFit Descriptor.IsLeaf type fields)
    (hg : (s.definition type).getters.get? step.name = some g)
    (hrange : s.StepInRange type (.record type fields) step) :
    ∃ found, (Value.record type fields).child (.ofSchema s) step .write = .ok found := by
  have haccess : g.access = .field step.name := ht.reads hg
  have hvalue : ∃ found, Record.childValue ((fields.get? step.name).getD .null) step .write =
      .ok found := by
    unfold Record.childValue
    cases hi : step.index with
    | none => exact ⟨_, rfl⟩
    | some index =>
      obtain ⟨_, _, ⟨hnull, _⟩ | ⟨items, hitems, hle⟩⟩ := hrange.stored ht hfields hg hi
      · rw [hnull]
        exact ⟨none, rfl⟩
      · rw [hitems]
        dsimp only [Value.elementChild]
        cases hitem : items[index]? with
        | some item => exact ⟨_, rfl⟩
        | none =>
          have hge : items.length ≤ index := List.getElem?_eq_none_iff.1 hitem
          exact ⟨none, if_pos ⟨rfl, Nat.le_antisymm hle hge⟩⟩
  obtain ⟨found, hfound⟩ := hvalue
  refine ⟨found.map (Record.childOf g.access step), ?_⟩
  change Record.child (.ofSchema s) ⟨type, fields⟩ step .write = _
  rw [Record.child_of_getter (getter_eq_ok_iff.2 hg), haccess]
  simp only [Record.invokeGetter, Getter.invoke, Except.bind, hfound, Except.map]

theorem set_ok (ht : (s.definition type).Plain)
    (hfields : s.FieldsFit Descriptor.IsLeaf type fields) {set : Declared Setter}
    (hset : s.setter type step.name = .ok set)
    (hrange : s.StepInRange type (.record type fields) step) (new : Value) :
    (Record.set (.ofSchema s) ⟨type, fields⟩ step new).2 = .ok () := by
  unfold Record.set
  cases hi : step.index with
  | none =>
    dsimp only
    have haccess : set.access = .field step.name := ht.writes (setter_eq_ok_iff.1 hset)
    simp only [Record.writeProperty, Context.ofSchema, hset, haccess, Setter.invoke]
  | some index =>
    dsimp only
    obtain ⟨g, hg, _⟩ := ht.readable (setter_eq_ok_iff.1 hset)
    have haccess : g.access = .field step.name := ht.reads hg
    obtain ⟨element, hlist, hheld⟩ := hrange.stored ht hfields hg hi
    have hcollection : ∃ items, index ≤ items.length ∧
        Record.collectionFor (.ofSchema s) step.name g.type
          ((fields.get? step.name).getD .null) = .ok (.array items) := by
      rw [hlist]
      rcases hheld with ⟨hnull, rfl⟩ | ⟨items, hitems, hle⟩
      · rw [hnull]
        exact ⟨[], Nat.le_refl 0, rfl⟩
      · rw [hitems]
        exact ⟨items, hle, rfl⟩
    obtain ⟨items, hle, hcollection⟩ := hcollection
    obtain ⟨items', hitems'⟩ := Value.setElement_of_le hle step.name new
    have hget : (Context.ofSchema s).schema.getter type step.name = .ok g :=
      getter_eq_ok_iff.2 hg
    simp only [Record.setElement, hget, haccess, hcollection, hitems']

theorem instantiateChild_ok (hs : s.Declares fun d => d.isField = true)
    (hfind : s.find? type.name = some type) (hfields : s.FieldsFit Descriptor.IsLeaf type fields)
    (hg : (s.definition type).getters.get? step.name = some g)
    (hbelow : s.recordOf? (g.type.ofStep step) = some below)
    (hrange : s.StepInRange type (.record type fields) step) :
    ∃ fields' c, Record.instantiateChild (.ofSchema s) ⟨type, fields⟩ step = (fields', .ok c) ∧
      c.value = .ofRecord (s.newRecord below) := by
  have ht := plain_of_fields hs hfind
  obtain ⟨set, hset, hsame⟩ := setter_of_fields hs hfind hg
  obtain ⟨hdeclared, hfindBelow⟩ := recordOf?_eq_some_iff.1 hbelow
  have hcreated : (Context.ofSchema s).createFor step.name (set.type.ofStep step) =
      .ok (.ofRecord (s.newRecord below)) := by
    rw [hsame, hdeclared]
    simp only [Context.createFor, Context.ofSchema, instantiate, require, hfindBelow, Except.map]
  obtain ⟨fields', hok⟩ : ∃ fields', Record.set (.ofSchema s) ⟨type, fields⟩ step
      (.ofRecord (s.newRecord below)) = (fields', .ok ()) :=
    ⟨_, Prod.ext rfl (set_ok ht hfields hset hrange _)⟩
  have hget : (Value.record type fields').get (.ofSchema s) step = .ok (some _) :=
    Record.get_set (r := ⟨type, fields⟩) (readsBack_of_fields hs hfind) hok
  obtain ⟨c, hc, hvalue⟩ := Value.child_of_get hget rfl .write
  exact ⟨fields', c,
    Record.instantiateChild_of_set (r := ⟨type, fields⟩) hset hcreated hok hc, hvalue⟩

/-! ### Paths -/

theorem propertyType_of_getter (hg : (s.definition type).getters.get? step.name = some g) :
    s.propertyType type step = .ok (s.recordOf? (g.type.ofStep step)) := by
  rw [propertyType, stepType_of_getter hg]
  rfl

theorem getter_of_propertyType (h : s.propertyType type step = .ok (some below)) :
    ∃ g, (s.definition type).getters.get? step.name = some g ∧
      s.recordOf? (g.type.ofStep step) = some below := by
  cases hg : (s.definition type).getters.get? step.name with
  | none => simp [propertyType, stepType, getter, hg, Except.map] at h
  | some g =>
    rw [propertyType_of_getter hg] at h
    exact ⟨g, rfl, Except.ok.inj h⟩

theorem hasSetter_next (h : s.hasSetter type (.next step rest) = .ok true) :
    ∃ below, s.propertyType type step = .ok (some below) ∧ s.hasSetter below rest = .ok true := by
  unfold hasSetter at h
  split at h
  · split at h
    · nomatch h
    · nomatch h
    · rename_i below hbelow
      exact ⟨below, hbelow, h⟩
  · nomatch h

theorem check_of_hasSetter (h : s.hasSetter type path = .ok true) : path.check = .ok () := by
  cases path with
  | malformed e => nomatch h
  | _ => rfl

theorem valueAt_newRecord (ht : (s.definition type).Plain)
    (hg : (s.definition type).getters.get? step.name = some g) (hnull : g.type.default = .null) :
    (Value.ofRecord (s.newRecord type)).valueAt (.ofSchema s) step = .null := by
  have haccess : g.access = .field step.name := ht.reads hg
  have hchild : Record.child (.ofSchema s) (s.newRecord type) step .write = .ok none := by
    have hheld : g.access.invoke (s.newRecord type) = .ok .null := by
      simp only [haccess, Getter.invoke, newRecord, ht.starts hg, Option.getD_some, hnull]
    rw [Record.child_of_getter (getter_eq_ok_iff.2 hg), Record.invokeGetter, hheld]
    unfold Record.childValue
    cases step.index <;> rfl
  exact Value.valueAt_of_child_none hchild

/-- Below a record that is only just made nothing is there yet, so what is in
range of nothing is in range of it. -/
theorem InRange.newRecord (ht : (s.definition type).Plain) (h : s.InRange type .null path) :
    s.InRange type (.ofRecord (s.newRecord type)) path := by
  have hstep : ∀ {step}, s.StepInRange type .null step →
      s.StepInRange type (.ofRecord (s.newRecord type)) step := by
    intro step hs index hi
    obtain ⟨g, element, hg, hlist, hle⟩ := hs index hi
    exact ⟨g, element, hg, hlist, Nat.le_trans hle (Nat.zero_le _)⟩
  cases path with
  | malformed e => trivial
  | last step => exact hstep h
  | next step rest =>
    obtain ⟨hrange, hrest⟩ := h
    refine ⟨hstep hrange, ?_⟩
    intro below hbelow
    obtain ⟨g, hg, hrecord⟩ := getter_of_propertyType hbelow
    have hnull : g.type.default = .null := by
      cases hi : step.index with
      | none =>
        have hdeclared := (recordOf?_eq_some_iff.1 hrecord).1
        rw [Descriptor.ofStep, hi] at hdeclared
        rw [show g.type = _ from hdeclared]
        rfl
      | some index =>
        obtain ⟨g', element, hg', hlist, _⟩ := hrange index hi
        obtain rfl := Option.some.inj (hg'.symm.trans hg)
        rw [hlist]
        rfl
    rw [valueAt_newRecord ht hg hnull]
    exact hrest below hbelow

section Walk

variable (hs : s.Declares fun d => d.isField = true)

include hs

theorem enter_ok (hfind : s.find? type.name = some type)
    (hfields : s.FieldsFit Descriptor.IsLeaf type fields)
    (hbelow : s.propertyType type step = .ok (some below)) (hrest : rest.check = .ok ())
    (hrange : s.InRange type (.record type fields) (.next step rest)) (new : Value) :
    ∃ found, ((Value.record type fields).enter (.ofSchema s) step rest new).2 = .ok found ∧
      ∀ c, found = some c → s.InRange below c.value rest := by
  have ht := plain_of_fields hs hfind
  obtain ⟨hstep, hinside⟩ := hrange
  obtain ⟨g, hg, hrecord⟩ := getter_of_propertyType hbelow
  obtain ⟨found, hfound⟩ := child_ok ht hfields hg hstep
  have hlook : (Value.record type fields).lookBelow (.ofSchema s) step rest .write =
      .ok found := by
    simp only [Value.lookBelow, Value.shape, Value.shape?, hrest, bind, Except.bind]
    exact hfound
  have hvalue := hinside below hbelow
  unfold Value.enter
  rw [hlook]
  cases found with
  | some c =>
    refine ⟨some c, rfl, ?_⟩
    rintro _ ⟨⟩
    rw [Value.valueAt_of_child hfound] at hvalue
    exact hvalue
  | none =>
    dsimp only
    split
    · refine ⟨none, rfl, ?_⟩
      rintro _ ⟨⟩
    · obtain ⟨fields', c, hmade, hnew⟩ := instantiateChild_ok hs hfind hfields hg hrecord hstep
      refine ⟨some c, ?_, ?_⟩
      · simp only [Value.instantiateChild, hmade, Except.map]
      · rintro _ ⟨⟩
        rw [Value.valueAt_of_child_none hfound] at hvalue
        have hfindBelow := (recordOf?_eq_some_iff.1 hrecord).2
        rw [hnew]
        exact hvalue.newRecord (plain_of_fields hs hfindBelow)

theorem write_next_ok (hroot : s.Fits Descriptor.IsLeaf (.record type fields) (.record type.name))
    (hbelow : s.propertyType type step = .ok (some below)) (hrest : rest.check = .ok ())
    (hrange : s.InRange type (.record type fields) (.next step rest))
    (hwrite : ∀ inside,
      s.Fits Descriptor.IsLeaf (.record below inside) (.record below.name) →
      s.InRange below (.record below inside) rest →
      ((Value.record below inside).write (.ofSchema s) rest new).2 = .ok ()) :
    ((Value.record type fields).write (.ofSchema s) (.next step rest) new).2 = .ok () := by
  have hplain := plain_of_fields hs
  obtain ⟨hfind, hfields⟩ := (fits_record_iff (Descriptor.not_isLeaf_record _)).1 hroot
  have ht := hplain hfind
  obtain ⟨found, hentered, hinside⟩ := enter_ok hs hfind hfields hbelow hrest hrange new
  obtain ⟨fields', hparent, hfields'⟩ :=
    FieldsFit.enter Descriptor.isLeaf_unknown hplain ht hfields step rest new
  have hlist : ∀ g : Declared Getter, (s.definition type).getters.get? step.name = some g →
      step.index.isSome → g.type.IsLeaf → g.type.element.IsLeaf := by
    intro g hg hi hleaf
    obtain ⟨index, hi⟩ := Option.isSome_iff_exists.1 hi
    obtain ⟨g', element, hg', hlist, _⟩ := hrange.1 index hi
    obtain rfl := Option.some.inj (hg'.symm.trans hg)
    rw [hlist] at hleaf
    exact absurd hleaf (Descriptor.not_isLeaf_list element)
  rw [Value.write_next]
  cases henter : (Value.record type fields).enter (.ofSchema s) step rest new with
  | mk parent outcome =>
    rw [henter] at hentered hparent
    subst hparent hentered
    cases found with
    | none => rfl
    | some c =>
      obtain ⟨g, v, hg, rfl, hnull, hv⟩ :=
        hfields'.child ht.toFieldBacked hlist (Value.child_of_enter henter)
      rw [propertyType_of_getter hg] at hbelow
      obtain ⟨hdeclared, hfindBelow⟩ := recordOf?_eq_some_iff.1 (Except.ok.inj hbelow)
      rw [hdeclared] at hv
      obtain ⟨inside, rfl⟩ :=
        Fits.eq_record (Descriptor.not_isLeaf_record _) hfindBelow hv hnull
      exact hwrite inside hv (hinside _ rfl)

theorem write_ok (hroot : s.Fits Descriptor.IsLeaf (.record type fields) (.record type.name))
    (hset : s.hasSetter type path = .ok true)
    (hrange : s.InRange type (.record type fields) path) (new : Value) :
    ((Value.record type fields).write (.ofSchema s) path new).2 = .ok () := by
  -- each step is in range of what is there, or of the new record made for it
  induction path generalizing type fields with
  | malformed e => nomatch hset
  | last step =>
    obtain ⟨hfind, hfields⟩ := (fits_record_iff (Descriptor.not_isLeaf_record _)).1 hroot
    have hwritable : ((s.definition type).setters.get? step.name).isSome = true :=
      Except.ok.inj hset
    obtain ⟨set, hsetter⟩ := Option.isSome_iff_exists.1 hwritable
    exact set_ok (plain_of_fields hs hfind) hfields (setter_eq_ok_iff.2 hsetter) hrange new
  | next step rest ih =>
    obtain ⟨below, hbelow, hrest⟩ := hasSetter_next hset
    exact write_next_ok hs hroot hbelow (check_of_hasSetter hrest) hrange
      fun inside hfits hinside => ih hfits hrest hinside

end Walk

end Schema

/-- Setting a value, of whatever kind, at a path that the declared types call
writable: if the indexes on it are in range, no error comes of it. -/
theorem Context.setValue_ok {s : Schema} (hs : s.Declares fun d => d.isField = true)
    {type : TypeRef} {fields : Fields} {path : String}
    (hroot : s.Fits Descriptor.IsLeaf (.record type fields) (.record type.name))
    (hset : s.hasSetter type (.ofText path) = .ok true)
    (hrange : s.InRange type (.record type fields) (.ofText path)) (new : Value) :
    ((Context.ofSchema s).setValue (.record type fields) path new).2 = .ok () :=
  Schema.write_ok hs hroot hset hrange new

def taskFields : List Declaration :=
  [.field "title" .string, .field "next" (.record "Task"),
    .field "steps" (.list (.record "Task"))]

def taskSchema : Schema where
  definition := fun _ => .build taskFields
  registered := .ofList [("Task", 0)]

theorem setValue_ok_task :
    let type : TypeRef := ⟨"Task", 0⟩
    let root := taskSchema.newRecord type
    let path := "next.steps[0].title"
    let set := (Context.ofSchema taskSchema).setValue (.record type root.fields) path
      (.string "begin")
    (taskSchema.Declares fun d => d.isField = true) ∧
      taskSchema.Fits Descriptor.IsLeaf (.record type root.fields) (.record "Task") ∧
      taskSchema.hasSetter type (.ofText path) = .ok true ∧
      taskSchema.InRange type (.record type root.fields) (.ofText path) ∧
      set.2 = .ok () ∧
      set.1 = .record type ⟨[("next", .record type ⟨[("next", .null),
        ("steps", .array [.record type ⟨[("next", .null), ("steps", .null),
          ("title", .string "begin")]⟩]), ("title", .string "")]⟩), ("steps", .null),
        ("title", .string "")]⟩ := by
  intro type root path set
  have hs : taskSchema.Declares fun d => d.isField = true :=
    fun _ _ _ => ⟨taskFields, by decide, by simp [taskFields, Declaration.isField], rfl⟩
  have hfind : taskSchema.find? type.name = some type := rfl
  have hroot : taskSchema.Fits Descriptor.IsLeaf (.record type root.fields)
      (.record type.name) :=
    (Schema.fits_record_iff id).2
      ⟨hfind, Schema.fieldsFit_defaults (Schema.plain_of_fields hs hfind)⟩
  have htitle : Path.ofText "title" = .last ⟨"title", none⟩ := Path.ofText_of_last rfl
  have hsteps : Path.ofText "steps[0].title" = .next ⟨"steps", some 0⟩ (.ofText "title") :=
    Path.ofText_of_next rfl
  have hpath : Path.ofText "next.steps[0].title" =
      .next ⟨"next", none⟩ (.ofText "steps[0].title") := Path.ofText_of_next rfl
  have hset : taskSchema.hasSetter type (.ofText "next.steps[0].title") = .ok true := by
    rw [hpath, hsteps, htitle]
    rfl
  have hrange : taskSchema.InRange type (.record type root.fields)
      (.ofText "next.steps[0].title") := by
    have hindex : ∀ current, taskSchema.StepInRange type current ⟨"steps", some 0⟩ := by
      rintro current _ ⟨⟩
      exact ⟨_, _, rfl, rfl, Nat.zero_le _⟩
    rw [hpath, hsteps, htitle]
    refine ⟨nofun, ?_⟩
    rintro below ⟨⟩
    refine ⟨hindex _, ?_⟩
    rintro below ⟨⟩
    exact nofun
  refine ⟨hs, hroot, hset, hrange, Context.setValue_ok hs hroot hset hrange _, ?_⟩
  change ((Context.ofSchema taskSchema).setValue (.record type root.fields)
    "next.steps[0].title" (.string "begin")).1 = _
  rw [Context.setValue, hpath, hsteps, htitle]
  rfl

end PropTree
