import PropTree.Proofs.Navigation.Canonical
import PropTree.Proofs.Navigation.Progress

set_option autoImplicit false

/-!
# One account of declared types

The queries over declared types walk a path independently of each other, but all
of them go on below a step just where its declared type is a registered record.
-/

namespace PropTree

theorem RecordType.findProperty_exact_iff {t : RecordType} {name found : String} :
    t.findProperty name false = some found ↔
      (t.hasGetter name = true ∨ t.hasSetter name = true) ∧ name = found := by
  rw [findProperty, if_neg Bool.false_ne_true, ← Bool.or_eq_true_iff]
  split <;> simp_all

namespace Schema

variable {s : Schema} {type below : TypeRef} {step : Step} {rest path : Path}

theorem hasGetter_of_propertyType (h : s.propertyType type step = .ok (some below)) :
    (s.definition type).hasGetter step.name = true := by
  obtain ⟨g, hg, -⟩ := getter_of_propertyType h
  exact Option.isSome_iff_exists.2 ⟨g, hg⟩

/-! ### Below a step -/

theorem hasGetter_next_iff :
    s.hasGetter type (.next step rest) = .ok true ↔
      ∃ below, s.propertyType type step = .ok (some below) ∧ s.hasGetter below rest = .ok true := by
  constructor
  · intro h
    unfold hasGetter at h
    split at h
    · split at h
      · nomatch h
      · nomatch h
      · rename_i below hbelow
        exact ⟨below, hbelow, h⟩
    · nomatch h
  · rintro ⟨below, hbelow, h⟩
    simp only [hasGetter, hasGetter_of_propertyType hbelow, hbelow, h, if_true]

theorem hasSetter_next_iff :
    s.hasSetter type (.next step rest) = .ok true ↔
      ∃ below, s.propertyType type step = .ok (some below) ∧ s.hasSetter below rest = .ok true := by
  refine ⟨hasSetter_next, ?_⟩
  rintro ⟨below, hbelow, h⟩
  simp only [hasSetter, hasGetter_of_propertyType hbelow, hbelow, h, if_true]

theorem findProperty_next_isSome_iff :
    (s.findProperty type false (.next step rest)).isSome = true ↔
      ∃ below, s.propertyType type step = .ok (some below) ∧
        (s.findProperty below false rest).isSome = true := by
  constructor
  · intro h
    obtain ⟨c, hc⟩ := Option.isSome_iff_exists.1 h
    obtain ⟨name, below, found, hname, hbelow, hfound, -⟩ := findProperty_next_eq_some_iff.1 hc
    obtain ⟨-, rfl⟩ := RecordType.findProperty_exact_iff.1 hname
    exact ⟨below, hbelow, Option.isSome_iff_exists.2 ⟨found, hfound⟩⟩
  · rintro ⟨below, hbelow, h⟩
    obtain ⟨found, hfound⟩ := Option.isSome_iff_exists.1 h
    have hname := RecordType.findProperty_exact_iff.2 ⟨.inl (hasGetter_of_propertyType hbelow), rfl⟩
    exact Option.isSome_iff_exists.2
      ⟨_, findProperty_next_eq_some_iff.2 ⟨_, below, found, hname, hbelow, hfound, rfl⟩⟩

theorem types_next_of_propertyType (h : s.propertyType type step = .ok (some below)) :
    s.getterType type (.next step rest) = s.getterType below rest ∧
      s.setterType type (.next step rest) = s.setterType below rest := by
  obtain ⟨g, hg, hbelow⟩ := getter_of_propertyType h
  constructor
  · simp only [getterType, stepType_of_getter hg, hbelow]
  · simp only [setterType, stepType_of_getter hg, hbelow]

/-! ### Along a path -/

theorem findProperty_isSome_iff :
    (s.findProperty type false path).isSome = true ↔
      s.hasGetter type path = .ok true ∨ s.hasSetter type path = .ok true := by
  induction path generalizing type with
  | malformed e => simp [findProperty, hasGetter, hasSetter]
  | last step =>
    simp only [findProperty, Option.isSome_map, hasGetter, hasSetter, Except.ok.injEq,
      Option.isSome_iff_exists, RecordType.findProperty_exact_iff, exists_and_left, exists_eq',
      and_true]
  | next step rest ih =>
    rw [findProperty_next_isSome_iff, hasGetter_next_iff, hasSetter_next_iff, ← exists_or]
    simp only [ih, and_or_left]

theorem getterType_of_hasGetter (h : s.hasGetter type path = .ok true) :
    ∃ d, s.getterType type path = .ok d := by
  induction path generalizing type with
  | malformed e => nomatch h
  | last step =>
    obtain ⟨g, hg⟩ := Option.isSome_iff_exists.1 (Except.ok.inj h)
    exact ⟨_, stepType_of_getter hg⟩
  | next step rest ih =>
    obtain ⟨below, hbelow, hrest⟩ := hasGetter_next_iff.1 h
    rw [(types_next_of_propertyType hbelow).1]
    exact ih hrest

theorem setterType_of_hasSetter (h : s.hasSetter type path = .ok true) :
    ∃ d, s.setterType type path = .ok d := by
  induction path generalizing type with
  | malformed e => nomatch h
  | last step =>
    obtain ⟨set, hset⟩ := Option.isSome_iff_exists.1 (Except.ok.inj h)
    exact ⟨_, by rw [setterType, setter_eq_ok_iff.2 hset]⟩
  | next step rest ih =>
    obtain ⟨below, hbelow, hrest⟩ := hasSetter_next_iff.1 h
    rw [(types_next_of_propertyType hbelow).2]
    exact ih hrest

/-- A path can be spelled with declared names as they are exactly if it has a
getter or a setter. If it has a getter it can be read at a declared type, and
likewise for a setter. -/
theorem queries_agree (s : Schema) (type : TypeRef) (path : String) :
    ((s.findProperty type false (.ofText path)).isSome = true ↔
        s.hasGetter type (.ofText path) = .ok true ∨
          s.hasSetter type (.ofText path) = .ok true) ∧
      (s.hasGetter type (.ofText path) = .ok true →
        ∃ d, s.getterType type (.ofText path) = .ok d) ∧
      (s.hasSetter type (.ofText path) = .ok true →
        ∃ d, s.setterType type (.ofText path) = .ok d) :=
  ⟨findProperty_isSome_iff, getterType_of_hasGetter, setterType_of_hasSetter⟩

end Schema

def doorFields : List Declaration :=
  [.readOnly "number" .integer, .field "house" (.record "House"),
    .writeOnly "code" .string fun r _ => (r.fields, .ok ())]

def houseFields : List Declaration :=
  [.field "doors" (.list (.record "Door")), .field "street" (.record "Street")]

def houseSchema : Schema where
  definition := fun type => .build (if type.name = "Door" then doorFields else houseFields)
  registered := .ofList [("Door", 0), ("House", 0)]

theorem queries_agree_house :
    let type : TypeRef := ⟨"House", 0⟩
    let number := Path.ofText "doors[1].number"
    let code := Path.ofText "doors[2].house.doors[0].code"
    let name := Path.ofText "street.name"
    (houseSchema.findProperty type false number).isSome = true ∧
      houseSchema.hasGetter type number = .ok true ∧
      houseSchema.hasSetter type number = .ok false ∧
      (∃ d, houseSchema.getterType type number = .ok d) ∧
      houseSchema.getterType type number = .ok .integer ∧
      (houseSchema.findProperty type false code).isSome = true ∧
      houseSchema.hasGetter type code = .ok false ∧
      houseSchema.hasSetter type code = .ok true ∧
      (∃ d, houseSchema.setterType type code = .ok d) ∧
      houseSchema.hasGetter type name = .ok false ∧
      houseSchema.hasSetter type name = .ok false ∧
      ¬(houseSchema.findProperty type false name).isSome = true := by
  intro type number code name
  have hnumber : number = .next ⟨"doors", some 1⟩ (.last ⟨"number", none⟩) := by
    have hlast : Path.ofText "number" = .last ⟨"number", none⟩ := Path.ofText_of_last rfl
    rw [← hlast]
    exact Path.ofText_of_next rfl
  have hcode : code = .next ⟨"doors", some 2⟩ (.next ⟨"house", none⟩
      (.next ⟨"doors", some 0⟩ (.last ⟨"code", none⟩))) := by
    have hlast : Path.ofText "code" = .last ⟨"code", none⟩ := Path.ofText_of_last rfl
    have hdoor : Path.ofText "doors[0].code" = .next ⟨"doors", some 0⟩ (.ofText "code") :=
      Path.ofText_of_next rfl
    have hhouse : Path.ofText "house.doors[0].code" =
        .next ⟨"house", none⟩ (.ofText "doors[0].code") := Path.ofText_of_next rfl
    rw [← hlast, ← hdoor, ← hhouse]
    exact Path.ofText_of_next rfl
  have hname : name = .next ⟨"street", none⟩ (.last ⟨"name", none⟩) := by
    have hlast : Path.ofText "name" = .last ⟨"name", none⟩ := Path.ofText_of_last rfl
    rw [← hlast]
    exact Path.ofText_of_next rfl
  have hget : houseSchema.hasGetter type number = .ok true := by rw [hnumber]; decide
  have hset : houseSchema.hasSetter type code = .ok true := by rw [hcode]; decide
  have hnoGet : houseSchema.hasGetter type name = .ok false := by rw [hname]; decide
  have hnoSet : houseSchema.hasSetter type name = .ok false := by rw [hname]; decide
  have hread := Schema.queries_agree houseSchema type "doors[1].number"
  have hspelled := Schema.queries_agree houseSchema type "doors[2].house.doors[0].code"
  have hunspelled := Schema.queries_agree houseSchema type "street.name"
  refine ⟨hread.1.2 (.inl hget), hget, ?_, hread.2.1 hget, ?_, hspelled.1.2 (.inr hset), ?_, hset,
    hspelled.2.2 hset, hnoGet, hnoSet, fun h => ?_⟩
  · rw [hnumber]
    decide
  · rw [hnumber]
    decide
  · rw [hcode]
    decide
  · rcases hunspelled.1.1 h with hget | hset
    · exact nomatch hnoGet.symm.trans hget
    · exact nomatch hnoSet.symm.trans hset

end PropTree
