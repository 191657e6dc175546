import PropTree.Proofs.Record.Built

set_option autoImplicit false

/-!
# Record types of stored fields
-/

namespace PropTree

namespace Declaration

def type : Declaration → Descriptor
  | .field _ type => type
  | .readOnly _ type => type
  | .computed _ type _ => type
  | .accessor _ type _ _ => type
  | .writeOnly _ type _ => type

def isStored : Declaration → Bool
  | .field _ _ => true
  | .readOnly _ _ => true
  | _ => false

def isField : Declaration → Bool
  | .field _ _ => true
  | _ => false

theorem isStored_of_isField {d : Declaration} (h : d.isField = true) : d.isStored = true := by
  cases d <;> first | rfl | nomatch h

end Declaration

namespace RecordType

structure FieldBacked (t : RecordType) : Prop where
  reads : ∀ {name g}, t.getters.get? name = some g → g.access = .field name
  writes : ∀ {name s}, t.setters.get? name = some s → s.access = .field name

structure Plain (t : RecordType) : Prop extends FieldBacked t where
  readable : ∀ {name s}, t.setters.get? name = some s →
    ∃ g, t.getters.get? name = some g ∧ g.type = s.type
  starts : ∀ {name g}, t.getters.get? name = some g → t.defaults.get? name = some g.type.default

variable {declarations : List Declaration}

theorem plain_build (hd : (declarations.map Declaration.name).Nodup)
    (hs : ∀ d ∈ declarations, d.isStored = true) : (build declarations).Plain where
  reads := by
    intro name g hg
    obtain ⟨d, hmem, rfl, hget⟩ := (getters_build_eq_some_iff hd).1 hg
    have hstored := hs d hmem
    cases d with
    | field _ _ | readOnly _ _ => exact Option.some.inj hget ▸ rfl
    | _ => nomatch hstored
  writes := by
    intro name s hs'
    obtain ⟨d, hmem, rfl, hset⟩ := (setters_build_eq_some_iff hd).1 hs'
    have hstored := hs d hmem
    cases d with
    | field _ _ => exact Option.some.inj hset ▸ rfl
    | readOnly _ _ => nomatch hset
    | _ => nomatch hstored
  readable := by
    intro name s hs'
    obtain ⟨d, hmem, rfl, hset⟩ := (setters_build_eq_some_iff hd).1 hs'
    have hstored := hs d hmem
    cases d with
    | field name type =>
      exact ⟨_, (getters_build_eq_some_iff hd).2 ⟨_, hmem, rfl, rfl⟩, Option.some.inj hset ▸ rfl⟩
    | readOnly _ _ => nomatch hset
    | _ => nomatch hstored
  starts := by
    intro name g hg
    obtain ⟨d, hmem, rfl, hget⟩ := (getters_build_eq_some_iff hd).1 hg
    have hstored := hs d hmem
    refine (defaults_build_eq_some_iff hd).2 ⟨d, hmem, rfl, ?_⟩
    cases d with
    | field _ _ | readOnly _ _ => exact Option.some.inj hget ▸ rfl
    | _ => nomatch hstored

theorem writable_build (hd : (declarations.map Declaration.name).Nodup)
    (hf : ∀ d ∈ declarations, d.isField = true) {name : String} {g : Declared Getter}
    (hg : (build declarations).getters.get? name = some g) :
    ∃ s, (build declarations).setters.get? name = some s ∧ s.type = g.type := by
  obtain ⟨d, hmem, rfl, hget⟩ := (getters_build_eq_some_iff hd).1 hg
  have hfield := hf d hmem
  cases d with
  | field name type =>
    exact ⟨_, (setters_build_eq_some_iff hd).2 ⟨_, hmem, rfl, rfl⟩, Option.some.inj hget ▸ rfl⟩
  | _ => nomatch hfield

end RecordType

namespace Schema

/-- Every registered type is built from declarations of this sort, with one
declaration for each name. -/
def Declares (s : Schema) (P : Declaration → Prop) : Prop :=
  ∀ name type, s.find? name = some type →
    ∃ declarations, (declarations.map Declaration.name).Nodup ∧ (∀ d ∈ declarations, P d) ∧
      s.definition type = .build declarations

variable {s : Schema} {name : String} {type : TypeRef}

theorem name_of_find? (h : s.find? name = some type) : type.name = name := by
  obtain ⟨variant, _, rfl⟩ := Option.map_eq_some_iff.1 h
  rfl

theorem recordOf?_eq_some_iff {d : Descriptor} :
    s.recordOf? d = some type ↔ d = .record type.name ∧ s.find? type.name = some type := by
  unfold recordOf?
  cases d with
  | record name =>
    simp only [Descriptor.recordName?, Option.bind_some, Descriptor.record.injEq]
    constructor
    · intro h
      have hname : type.name = name := name_of_find? h
      subst hname
      exact ⟨rfl, h⟩
    · rintro ⟨rfl, h⟩
      exact h
  | _ => simp [Descriptor.recordName?]

def Plain (s : Schema) : Prop :=
  ∀ ⦃name type⦄, s.find? name = some type → (s.definition type).Plain

theorem plain_of_declares {P : Declaration → Prop} (h : s.Declares P)
    (hP : ∀ d, P d → d.isStored = true) : s.Plain := by
  intro name type hfind
  obtain ⟨declarations, hd, hall, hbuild⟩ := h name type hfind
  rw [hbuild]
  exact RecordType.plain_build hd fun d hmem => hP d (hall d hmem)

theorem getter_eq_ok_iff {g : Declared Getter} :
    s.getter type name = .ok g ↔ (s.definition type).getters.get? name = some g := by
  unfold getter
  cases (s.definition type).getters.get? name <;> simp

theorem setter_eq_ok_iff {set : Declared Setter} :
    s.setter type name = .ok set ↔ (s.definition type).setters.get? name = some set := by
  unfold setter
  cases (s.definition type).setters.get? name <;> simp

end Schema

end PropTree
