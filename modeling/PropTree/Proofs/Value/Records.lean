import PropTree.Proofs.Navigation.Walk
import PropTree.Proofs.Record.Stored
import PropTree.Proofs.Value.Extension

set_option autoImplicit false

/-!
# The records in a value

The child that a step leads to holds no other records than its parent.
-/

namespace PropTree

namespace Value

inductive EveryRecord (P : TypeRef → Prop) : Value → Prop where
  | scalar {v : Value} (h : v.shape? = none) : EveryRecord P v
  | array {items : List Value} (h : ∀ v ∈ items, EveryRecord P v) : EveryRecord P (.array items)
  | map {entries : Assoc Value} (h : ∀ key v, entries.get? key = some v → EveryRecord P v) :
      EveryRecord P (.map entries)
  | record {type : TypeRef} {fields : Fields} (ht : P type)
      (h : ∀ key v, fields.get? key = some v → EveryRecord P v) :
      EveryRecord P (.record type fields)

inductive Holds : Value → Record → Prop where
  | self {type : TypeRef} {fields : Fields} : Holds (.record type fields) ⟨type, fields⟩
  | item {items : List Value} {v : Value} {r : Record} (hv : v ∈ items) (h : Holds v r) :
      Holds (.array items) r
  | entry {entries : Assoc Value} {key : String} {v : Value} {r : Record}
      (hv : entries.get? key = some v) (h : Holds v r) : Holds (.map entries) r
  | field {type : TypeRef} {fields : Fields} {key : String} {v : Value} {r : Record}
      (hv : fields.get? key = some v) (h : Holds v r) : Holds (.record type fields) r

variable {P : TypeRef → Prop} {ctx : Context} {root v : Value} {step : Step} {lookup : Lookup}
  {place : Place} {r : Record}

theorem everyRecord_of_holds (h : ∀ r, v.Holds r → P r.type) : v.EveryRecord P := by
  induction v using parts_induction with
  | scalar v hv => exact .scalar hv
  | array items ih => exact .array fun v hv => ih v hv fun r hr => h r (.item hv hr)
  | map entries ih => exact .map fun key v hv => ih key v hv fun r hr => h r (.entry hv hr)
  | record type fields ih =>
    exact .record (h ⟨type, fields⟩ .self) fun key v hv => ih key v hv fun r hr =>
      h r (.field hv hr)

theorem EveryRecord.part {held : Value} (h : held.EveryRecord P) (hpart : held.part step = .ok v) :
    v.EveryRecord P := by
  unfold Value.part at hpart
  split at hpart
  · exact Except.ok.inj hpart ▸ h
  · obtain ⟨items, rfl, hitem⟩ := element_eq_ok_iff.1 hpart
    cases h with
    | scalar hs => nomatch hs
    | array hitems => exact hitems v (List.mem_of_getElem? hitem)

theorem EveryRecord.peek {entries : Assoc Value} {key : String}
    (h : ∀ key v, entries.get? key = some v → v.EveryRecord P)
    (hpeek : entries.peek ⟨key, step.index⟩ = some v) : v.EveryRecord P := by
  obtain ⟨held, hheld, hpart⟩ := Assoc.peek_eq_some_iff.1 hpeek
  exact (h key held hheld).part hpart

theorem EveryRecord.child (h : root.EveryRecord P)
    (hc : root.child ctx step lookup = .ok (some (.stored place v))) : v.EveryRecord P := by
  cases h with
  | scalar hs =>
    cases root with
    | record _ _ | map _ => nomatch hs
    | _ => nomatch hc
  | array _ => nomatch hc
  | map hentries =>
    obtain ⟨rfl, hpeek⟩ := Mapping.peek_of_child hc
    exact EveryRecord.peek hentries hpeek
  | record _ hfields =>
    obtain ⟨_, _, _, _, rfl, hpeek⟩ := Record.peek_of_child hc
    exact EveryRecord.peek hfields hpeek

theorem Holds.of_part {held : Value} (hpart : held.part step = .ok v) (h : v.Holds r) :
    held.Holds r := by
  unfold Value.part at hpart
  split at hpart
  · exact Except.ok.inj hpart ▸ h
  · obtain ⟨items, rfl, hitem⟩ := element_eq_ok_iff.1 hpart
    exact .item (List.mem_of_getElem? hitem) h

theorem Holds.of_child (hc : root.child ctx step lookup = .ok (some (.stored place v)))
    (h : v.Holds r) : root.Holds r := by
  cases root with
  | record type fields =>
    obtain ⟨_, _, _, _, rfl, hpeek⟩ := Record.peek_of_child hc
    obtain ⟨held, hheld, hpart⟩ := Assoc.peek_eq_some_iff.1 hpeek
    exact .field hheld (.of_part hpart h)
  | map entries =>
    obtain ⟨rfl, hpeek⟩ := Mapping.peek_of_child hc
    obtain ⟨held, hheld, hpart⟩ := Assoc.peek_eq_some_iff.1 hpeek
    exact .entry hheld (.of_part hpart h)
  | _ => nomatch hc

end Value

/-- The getters of records that hold types in `P` alone give nothing else. -/
def Schema.GivesOnly (s : Schema) (P : TypeRef → Prop) : Prop :=
  ∀ type fields name g v, (Value.record type fields).EveryRecord P →
    s.getter type name = .ok g → g.access.invoke ⟨type, fields⟩ = .ok v → v.EveryRecord P

namespace Value

variable {P : TypeRef → Prop} {ctx : Context} {root parent new : Value} {step : Step}
  {lookup : Lookup} {rest : Path} {c : Child}

theorem EveryRecord.child_of_givesOnly (hgiven : ctx.schema.GivesOnly P) (h : root.EveryRecord P)
    (hc : root.child ctx step lookup = .ok (some c)) : c.value.EveryRecord P := by
  cases c with
  | stored place v => exact h.child hc
  | detached v =>
    cases root with
    | record type fields =>
      obtain ⟨g, held, w, hg, hi, hpart, -, hw⟩ := Record.child_eq_some_iff.1 hc
      rw [← hw, Record.childOf_value]
      exact (hgiven type fields step.name g held h hg hi).part hpart
    | map entries =>
      obtain ⟨_, _, _, _, _, hplace⟩ := Mapping.child_eq_some_iff.1 hc
      nomatch hplace
    | _ => nomatch hc

theorem everyRecord_enter (hmade : ∀ d u, ctx.create d = .ok u → u.EveryRecord P)
    (hset : ∀ v root' found, root.set ctx step v = (root', .ok ()) →
      root'.child ctx step .write = .ok (some found) → found.value = v)
    (hfound : ∀ found, root.child ctx step .write = .ok (some found) →
      found.value.EveryRecord P)
    (h : root.enter ctx step rest new = (parent, .ok (some c))) : c.value.EveryRecord P := by
  rcases enter_eq_some h with ⟨-, hchild⟩ | hnew
  · exact hfound c hchild
  · rcases value_of_instantiateChild hset hnew with hvalue | ⟨d, hd⟩
    · rw [hvalue]
      exact .map (by simp)
    · exact hmade d _ hd

end Value

/-! ### New values -/

theorem Value.not_holds_of_scalar {v : Value} (h : v.shape? = none) (r : Record) :
    ¬v.Holds r := by
  intro hr
  cases hr <;> nomatch h

theorem Descriptor.shape?_default (d : Descriptor) : d.default.shape? = none := by
  cases d <;> rfl

theorem RecordType.shape?_of_default {declarations : List Declaration}
    (hd : (declarations.map Declaration.name).Nodup) {name : String} {v : Value}
    (h : (build declarations).defaults.get? name = some v) : v.shape? = none := by
  obtain ⟨d, -, -, hdefault⟩ := (defaults_build_eq_some_iff hd).1 h
  cases d with
  | field _ type | readOnly _ type =>
    obtain rfl := Option.some.inj hdefault
    exact type.shape?_default
  | _ => nomatch hdefault

theorem Schema.newRecord_of_instantiate {s : Schema} {P : Declaration → Prop} (hs : s.Declares P)
    {d : Descriptor} {u : Value} (hu : s.instantiate d = .ok u) {r : Record} (hr : u.Holds r) :
    s.find? r.type.name = some r.type ∧ r = s.newRecord r.type := by
  cases d with
  | record name =>
    cases hfind : s.find? name with
    | none => simp [instantiate, require, hfind, Except.map] at hu
    | some type =>
      obtain rfl : Value.ofRecord (s.newRecord type) = u := by
        simpa [instantiate, require, hfind, Except.map] using hu
      obtain ⟨declarations, hd, -, hbuild⟩ := hs name type hfind
      cases hr with
      | self => exact ⟨(name_of_find? hfind).symm ▸ hfind, rfl⟩
      | field hv hr =>
        change (s.definition type).defaults.get? _ = some _ at hv
        rw [hbuild] at hv
        exact absurd hr (Value.not_holds_of_scalar (RecordType.shape?_of_default hd hv) r)
  | unknown | map _ =>
    obtain rfl := Except.ok.inj hu
    cases hr with
    | entry hv _ => nomatch hv
  | list _ =>
    obtain rfl := Except.ok.inj hu
    cases hr with
    | item hv _ => nomatch hv
  | _ =>
    obtain rfl := Except.ok.inj hu
    nomatch hr

end PropTree
