import PropTree.Document.Typed
import PropTree.Proofs.Record.Relaxed

set_option autoImplicit false

/-!
# One step of a typed reading
-/

namespace PropTree

namespace Document

theorem bind_eq_ok_iff {ε α β : Type} {x : Except ε α} {f : α → Except ε β} {b : β} :
    x >>= f = .ok b ↔ ∃ a, x = .ok a ∧ f a = .ok b := by
  cases x <;> simp [bind, Except.bind]

theorem map_eq_ok_iff {ε α β : Type} {x : Except ε α} {f : α → β} {b : β} :
    x.map f = .ok b ↔ ∃ a, x = .ok a ∧ f a = b := by
  cases x <;> simp [Except.map]

theorem bind_eq_error_iff {ε α β : Type} {x : Except ε α} {f : α → Except ε β} {e : ε} :
    x >>= f = .error e ↔ x = .error e ∨ ∃ a, x = .ok a ∧ f a = .error e := by
  cases x <;> simp [bind, Except.bind]

theorem map_eq_error_iff {ε α β : Type} {x : Except ε α} {f : α → β} {e : ε} :
    x.map f = .error e ↔ x = .error e := by
  cases x <;> simp [Except.map]

variable {s : Schema} {path : String}

/-! ### Scalars -/

theorem valueOfInt_ofInt64 (n : Int64) : valueOfInt (.ofInt64 n) = .integer n := by
  have hle : (WideInt.ofInt64 n).val ≤ Int64.maxValue.toInt := n.toInt_le
  rw [valueOfInt, if_pos hle]
  exact congrArg Value.integer (Int64.ofInt_toInt n)

theorem typedAt_unknown (s : Schema) (path : String) (j : Document) :
    typedAt s path .unknown j = .ok j.toValue := by
  cases j <;> rfl

def isLeaf : Document → Bool
  | .array _ => false
  | .object _ => false
  | _ => true

theorem typedAt_leaf {j : Document} {d : Descriptor} (hleaf : j.isLeaf = true) (hnull : j ≠ .null)
    (hd : d ≠ .unknown) : typedAt s path d j = typedScalar path d j := by
  cases j with
  | null => exact absurd rfl hnull
  | array _ | object _ => nomatch hleaf
  | _ => cases d <;> first | rfl | exact absurd rfl hd

theorem typedScalar_eq_error {j : Document} {d : Descriptor} {e : DocumentError}
    (h : typedScalar path d j = .error e) : e = .decode ∨ e = .mismatch path d j.kind := by
  unfold typedScalar at h
  split at h
  · split at h
    · nomatch h
    · exact .inl (Except.error.inj h).symm
  · nomatch h
  · nomatch h
  · nomatch h
  · nomatch h
  · split at h
    · nomatch h
    · exact .inr (Except.error.inj h).symm
  · exact .inr (Except.error.inj h).symm

/-! ### Items and entries -/

theorem typedItems_cons_eq_ok_iff {element : Descriptor} {i : Nat} {j : Document}
    {rest : List Document} {vs : List Value} :
    typedItems s path element i (j :: rest) = .ok vs ↔
      ∃ v, typedAt s (itemPath path i) element j = .ok v ∧
        ∃ vs', typedItems s path element (i + 1) rest = .ok vs' ∧ v :: vs' = vs := by
  rw [typedItems]
  simp only [bind_eq_ok_iff, Except.ok.injEq]

theorem typedEntries_cons_eq_ok_iff {element : Descriptor} {key : String} {j : Document}
    {rest : List (String × Document)} {vs : List (String × Value)} :
    typedEntries s path element ((key, j) :: rest) = .ok vs ↔
      ∃ v, typedAt s (joinPath path key) element j = .ok v ∧
        ∃ vs', typedEntries s path element rest = .ok vs' ∧ (key, v) :: vs' = vs := by
  rw [typedEntries]
  simp only [bind_eq_ok_iff, Except.ok.injEq]

theorem typedItems_cons_eq_error_iff {element : Descriptor} {i : Nat} {j : Document}
    {rest : List Document} {e : DocumentError} :
    typedItems s path element i (j :: rest) = .error e ↔
      typedAt s (itemPath path i) element j = .error e ∨
        ∃ v, typedAt s (itemPath path i) element j = .ok v ∧
          typedItems s path element (i + 1) rest = .error e := by
  rw [typedItems]
  simp only [bind_eq_error_iff, reduceCtorEq, and_false, exists_false, or_false]

theorem typedEntries_cons_eq_error_iff {element : Descriptor} {key : String} {j : Document}
    {rest : List (String × Document)} {e : DocumentError} :
    typedEntries s path element ((key, j) :: rest) = .error e ↔
      typedAt s (joinPath path key) element j = .error e ∨
        ∃ v, typedAt s (joinPath path key) element j = .ok v ∧
          typedEntries s path element rest = .error e := by
  rw [typedEntries]
  simp only [bind_eq_error_iff, reduceCtorEq, and_false, exists_false, or_false]

/-! ### Fields -/

theorem propertyFor_eq_ok_iff {type : TypeRef} {typeName key : String} {set : Declared Setter} :
    propertyFor s type typeName path key = .ok set ↔
      (s.definition type).relaxedSetter? key = some set := by
  unfold propertyFor RecordType.relaxedSetter? Schema.setter
  cases (s.definition type).findProperty key true with
  | none => simp
  | some name => cases h : (s.definition type).setters.get? name <;> simp [h]

theorem propertyFor_eq_error {type : TypeRef} {typeName key : String} {e : DocumentError}
    (h : propertyFor s type typeName path key = .error e) :
    (s.definition type).relaxedSetter? key = none ∧
      e = .property path (.noSuchProperty typeName key .setter) := by
  unfold propertyFor Schema.setter at h
  unfold RecordType.relaxedSetter?
  cases hname : (s.definition type).findProperty key true with
  | none =>
    rw [hname] at h
    exact ⟨rfl, (Except.error.inj h).symm⟩
  | some name =>
    rw [hname] at h
    cases hset : (s.definition type).setters.get? name with
    | none =>
      simp only [hset] at h
      exact ⟨hset, (Except.error.inj h).symm⟩
    | some set =>
      simp only [hset] at h
      nomatch h

theorem typedFields_cons_invoke_iff {r r' : Record} {typeName key : String} {j : Document}
    {rest : List (String × Document)} :
    typedFields s path typeName r ((key, j) :: rest) = .ok r' ↔
      ∃ name set, (s.definition r.type).findProperty key true = some name ∧
        (s.definition r.type).setters.get? name = some set ∧
        ∃ v, typedAt s (joinPath path key) set.type j = .ok v ∧
          ∃ fields, set.access.invoke r v = (fields, .ok ()) ∧
            typedFields s path typeName ⟨r.type, fields⟩ rest = .ok r' := by
  rw [typedFields]
  simp only [bind_eq_ok_iff, propertyFor_eq_ok_iff, RecordType.relaxedSetter?_eq_some_iff]
  constructor
  · rintro ⟨set, ⟨name, hname, hset⟩, v, hv, h⟩
    refine ⟨name, set, hname, hset, v, hv, ?_⟩
    split at h
    · nomatch h
    · rename_i fields hwrite
      exact ⟨fields, hwrite, h⟩
  · rintro ⟨name, set, hname, hset, v, hv, fields, hwrite, h⟩
    refine ⟨set, ⟨name, hname, hset⟩, v, hv, ?_⟩
    rw [hwrite]
    exact h

/-- The ways in which a reading ends at a key: it means no property that can be
written, its part cannot be read, or the setter fails. -/
inductive EndsAt (s : Schema) (path typeName : String) (type : TypeRef) (key : String)
    (part : Document) : DocumentError → Prop where
  | unknown (h : (s.definition type).relaxedSetter? key = none) :
      EndsAt s path typeName type key part
        (.property (joinPath path key) (.noSuchProperty typeName key .setter))
  | part {set : Declared Setter} {e : DocumentError}
      (hset : (s.definition type).relaxedSetter? key = some set)
      (h : typedAt s (joinPath path key) set.type part = .error e) :
      EndsAt s path typeName type key part e
  | invoke (cause : InvokeError) :
      EndsAt s path typeName type key part (.invoke (joinPath path key) cause)

theorem typedFields_cons_eq_error {r : Record} {typeName key : String} {j : Document}
    {rest : List (String × Document)} {e : DocumentError}
    (h : typedFields s path typeName r ((key, j) :: rest) = .error e) :
    EndsAt s path typeName r.type key j e ∨
      ∃ set, (s.definition r.type).relaxedSetter? key = some set ∧
        ∃ v, typedAt s (joinPath path key) set.type j = .ok v ∧
          ∃ fields, typedFields s path typeName ⟨r.type, fields⟩ rest = .error e := by
  rw [typedFields, bind_eq_error_iff] at h
  rcases h with hproperty | ⟨set, hset, h⟩
  · obtain ⟨hnone, rfl⟩ := propertyFor_eq_error hproperty
    exact .inl (.unknown hnone)
  · rw [propertyFor_eq_ok_iff] at hset
    rcases bind_eq_error_iff.1 h with hread | ⟨v, hv, h⟩
    · exact .inl (.part hset hread)
    · split at h
      · obtain rfl := Except.error.inj h
        exact .inl (.invoke _)
      · exact .inr ⟨set, hset, v, hv, _, h⟩

theorem typedFields_cons_eq_ok_iff {type : TypeRef} {fields : Fields} {typeName key : String}
    {j : Document} {rest : List (String × Document)} {r : Record}
    (hb : (s.definition type).FieldBacked) :
    typedFields s path typeName ⟨type, fields⟩ ((key, j) :: rest) = .ok r ↔
      ∃ name set, (s.definition type).findProperty key true = some name ∧
        (s.definition type).setters.get? name = some set ∧
        ∃ v, typedAt s (joinPath path key) set.type j = .ok v ∧
          typedFields s path typeName ⟨type, fields.insert name v⟩ rest = .ok r := by
  rw [typedFields_cons_invoke_iff]
  constructor
  · rintro ⟨name, set, hname, hset, v, hv, stored, hwrite, h⟩
    rw [hb.writes hset] at hwrite
    obtain ⟨rfl, -⟩ := Prod.mk.inj hwrite
    exact ⟨name, set, hname, hset, v, hv, h⟩
  · rintro ⟨name, set, hname, hset, v, hv, h⟩
    refine ⟨name, set, hname, hset, v, hv, fields.insert name v, ?_, h⟩
    rw [hb.writes hset]
    rfl

theorem typedAt_record_eq_ok_iff {name : String} {entries : Assoc Document} {v : Value} :
    typedAt s path (.record name) (.object entries) = .ok v ↔
      ∃ type, s.find? name = some type ∧
        ∃ r, typedFields s path name (s.newRecord type) entries.entries = .ok r ∧
          .ofRecord r = v := by
  obtain ⟨entries⟩ := entries
  rw [typedAt, Schema.require]
  cases s.find? name with
  | none => simp
  | some type => simp [map_eq_ok_iff]

theorem typedAt_record_eq_error {name : String} {entries : Assoc Document} {e : DocumentError}
    (h : typedAt s path (.record name) (.object entries) = .error e) :
    (∃ cause, e = .schema cause) ∨
      ∃ type, s.find? name = some type ∧
        typedFields s path name (s.newRecord type) entries.entries = .error e := by
  obtain ⟨entries⟩ := entries
  rw [typedAt, Schema.require] at h
  cases hfind : s.find? name with
  | none =>
    simp only [hfind] at h
    exact .inl ⟨_, (Except.error.inj h).symm⟩
  | some type =>
    simp only [hfind, map_eq_error_iff] at h
    exact .inr ⟨type, rfl, h⟩

end Document

end PropTree
