import PropTree.Proofs.Document.Typed
import PropTree.Proofs.Text.Base64
import PropTree.Proofs.Value.Conformance
import PropTree.Value.Equality

set_option autoImplicit false

/-!
# Documents that fit a type
-/

namespace PropTree

namespace Document

inductive Fits (s : Schema) : Document → Descriptor → Prop where
  | null {d : Descriptor} : Fits s .null d
  | any {j : Document} : Fits s j .unknown
  | bool (b : Bool) : Fits s (.bool b) .bool
  | integer {n : WideInt} (h : n.val ≤ Int64.maxValue.toInt) : Fits s (.integer n) .integer
  | whole (n : WideInt) : Fits s (.integer n) .float
  | float (x : FiniteFloat) : Fits s (.float x) .float
  | string (text : String) : Fits s (.string text) .string
  | bytes (data : List UInt8) : Fits s (.string (Base64.encode data)) .bytes
  | list {items : List Document} {element : Descriptor} (h : ∀ j ∈ items, Fits s j element) :
      Fits s (.array items) (.list element)
  | map {entries : Assoc Document} {element : Descriptor}
      (h : ∀ entry ∈ entries.entries, Fits s entry.2 element) :
      Fits s (.object entries) (.map element)
  | record {name : String} {type : TypeRef} {entries : Assoc Document}
      (hfind : s.find? name = some type)
      (hset : ∀ entry ∈ entries.entries,
        ((s.definition type).relaxedSetter? entry.1).isSome = true)
      (h : ∀ entry ∈ entries.entries, ∀ set,
        (s.definition type).relaxedSetter? entry.1 = some set → Fits s entry.2 set.type) :
      Fits s (.object entries) (.record name)

@[elab_as_elim]
theorem parts_induction {P : Document → Prop} (j : Document)
    (leaf : ∀ j, j.isLeaf = true → P j)
    (array : ∀ items, (∀ j ∈ items, P j) → P (.array items))
    (object : ∀ entries, (∀ entry ∈ entries.entries, P entry.2) → P (.object entries)) : P j := by
  induction hn : sizeOf j using Nat.strongRecOn generalizing j with
  | _ n ih =>
    subst hn
    cases j with
    | array items =>
      refine array items fun part hpart => ih (sizeOf part) ?_ part rfl
      have hlt := List.sizeOf_lt_of_mem hpart
      simp only [Document.array.sizeOf_spec]
      omega
    | object entries =>
      refine object entries fun entry hentry => ih (sizeOf entry.2) ?_ entry.2 rfl
      obtain ⟨entries⟩ := entries
      obtain ⟨key, part⟩ := entry
      have hlt := List.sizeOf_lt_of_mem hentry
      simp only [Document.object.sizeOf_spec, Assoc.mk.sizeOf_spec, Prod.mk.sizeOf_spec] at hlt ⊢
      omega
    | _ => exact leaf _ rfl

variable {s : Schema} {d element : Descriptor} {path : String} {v : Value}

/-! ### Whatever fits is read -/

def Readable (s : Schema) (d : Descriptor) (j : Document) : Prop :=
  ∀ path, ∃ v, typedAt s path d j = .ok v

theorem typedItems_of_readable {items : List Document} (h : ∀ j ∈ items, Readable s element j)
    (path : String) (i : Nat) : ∃ vs, typedItems s path element i items = .ok vs := by
  induction items generalizing i with
  | nil => exact ⟨[], rfl⟩
  | cons j rest ih =>
    obtain ⟨hj, hrest⟩ := List.forall_mem_cons.1 h
    obtain ⟨v, hv⟩ := hj (itemPath path i)
    obtain ⟨vs, hvs⟩ := ih hrest (i + 1)
    exact ⟨v :: vs, typedItems_cons_eq_ok_iff.2 ⟨v, hv, vs, hvs, rfl⟩⟩

theorem typedEntries_of_readable {entries : List (String × Document)}
    (h : ∀ entry ∈ entries, Readable s element entry.2) (path : String) :
    ∃ vs, typedEntries s path element entries = .ok vs := by
  induction entries with
  | nil => exact ⟨[], rfl⟩
  | cons entry rest ih =>
    obtain ⟨key, j⟩ := entry
    obtain ⟨hj, hrest⟩ := List.forall_mem_cons.1 h
    obtain ⟨v, hv⟩ := hj (joinPath path key)
    obtain ⟨vs, hvs⟩ := ih hrest
    exact ⟨(key, v) :: vs, typedEntries_cons_eq_ok_iff.2 ⟨v, hv, vs, hvs, rfl⟩⟩

theorem typedFields_of_readable {type : TypeRef} (hb : (s.definition type).FieldBacked)
    {entries : List (String × Document)}
    (hset : ∀ entry ∈ entries, ((s.definition type).relaxedSetter? entry.1).isSome = true)
    (h : ∀ entry ∈ entries, ∀ set,
      (s.definition type).relaxedSetter? entry.1 = some set → Readable s set.type entry.2)
    (path typeName : String) (fields : Fields) :
    ∃ r, typedFields s path typeName ⟨type, fields⟩ entries = .ok r := by
  induction entries generalizing fields with
  | nil => exact ⟨_, rfl⟩
  | cons entry rest ih =>
    obtain ⟨key, j⟩ := entry
    obtain ⟨hkey, hkeys⟩ := List.forall_mem_cons.1 hset
    obtain ⟨hj, hrest⟩ := List.forall_mem_cons.1 h
    obtain ⟨set, hfound⟩ := Option.isSome_iff_exists.1 hkey
    obtain ⟨name, hname, hsetter⟩ := RecordType.relaxedSetter?_eq_some_iff.1 hfound
    obtain ⟨v, hv⟩ := hj set hfound (joinPath path key)
    obtain ⟨r, hr⟩ := ih hkeys hrest (fields.insert name v)
    exact ⟨r, (typedFields_cons_eq_ok_iff hb).2 ⟨name, set, hname, hsetter, v, hv, hr⟩⟩

theorem Fits.typedScalar {j : Document} (h : j.Fits s d) (hleaf : j.isLeaf = true)
    (hnull : j ≠ .null) (hd : d ≠ .unknown) (path : String) :
    ∃ v, typedScalar path d j = .ok v := by
  cases h with
  | null => exact absurd rfl hnull
  | any => exact absurd rfl hd
  | bool b => exact ⟨_, rfl⟩
  | @integer n h =>
    exact ⟨.integer (Int64.ofInt n.val), by simp only [Document.typedScalar, valueOfInt, if_pos h]⟩
  | whole n => exact ⟨_, rfl⟩
  | float x => exact ⟨_, rfl⟩
  | string text => exact ⟨_, rfl⟩
  | bytes data =>
    exact ⟨.bytes data, by simp only [Document.typedScalar, Base64.decode_eq_some_iff.2 rfl]⟩
  | list _ | map _ | record _ _ _ => exact absurd hleaf Bool.false_ne_true

theorem Fits.readable (hs : s.Plain) {j : Document} (h : j.Fits s d) : Readable s d j := by
  induction h with
  | null => exact fun path => ⟨.null, rfl⟩
  | any => exact fun path => ⟨_, typedAt_unknown s path _⟩
  | bool b => exact fun path => ⟨.bool b, rfl⟩
  | integer h => exact (Fits.integer (s := s) h).typedScalar rfl nofun nofun
  | whole n => exact fun path => ⟨_, rfl⟩
  | float x => exact fun path => ⟨_, rfl⟩
  | string text => exact fun path => ⟨.string text, rfl⟩
  | bytes data => exact (Fits.bytes (s := s) data).typedScalar rfl nofun nofun
  | list _ ih =>
    intro path
    obtain ⟨vs, hvs⟩ := typedItems_of_readable ih path 0
    exact ⟨.array vs, map_eq_ok_iff.2 ⟨vs, hvs, rfl⟩⟩
  | map _ ih =>
    intro path
    obtain ⟨vs, hvs⟩ := typedEntries_of_readable ih path
    exact ⟨.map ⟨vs⟩, map_eq_ok_iff.2 ⟨vs, hvs, rfl⟩⟩
  | @record name type entries hfind hset _ ih =>
    intro path
    obtain ⟨r, hr⟩ := typedFields_of_readable (hs hfind).toFieldBacked hset ih path name
      (s.definition type).defaults
    exact ⟨.ofRecord r, typedAt_record_eq_ok_iff.2 ⟨type, hfind, r, hr, rfl⟩⟩

/-! ### Whatever is read fits -/

def ReadAt (s : Schema) (d : Descriptor) (j : Document) : Prop :=
  ∃ path v, typedAt s path d j = .ok v

theorem readAt_of_typedItems {items : List Document} {i : Nat} {vs : List Value}
    (h : typedItems s path element i items = .ok vs) : ∀ j ∈ items, ReadAt s element j := by
  induction items generalizing i vs with
  | nil => nofun
  | cons j rest ih =>
    obtain ⟨v, hv, vs', hvs, -⟩ := typedItems_cons_eq_ok_iff.1 h
    exact List.forall_mem_cons.2 ⟨⟨_, v, hv⟩, ih hvs⟩

theorem readAt_of_typedEntries {entries : List (String × Document)} {vs : List (String × Value)}
    (h : typedEntries s path element entries = .ok vs) :
    ∀ entry ∈ entries, ReadAt s element entry.2 := by
  induction entries generalizing vs with
  | nil => nofun
  | cons entry rest ih =>
    obtain ⟨v, hv, vs', hvs, -⟩ := typedEntries_cons_eq_ok_iff.1 h
    exact List.forall_mem_cons.2 ⟨⟨_, v, hv⟩, ih hvs⟩

def ReadField (s : Schema) (type : TypeRef) (entry : String × Document) : Prop :=
  ∃ set, (s.definition type).relaxedSetter? entry.1 = some set ∧ ReadAt s set.type entry.2

theorem readField_of_typedFields {type : TypeRef} {typeName : String} {fields : Fields}
    {entries : List (String × Document)} {r : Record}
    (h : typedFields s path typeName ⟨type, fields⟩ entries = .ok r) :
    ∀ entry ∈ entries, ReadField s type entry := by
  induction entries generalizing fields with
  | nil => nofun
  | cons entry rest ih =>
    obtain ⟨name, set, hname, hset, v, hv, fields, -, hrest⟩ := typedFields_cons_invoke_iff.1 h
    have hfound := RecordType.relaxedSetter?_eq_some_iff.2 ⟨name, hname, hset⟩
    exact List.forall_mem_cons.2 ⟨⟨set, hfound, _, v, hv⟩, ih hrest⟩

theorem fits_of_typedScalar {j : Document} (h : typedScalar path d j = .ok v) :
    j.Fits s d ∧ s.Conforms v d := by
  -- the arms of the reading: bytes, a float from either number, bool, string, integer
  unfold typedScalar at h
  split at h
  · split at h
    · rename_i text data hdata
      obtain rfl := Except.ok.inj h
      obtain rfl := Base64.decode_eq_some_iff.1 hdata
      exact ⟨.bytes data, .scalar rfl rfl⟩
    · nomatch h
  · obtain rfl := Except.ok.inj h
    exact ⟨.whole _, .scalar rfl rfl⟩
  · obtain rfl := Except.ok.inj h
    exact ⟨.float _, .scalar rfl rfl⟩
  · obtain rfl := Except.ok.inj h
    exact ⟨.bool _, .scalar rfl rfl⟩
  · obtain rfl := Except.ok.inj h
    exact ⟨.string _, .scalar rfl rfl⟩
  · split at h
    · rename_i n i hn
      obtain rfl := Except.ok.inj h
      refine ⟨.integer ?_, .scalar rfl rfl⟩
      unfold valueOfInt at hn
      split at hn
      · assumption
      · nomatch hn
    · nomatch h
  · nomatch h

theorem ReadAt.fits {j : Document} (h : ReadAt s d j) : j.Fits s d := by
  -- on the document and not on the type: a record type may contain itself
  induction j using parts_induction generalizing d with
  | leaf j hleaf =>
    obtain ⟨path, v, h⟩ := h
    by_cases hd : d = .unknown
    · exact hd ▸ .any
    · by_cases hnull : j = .null
      · exact hnull ▸ .null
      · rw [typedAt_leaf hleaf hnull hd] at h
        exact (fits_of_typedScalar h).1
  | array items ih =>
    obtain ⟨path, v, h⟩ := h
    cases d with
    | unknown => exact .any
    | list element =>
      obtain ⟨vs, hvs, -⟩ := map_eq_ok_iff.1 h
      exact .list fun j hj => ih j hj (readAt_of_typedItems hvs j hj)
    | _ => nomatch h
  | object entries ih =>
    obtain ⟨path, v, h⟩ := h
    cases d with
    | unknown => exact .any
    | map element =>
      obtain ⟨vs, hvs, -⟩ := map_eq_ok_iff.1 h
      exact .map fun entry hentry => ih entry hentry (readAt_of_typedEntries hvs entry hentry)
    | record name =>
      obtain ⟨type, hfind, r, hr, -⟩ := typedAt_record_eq_ok_iff.1 h
      have hread := readField_of_typedFields hr
      refine .record hfind ?_ ?_
      · intro entry hentry
        obtain ⟨set, hset, -⟩ := hread entry hentry
        exact Option.isSome_iff_exists.2 ⟨set, hset⟩
      · intro entry hentry set hset
        obtain ⟨set', hset', hat⟩ := hread entry hentry
        obtain rfl := Option.some.inj (hset.symm.trans hset')
        exact ih entry hentry hat
    | _ => nomatch h

/-! ### Whatever is read conforms -/

def ReadsConforming (s : Schema) (j : Document) : Prop :=
  ∀ {path d v}, typedAt s path d j = .ok v → s.Conforms v d

theorem conforms_of_typedItems {items : List Document} (h : ∀ j ∈ items, ReadsConforming s j)
    {i : Nat} {vs : List Value} (hread : typedItems s path element i items = .ok vs) :
    ∀ v ∈ vs, s.Conforms v element := by
  induction items generalizing i vs with
  | nil =>
    obtain rfl := Except.ok.inj hread
    exact nofun
  | cons j rest ih =>
    obtain ⟨hj, hrest⟩ := List.forall_mem_cons.1 h
    obtain ⟨v, hv, vs', hvs, rfl⟩ := typedItems_cons_eq_ok_iff.1 hread
    exact List.forall_mem_cons.2 ⟨hj hv, ih hrest hvs⟩

theorem conforms_of_typedEntries {entries : List (String × Document)}
    (h : ∀ entry ∈ entries, ReadsConforming s entry.2) {vs : List (String × Value)}
    (hread : typedEntries s path element entries = .ok vs) :
    ∀ entry ∈ vs, s.Conforms entry.2 element := by
  induction entries generalizing vs with
  | nil =>
    obtain rfl := Except.ok.inj hread
    exact nofun
  | cons entry rest ih =>
    obtain ⟨hj, hrest⟩ := List.forall_mem_cons.1 h
    obtain ⟨v, hv, vs', hvs, rfl⟩ := typedEntries_cons_eq_ok_iff.1 hread
    exact List.forall_mem_cons.2 ⟨hj hv, ih hrest hvs⟩

theorem fieldsFit_of_typedFields {type : TypeRef} (hplain : (s.definition type).Plain)
    {entries : List (String × Document)} (h : ∀ entry ∈ entries, ReadsConforming s entry.2)
    {typeName : String} {fields : Fields} {r : Record}
    (hfields : s.FieldsFit Descriptor.IsUnknown type fields)
    (hread : typedFields s path typeName ⟨type, fields⟩ entries = .ok r) :
    r.type = type ∧ s.FieldsFit Descriptor.IsUnknown type r.fields := by
  induction entries generalizing fields with
  | nil =>
    obtain rfl := Except.ok.inj hread
    exact ⟨rfl, hfields⟩
  | cons entry rest ih =>
    obtain ⟨hj, hrest⟩ := List.forall_mem_cons.1 h
    obtain ⟨name, set, -, hset, v, hv, hread⟩ :=
      (typedFields_cons_eq_ok_iff hplain.toFieldBacked).1 hread
    obtain ⟨g, hg, htype⟩ := hplain.readable hset
    have hstored : s.FieldsFit Descriptor.IsUnknown type (fields.insert name v) :=
      hfields.insert hplain.toFieldBacked hg (htype ▸ hj hv)
    exact ih hrest hstored hread

theorem readsConforming (hs : s.Plain) (j : Document) : ReadsConforming s j := by
  induction j using parts_induction with
  | leaf j hleaf =>
    intro path d v h
    by_cases hd : d = .unknown
    · exact hd ▸ .admitted rfl
    · by_cases hnull : j = .null
      · subst hnull
        obtain rfl := Except.ok.inj h
        exact .null
      · rw [typedAt_leaf hleaf hnull hd] at h
        exact (fits_of_typedScalar h).2
  | array items ih =>
    intro path d v h
    cases d with
    | unknown => exact .admitted rfl
    | list element =>
      obtain ⟨vs, hvs, rfl⟩ := map_eq_ok_iff.1 h
      exact .array (conforms_of_typedItems ih hvs)
    | _ => nomatch h
  | object entries ih =>
    intro path d v h
    cases d with
    | unknown => exact .admitted rfl
    | map element =>
      obtain ⟨vs, hvs, rfl⟩ := map_eq_ok_iff.1 h
      exact .map (Assoc.forall_get? (conforms_of_typedEntries ih hvs))
    | record name =>
      obtain ⟨type, hfind, r, hr, rfl⟩ := typedAt_record_eq_ok_iff.1 h
      obtain ⟨rfl, hfields⟩ :=
        fieldsFit_of_typedFields (hs hfind) ih (Schema.fieldsFit_defaults (hs hfind)) hr
      exact (Schema.fits_record_iff nofun).2 ⟨hfind, hfields⟩
    | _ => nomatch h

/-- A type at which the document is read is one that it fits, and what it reads
as conforms to that type. -/
def ReadsFitting (s : Schema) (j : Document) : Prop :=
  ∀ {path d v}, typedAt s path d j = .ok v → j.Fits s d ∧ s.Conforms v d

theorem readsFitting (hs : s.Plain) (j : Document) : ReadsFitting s j :=
  fun h => ⟨ReadAt.fits ⟨_, _, h⟩, readsConforming hs j h⟩

/-- A document is read as a value of a type exactly if it fits the type, and what
it reads as conforms to it. -/
theorem toTyped_iff_fits (hs : s.Declares fun d => d.isStored = true) (j : Document)
    (d : Descriptor) :
    ((∃ v, j.toTyped s d = .ok v) ↔ j.Fits s d) ∧ ∀ v, j.toTyped s d = .ok v → s.Conforms v d := by
  have hplain : s.Plain := Schema.plain_of_declares hs fun _ h => h
  refine ⟨⟨?_, fun h => h.readable hplain ""⟩, fun v hv => (readsFitting hplain j hv).2⟩
  rintro ⟨v, hv⟩
  exact (readsFitting hplain j hv).1

end Document

def personFields : List Declaration :=
  [.readOnly "id" .integer, .field "first_name" .string, .field "height" .float,
    .field "photo" .bytes, .field "friends" (.list (.record "Person"))]

def personSchema : Schema where
  definition := fun _ => .build personFields
  registered := .ofList [("Person", 0)]

theorem personSchema_declares : personSchema.Declares fun d => d.isStored = true :=
  fun _ _ _ => ⟨personFields, by decide, by decide, rfl⟩

/-- A relaxed key, an integer for a float, base64 for bytes and a record within
a record fit; a property without a setter does not. -/
theorem toTyped_iff_fits_person :
    let friend := Document.object ⟨[("height", .integer (.ofInt64 2))]⟩
    let j := Document.object
      ⟨[("FirstName", .string "Ann"), ("friends", .array [.null, friend]), ("photo", .string "AQI=")]⟩
    let frozen := Document.object ⟨[("id", .integer (.ofInt64 1))]⟩
    let v := Value.record ⟨"Person", 0⟩
      ⟨[("first_name", .string "Ann"),
        ("friends", .array [.null, .record ⟨"Person", 0⟩
          ⟨[("first_name", .string ""), ("friends", .null), ("height", .float (.ofInt 2)),
            ("id", .integer 0), ("photo", .bytes [])]⟩]),
        ("height", .float .zero), ("id", .integer 0), ("photo", .bytes [1, 2])]⟩
    personSchema.Declares (fun d => d.isStored = true) ∧
      j.toTyped personSchema (.record "Person") = .ok v ∧
      j.Fits personSchema (.record "Person") ∧ personSchema.Conforms v (.record "Person") ∧
      ¬frozen.Fits personSchema (.record "Person") := by
  intro friend j frozen v
  have hs := personSchema_declares
  have hj : j.toTyped personSchema (.record "Person") = .ok v := by decide +kernel
  have hfrozen : frozen.toTyped personSchema (.record "Person") =
    .error (.property "id" (.noSuchProperty "Person" "id" .setter)) := by decide +kernel
  obtain ⟨hiff, hconforms⟩ := Document.toTyped_iff_fits hs j (.record "Person")
  refine ⟨hs, hj, hiff.1 ⟨v, hj⟩, hconforms v hj, fun hfits => ?_⟩
  obtain ⟨w, hw⟩ := (Document.toTyped_iff_fits hs frozen (.record "Person")).1.2 hfits
  rw [hfrozen] at hw
  nomatch hw

end PropTree
