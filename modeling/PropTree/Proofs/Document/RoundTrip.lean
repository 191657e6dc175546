import PropTree.Proofs.Document.Typed
import PropTree.Proofs.Text.Base64

set_option autoImplicit false

/-!
# Documents read back
-/

namespace PropTree

/-- A value that a document keeps as it is, without a type to read it at. -/
inductive Value.Untyped : Value → Prop where
  | null : Untyped .null
  | bool (b : Bool) : Untyped (.bool b)
  | integer (n : Int64) : Untyped (.integer n)
  | float {x : Binary64} (h : x.isFinite = true) : Untyped (.float x)
  | string (text : String) : Untyped (.string text)
  | array {items : List Value} (h : ∀ v ∈ items, Untyped v) : Untyped (.array items)
  | map {entries : Assoc Value} (h : ∀ entry ∈ entries.entries, Untyped entry.2) :
      Untyped (.map entries)

inductive Schema.Complete (s : Schema) : Value → Descriptor → Prop where
  | null {d : Descriptor} : Complete s .null d
  | untyped {v : Value} (h : v.Untyped) : Complete s v .unknown
  | bool (b : Bool) : Complete s (.bool b) .bool
  | integer (n : Int64) : Complete s (.integer n) .integer
  | float {x : Binary64} (h : x.isFinite = true) : Complete s (.float x) .float
  | string (text : String) : Complete s (.string text) .string
  | bytes (data : List UInt8) : Complete s (.bytes data) .bytes
  | array {items : List Value} {element : Descriptor} (h : ∀ v ∈ items, Complete s v element) :
      Complete s (.array items) (.list element)
  | map {entries : Assoc Value} {element : Descriptor}
      (h : ∀ entry ∈ entries.entries, Complete s entry.2 element) :
      Complete s (.map entries) (.map element)
  | record {type : TypeRef} {fields : Fields} (hfind : s.find? type.name = some type)
      (hsorted : fields.Sorted)
      (hstored : ∀ name, fields.contains name = true ↔ (s.definition type).hasGetter name = true)
      (h : ∀ entry ∈ fields.entries, ∀ g,
        (s.definition type).getters.get? entry.1 = some g → Complete s entry.2 g.type) :
      Complete s (.record type fields) (.record type.name)

namespace Document

theorem ofBinary64_of_isFinite {x : Binary64} (h : x.isFinite = true) :
    ofBinary64 x = .float ⟨x, h⟩ :=
  dif_pos h

/-! ### Without a type -/

theorem toItems_ofItems {items : List Value} (h : ∀ v ∈ items, (ofValue v).toValue = v) :
    toItems (ofItems items) = items := by
  induction items with
  | nil => rfl
  | cons v rest ih =>
    obtain ⟨hv, hrest⟩ := List.forall_mem_cons.1 h
    rw [ofItems, toItems, hv, ih hrest]

theorem toEntries_ofEntries {entries : List (String × Value)}
    (h : ∀ entry ∈ entries, (ofValue entry.2).toValue = entry.2) :
    toEntries (ofEntries entries) = entries := by
  induction entries with
  | nil => rfl
  | cons entry rest ih =>
    obtain ⟨key, v⟩ := entry
    obtain ⟨hv, hrest⟩ := List.forall_mem_cons.1 h
    rw [ofEntries, toEntries, hv, ih hrest]

theorem toValue_ofValue {v : Value} (h : v.Untyped) : (ofValue v).toValue = v := by
  induction h with
  | null => rfl
  | bool b => rfl
  | integer n => exact valueOfInt_ofInt64 n
  | float h => rw [ofValue, ofBinary64_of_isFinite h, toValue]
  | string text => rfl
  | array _ ih => rw [ofValue, toValue, toItems_ofItems ih]
  | map _ ih => rw [ofValue, toValue, toEntries_ofEntries ih]

/-! ### At a type -/

variable {s : Schema} {d element : Descriptor} {path : String}

/-- The value comes back at a type, wherever its document stands. -/
def ReadsBack (s : Schema) (d : Descriptor) (v : Value) : Prop :=
  ∀ path, typedAt s path d (ofValue v) = .ok v

theorem typedItems_ofItems {items : List Value} (h : ∀ v ∈ items, ReadsBack s element v)
    (path : String) (i : Nat) : typedItems s path element i (ofItems items) = .ok items := by
  induction items generalizing i with
  | nil => rfl
  | cons v rest ih =>
    obtain ⟨hv, hrest⟩ := List.forall_mem_cons.1 h
    exact typedItems_cons_eq_ok_iff.2 ⟨v, hv (itemPath path i), rest, ih hrest (i + 1), rfl⟩

theorem typedEntries_ofEntries {entries : List (String × Value)}
    (h : ∀ entry ∈ entries, ReadsBack s element entry.2) (path : String) :
    typedEntries s path element (ofEntries entries) = .ok entries := by
  induction entries with
  | nil => rfl
  | cons entry rest ih =>
    obtain ⟨key, v⟩ := entry
    obtain ⟨hv, hrest⟩ := List.forall_mem_cons.1 h
    exact typedEntries_cons_eq_ok_iff.2 ⟨v, hv (joinPath path key), rest, ih hrest, rfl⟩

theorem typedFields_ofEntries {type : TypeRef} (hb : (s.definition type).FieldBacked)
    {entries : List (String × Value)}
    (h : ∀ entry ∈ entries, ∃ set, (s.definition type).findProperty entry.1 true = some entry.1 ∧
      (s.definition type).setters.get? entry.1 = some set ∧ ReadsBack s set.type entry.2)
    (path typeName : String) (fields : Fields) :
    typedFields s path typeName ⟨type, fields⟩ (ofEntries entries) =
      .ok ⟨type, fields.insertAll entries⟩ := by
  induction entries generalizing fields with
  | nil => rfl
  | cons entry rest ih =>
    obtain ⟨key, v⟩ := entry
    obtain ⟨⟨set, hname, hset, hv⟩, hrest⟩ := List.forall_mem_cons.1 h
    have hread := hv (joinPath path key)
    exact (typedFields_cons_eq_ok_iff hb).2
      ⟨key, set, hname, hset, v, hread, ih hrest (fields.insert key v)⟩

theorem readsBack_record (hs : s.DeclaresApart fun d => d.isField = true) {type : TypeRef}
    {fields : Fields} (hfind : s.find? type.name = some type) (hsorted : fields.Sorted)
    (hstored : ∀ name, fields.contains name = true ↔ (s.definition type).hasGetter name = true)
    (h : ∀ entry ∈ fields.entries, ∀ g,
      (s.definition type).getters.get? entry.1 = some g → ReadsBack s g.type entry.2) :
    ReadsBack s (.record type.name) (.record type fields) := by
  obtain ⟨declarations, ha, hf, hbuild⟩ := hs type.name type hfind
  have hplain := RecordType.plain_build ha.nodup fun d hd =>
    Declaration.isStored_of_isField (hf d hd)
  rw [← hbuild] at hplain
  have hstarts : (s.definition type).defaults.Sorted := by
    rw [hbuild]
    exact (RecordType.ordered_build declarations).defaults
  -- a new record has no field that the value lacks, so nothing of its defaults is left
  have hover : (s.definition type).defaults.insertAll fields.entries = fields := by
    refine Assoc.insertAll_entries hstarts hsorted fun key hkey => (hstored key).2 ?_
    rw [hbuild] at hkey ⊢
    exact RecordType.hasGetter_of_default ha.nodup hkey
  intro path
  refine typedAt_record_eq_ok_iff.2 ⟨type, hfind, ⟨type, fields⟩, ?_, rfl⟩
  change typedFields s path type.name ⟨type, (s.definition type).defaults⟩
    (ofEntries fields.entries) = _
  rw [typedFields_ofEntries hplain.toFieldBacked ?_, hover]
  intro entry hentry
  have hkey : fields.contains entry.1 = true :=
    Assoc.mem_keys_iff.1 (List.mem_map_of_mem hentry)
  obtain ⟨g, hg⟩ := Option.isSome_iff_exists.1 ((hstored entry.1).1 hkey)
  have hv := h entry hentry g hg
  rw [hbuild] at hg ⊢
  obtain ⟨set, hset, htype⟩ := RecordType.writable_build ha.nodup hf hg
  have hself := RecordType.findProperty_self ha (Option.isSome_iff_exists.2 ⟨set, hset⟩)
  exact ⟨set, hself, hset, htype ▸ hv⟩

theorem readsBack (hs : s.DeclaresApart fun d => d.isField = true) {v : Value}
    (h : s.Complete v d) : ReadsBack s d v := by
  induction h with
  | null => exact fun path => rfl
  | untyped h =>
    intro path
    rw [typedAt_unknown, toValue_ofValue h]
  | bool b => exact fun path => rfl
  | integer n =>
    intro path
    change typedScalar path .integer (.integer (.ofInt64 n)) = _
    simp only [typedScalar, valueOfInt_ofInt64]
  | float h =>
    intro path
    rw [ofValue, ofBinary64_of_isFinite h]
    rfl
  | string text => exact fun path => rfl
  | bytes data =>
    intro path
    change typedScalar path .bytes (.string (Base64.encode data)) = _
    simp only [typedScalar, Base64.decode_eq_some_iff.2 rfl]
  | array _ ih =>
    intro path
    exact map_eq_ok_iff.2 ⟨_, typedItems_ofItems ih path 0, rfl⟩
  | map _ ih =>
    intro path
    exact map_eq_ok_iff.2 ⟨_, typedEntries_ofEntries ih path, rfl⟩
  | record hfind hsorted hstored _ ih => exact readsBack_record hs hfind hsorted hstored ih

/-- A complete value of a type that is written as a document is read back at
the type. -/
theorem toTyped_ofValue (hs : s.DeclaresApart fun d => d.isField = true) {v : Value}
    (h : s.Complete v d) : (ofValue v).toTyped s d = .ok v :=
  readsBack hs h ""

end Document

def treeFields : List Declaration :=
  [.field "raw_data" .bytes, .field "weights" (.map (.list .float)), .field "note" .unknown,
    .field "left" (.record "Tree")]

def treeSchema : Schema where
  definition := fun _ => .build treeFields
  registered := .ofList [("Tree", 0)]

theorem treeSchema_declaresApart : treeSchema.DeclaresApart fun d => d.isField = true := by
  have ha : RecordType.Apart treeFields := by
    unfold RecordType.Apart
    decide +kernel
  exact fun _ _ _ => ⟨treeFields, ha, by decide, rfl⟩

def tree (left note data weights : Value) : Value :=
  .record ⟨"Tree", 0⟩
    ⟨[("left", left), ("note", note), ("raw_data", data), ("weights", weights)]⟩

theorem complete_tree {left note data weights : Value}
    (hleft : treeSchema.Complete left (.record "Tree")) (hnote : treeSchema.Complete note .unknown)
    (hdata : treeSchema.Complete data .bytes)
    (hweights : treeSchema.Complete weights (.map (.list .float))) :
    treeSchema.Complete (tree left note data weights) (.record "Tree") := by
  have hkeys : (RecordType.build treeFields).getters.keys =
    ["left", "note", "raw_data", "weights"] := by decide
  have hsorted : ["left", "note", "raw_data", "weights"].Pairwise (· < ·) := by decide
  unfold tree
  refine .record rfl (List.pairwise_map.1 hsorted) (fun name => ?_) fun entry hentry g hg => ?_
  · rw [RecordType.hasGetter, ← Assoc.mem_keys_iff, ← Assoc.mem_keys_iff]
    change _ ↔ name ∈ (RecordType.build treeFields).getters.keys
    rw [hkeys]
    rfl
  · simp only [List.mem_cons, List.not_mem_nil, or_false] at hentry
    rcases hentry with rfl | rfl | rfl | rfl
    · exact Option.some.inj hg ▸ hleft
    · exact Option.some.inj hg ▸ hnote
    · exact Option.some.inj hg ▸ hdata
    · exact Option.some.inj hg ▸ hweights

theorem toTyped_ofValue_tree :
    let leaf := tree .null .null (.bytes []) .null
    let note := Value.map ⟨[("k", .array [.integer 1, .null])]⟩
    let weights := Value.map ⟨[("w", .array [.float ⟨0x8000000000000000⟩, .null])]⟩
    let root := tree leaf note (.bytes [0, 255]) weights
    treeSchema.DeclaresApart (fun d => d.isField = true) ∧
      treeSchema.Complete root (.record "Tree") ∧
      (Document.ofValue root).toTyped treeSchema (.record "Tree") = .ok root := by
  intro leaf note weights root
  have hs := treeSchema_declaresApart
  have hleaf : treeSchema.Complete leaf (.record "Tree") :=
    complete_tree .null .null (.bytes []) .null
  have hnote : note.Untyped :=
    .map (List.forall_mem_singleton.2 (.array (List.forall_mem_cons.2
      ⟨.integer 1, List.forall_mem_singleton.2 .null⟩)))
  have hweights : treeSchema.Complete weights (.map (.list .float)) :=
    .map (List.forall_mem_singleton.2 (.array (List.forall_mem_cons.2
      ⟨.float (by decide), List.forall_mem_singleton.2 .null⟩)))
  have hroot : treeSchema.Complete root (.record "Tree") :=
    complete_tree hleaf (.untyped hnote) (.bytes [0, 255]) hweights
  exact ⟨hs, hroot, Document.toTyped_ofValue hs hroot⟩

end PropTree
