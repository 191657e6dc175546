import PropTree.Proofs.Document.Fitting

set_option autoImplicit false

/-!
# Keys that are declared names

A key means the last declared name with its relaxed form, even if the key is
itself declared.
-/

namespace PropTree

namespace Document

variable {s : Schema} {path typeName : String} {d element : Descriptor} {v : Value}

/-! ### Where a document stands -/

def ReadsAnywhere (s : Schema) (j : Document) : Prop :=
  ∀ {path d v}, typedAt s path d j = .ok v → ∀ path', typedAt s path' d j = .ok v

theorem typedScalar_anywhere {j : Document} (h : typedScalar path d j = .ok v) (path' : String) :
    typedScalar path' d j = .ok v := by
  unfold typedScalar at h ⊢
  split at h
  · exact h
  · exact h
  · exact h
  · exact h
  · exact h
  · split at h
    · exact h
    · nomatch h
  · nomatch h

theorem typedItems_anywhere {items : List Document} (hitems : ∀ j ∈ items, ReadsAnywhere s j)
    {i : Nat} {vs : List Value} (h : typedItems s path element i items = .ok vs)
    (path' : String) : typedItems s path' element i items = .ok vs := by
  induction items generalizing i vs with
  | nil => exact h
  | cons j rest ih =>
    obtain ⟨hj, hrest⟩ := List.forall_mem_cons.1 hitems
    obtain ⟨v, hv, vs', hvs, hcons⟩ := typedItems_cons_eq_ok_iff.1 h
    exact typedItems_cons_eq_ok_iff.2 ⟨v, hj hv _, vs', ih hrest hvs, hcons⟩

theorem typedEntries_anywhere {entries : List (String × Document)}
    (hentries : ∀ entry ∈ entries, ReadsAnywhere s entry.2) {vs : List (String × Value)}
    (h : typedEntries s path element entries = .ok vs) (path' : String) :
    typedEntries s path' element entries = .ok vs := by
  induction entries generalizing vs with
  | nil => exact h
  | cons entry rest ih =>
    obtain ⟨key, j⟩ := entry
    obtain ⟨hj, hrest⟩ := List.forall_mem_cons.1 hentries
    obtain ⟨v, hv, vs', hvs, hcons⟩ := typedEntries_cons_eq_ok_iff.1 h
    exact typedEntries_cons_eq_ok_iff.2 ⟨v, hj hv _, vs', ih hrest hvs, hcons⟩

theorem typedFields_anywhere {entries : List (String × Document)}
    (hentries : ∀ entry ∈ entries, ReadsAnywhere s entry.2) {r r' : Record}
    (h : typedFields s path typeName r entries = .ok r') (path' : String) :
    typedFields s path' typeName r entries = .ok r' := by
  induction entries generalizing r with
  | nil => exact h
  | cons entry rest ih =>
    obtain ⟨key, j⟩ := entry
    obtain ⟨hj, hrest⟩ := List.forall_mem_cons.1 hentries
    obtain ⟨name, set, hname, hset, v, hv, fields, hwrite, h⟩ := typedFields_cons_invoke_iff.1 h
    exact typedFields_cons_invoke_iff.2
      ⟨name, set, hname, hset, v, hj hv _, fields, hwrite, ih hrest h⟩

theorem readsAnywhere (s : Schema) (j : Document) : ReadsAnywhere s j := by
  induction j using parts_induction with
  | leaf j hleaf =>
    intro path d v h path'
    by_cases hd : d = .unknown
    · subst hd
      rwa [typedAt_unknown] at h ⊢
    · by_cases hnull : j = .null
      · subst hnull
        exact h
      · rw [typedAt_leaf hleaf hnull hd] at h ⊢
        exact typedScalar_anywhere h path'
  | array items ih =>
    intro path d v h path'
    cases d with
    | unknown => exact h
    | list element =>
      obtain ⟨vs, hvs, hv⟩ := map_eq_ok_iff.1 h
      exact map_eq_ok_iff.2 ⟨vs, typedItems_anywhere ih hvs path', hv⟩
    | _ => nomatch h
  | object entries ih =>
    intro path d v h path'
    cases d with
    | unknown => exact h
    | map element =>
      obtain ⟨vs, hvs, hv⟩ := map_eq_ok_iff.1 h
      exact map_eq_ok_iff.2 ⟨vs, typedEntries_anywhere ih hvs path', hv⟩
    | record name =>
      obtain ⟨type, hfind, r, hr, hv⟩ := typedAt_record_eq_ok_iff.1 h
      exact typedAt_record_eq_ok_iff.2 ⟨type, hfind, r, typedFields_anywhere ih hr path', hv⟩
    | _ => nomatch h

/-! ### What an object stores -/

theorem typedFields_eq_insertAll {type : TypeRef} (hb : (s.definition type).FieldBacked)
    {stored : String × Document → String × Value} {entries : List (String × Document)}
    (h : ∀ entry ∈ entries, ∃ set,
      (s.definition type).findProperty entry.1 true = some (stored entry).1 ∧
        (s.definition type).setters.get? (stored entry).1 = some set ∧
        entry.2.toTyped s set.type = .ok (stored entry).2)
    (path typeName : String) (fields : Fields) :
    typedFields s path typeName ⟨type, fields⟩ entries =
      .ok ⟨type, fields.insertAll (entries.map stored)⟩ := by
  induction entries generalizing fields with
  | nil => rfl
  | cons entry rest ih =>
    obtain ⟨key, j⟩ := entry
    obtain ⟨⟨set, hname, hset, hread⟩, hrest⟩ := List.forall_mem_cons.1 h
    have hv := readsAnywhere s j hread (joinPath path key)
    exact (typedFields_cons_eq_ok_iff hb).2
      ⟨_, set, hname, hset, _, hv, ih hrest (fields.insert (stored (key, j)).1 (stored (key, j)).2)⟩

section Named

open RecordType

/-- An object whose keys are declared, with values that can be read as what the
last names alike are declared as. -/
structure Named (s : Schema) (declarations : List Declaration) (entries : Assoc Document) :
    Prop where
  sorted : entries.Sorted
  declared : ∀ key j, entries.get? key = some j → ∃ d ∈ declarations, d.name = key
  readable : ∀ key j d, entries.get? key = some j → LastAlike declarations key d →
    ∃ v, j.toTyped s d.type = .ok v

/-- The entry is read as the value of this cell, and the name of the cell is
what its key means. -/
def StoredAs (s : Schema) (declarations : List Declaration) (entry : String × Document)
    (cell : String × Value) : Prop :=
  ∃ d, LastAlike declarations entry.1 d ∧ d.name = cell.1 ∧ entry.2.toTyped s d.type = .ok cell.2

variable {type : TypeRef} {declarations : List Declaration} {entries : Assoc Document}
  {stored : String × Document → String × Value} {fields : Fields}

theorem Named.storedAs (h : Named s declarations entries)
    (hd : (declarations.map Declaration.name).Nodup)
    (hf : ∀ d ∈ declarations, d.isField = true) {entry : String × Document}
    (hentry : entry ∈ entries.entries) : ∃ cell, StoredAs s declarations entry cell := by
  obtain ⟨key, j⟩ := entry
  have hget := h.sorted.get?_eq_some_iff.2 hentry
  obtain ⟨e, he, rfl⟩ := h.declared key j hget
  obtain ⟨d, hlast, -⟩ := exists_lastAlike hd hf ⟨e, he, rfl⟩
  obtain ⟨v, hv⟩ := h.readable _ j d hget hlast
  exact ⟨(d.name, v), d, hlast, rfl, hv⟩

theorem Named.le_of_lastAlike (h : Named s declarations entries) {d : Declaration}
    (hlast : LastAlike declarations d.name d) {key : String}
    (hkey : entries.contains key = true) (hform : relaxedForm key = relaxedForm d.name) :
    key ≤ d.name := by
  obtain ⟨j, hj⟩ := Option.isSome_iff_exists.1 hkey
  obtain ⟨e, he, rfl⟩ := h.declared key j hj
  exact hlast.last e he hform

theorem StoredAs.setter {entry : String × Document} {cell : String × Value}
    (h : StoredAs s declarations entry cell) (hd : (declarations.map Declaration.name).Nodup)
    (hf : ∀ d ∈ declarations, d.isField = true) :
    ∃ set, (build declarations).findProperty entry.1 true = some cell.1 ∧
      (build declarations).setters.get? cell.1 = some set ∧
      entry.2.toTyped s set.type = .ok cell.2 := by
  obtain ⟨d, hlast, hname, hv⟩ := h
  rw [← hname]
  have hfield := hf d hlast.mem
  have hfound := hlast.findProperty hd hf
  cases d with
  | field name type =>
    exact ⟨_, hfound, (setters_build_eq_some_iff hd).2 ⟨_, hlast.mem, rfl, rfl⟩, hv⟩
  | _ => nomatch hfield

theorem StoredAs.lastAlike {entry : String × Document} {cell : String × Value}
    (h : StoredAs s declarations entry cell) (hd : (declarations.map Declaration.name).Nodup)
    {d : Declaration} (hmem : d ∈ declarations) (hcell : cell.1 = d.name) :
    LastAlike declarations entry.1 d := by
  obtain ⟨e, hlast, hname, -⟩ := h
  obtain rfl : e = d := List.inj_on_of_nodup_map hd hlast.mem hmem (hname.trans hcell)
  exact hlast

/-- Of the keys with one relaxed form the greatest is read last. -/
theorem get?_insertAll_of_greatest (hsorted : entries.Sorted)
    (hd : (declarations.map Declaration.name).Nodup)
    (hstored : ∀ entry ∈ entries.entries, StoredAs s declarations entry (stored entry))
    {key : String} {j : Document} (hget : entries.get? key = some j)
    (hgreatest : ∀ other, entries.contains other = true →
      relaxedForm other = relaxedForm key → other ≤ key) :
    ∃ d v, LastAlike declarations key d ∧ j.toTyped s d.type = .ok v ∧
      (fields.insertAll (entries.entries.map stored)).get? d.name = some v := by
  have hmem := hsorted.get?_eq_some_iff.1 hget
  obtain ⟨d, hlast, hname, hv⟩ := hstored _ hmem
  refine ⟨d, (stored (key, j)).2, hlast, hv, ?_⟩
  obtain ⟨before, after, hsplit⟩ := List.append_of_mem hmem
  have hcell : stored (key, j) = (d.name, (stored (key, j)).2) := by rw [hname]
  rw [hsplit, List.map_append, List.map_cons, hcell]
  refine Assoc.get?_insertAll_of_last fun hagain => ?_
  rw [List.map_map] at hagain
  obtain ⟨⟨other, j'⟩, hafter, hsame⟩ := List.mem_map.1 hagain
  have hother : (other, j') ∈ entries.entries := by
    rw [hsplit]
    exact List.mem_append_right _ (List.mem_cons_of_mem _ hafter)
  -- a later entry for the same field has a greater key of the same form
  have hlast' := (hstored _ hother).lastAlike hd hlast.mem hsame
  have hform : relaxedForm other = relaxedForm key := hlast'.alike.symm.trans hlast.alike
  have hle : other ≤ key :=
    hgreatest other (Option.isSome_iff_exists.2 ⟨j', hsorted.get?_eq_some_iff.2 hother⟩) hform
  exact String.not_lt.2 hle (hsorted.lt_of_mem_after hsplit hafter)

theorem get?_insertAll_of_unnamed (hsorted : entries.Sorted)
    (hd : (declarations.map Declaration.name).Nodup)
    (hstored : ∀ entry ∈ entries.entries, StoredAs s declarations entry (stored entry))
    {d : Declaration} (hmem : d ∈ declarations)
    (hunnamed : ∀ key, entries.contains key = true → ¬LastAlike declarations key d) :
    (fields.insertAll (entries.entries.map stored)).get? d.name = fields.get? d.name := by
  refine Assoc.get?_insertAll_of_not_mem fun hwritten => ?_
  rw [List.map_map] at hwritten
  obtain ⟨⟨key, j⟩, hentry, hsame⟩ := List.mem_map.1 hwritten
  have hkey := hsorted.get?_eq_some_iff.2 hentry
  exact hunnamed key (Option.isSome_iff_exists.2 ⟨j, hkey⟩)
    ((hstored _ hentry).lastAlike hd hmem hsame)

/-- Of a type built from fields of distinct names, an object whose keys are
such names is read as the record that holds, in the last field with the relaxed
form of some key, the value of the greatest key with that form, and its default
in every other field. -/
theorem toTyped_named {name : String} (hfind : s.find? name = some type)
    (hbuild : s.definition type = .build declarations)
    (hd : (declarations.map Declaration.name).Nodup)
    (hf : ∀ d ∈ declarations, d.isField = true) (h : Named s declarations entries) :
    ∃ fields, (Document.object entries).toTyped s (.record name) = .ok (.record type fields) ∧
      (∀ j d, entries.get? d.name = some j → LastAlike declarations d.name d →
        ∃ v, j.toTyped s d.type = .ok v ∧ fields.get? d.name = some v) ∧
      (∀ key j, entries.get? key = some j →
        (∀ other, entries.contains other = true →
          relaxedForm other = relaxedForm key → other ≤ key) →
        ∃ d v, LastAlike declarations key d ∧ j.toTyped s d.type = .ok v ∧
          fields.get? d.name = some v) ∧
      ∀ d ∈ declarations,
        (∀ key, entries.contains key = true → ¬LastAlike declarations key d) →
        fields.get? d.name = some d.type.default := by
  have hplain := plain_build hd fun d hmem => Declaration.isStored_of_isField (hf d hmem)
  have hcells : ∀ entry ∈ entries.entries, ∃ cell, StoredAs s declarations entry cell :=
    fun entry hentry => h.storedAs hd hf hentry
  choose! stored hstored using hcells
  have hb : (s.definition type).FieldBacked := hbuild ▸ hplain.toFieldBacked
  have hread : typedFields s "" name (s.newRecord type) entries.entries =
      .ok ⟨type, (build declarations).defaults.insertAll (entries.entries.map stored)⟩ := by
    rw [Schema.newRecord, hbuild]
    refine typedFields_eq_insertAll hb (fun entry hentry => ?_) "" name _
    rw [hbuild]
    exact (hstored entry hentry).setter hd hf
  refine ⟨_, typedAt_record_eq_ok_iff.2 ⟨type, hfind, _, hread, rfl⟩, ?_, ?_, ?_⟩
  · intro j d hget hlast
    obtain ⟨e, v, hlast', hv, hheld⟩ := get?_insertAll_of_greatest h.sorted hd hstored hget
      fun other hother hform => h.le_of_lastAlike hlast hother hform
    obtain rfl := hlast.eq hd hlast' rfl
    exact ⟨v, hv, hheld⟩
  · exact fun key j hget hgreatest =>
      get?_insertAll_of_greatest h.sorted hd hstored hget hgreatest
  · intro d hmem hunnamed
    rw [get?_insertAll_of_unnamed h.sorted hd hstored hmem hunnamed]
    have hfield := hf d hmem
    refine (defaults_build_eq_some_iff hd).2 ⟨d, hmem, rfl, ?_⟩
    cases d with
    | field _ _ => rfl
    | _ => nomatch hfield

end Named

end Document

def loginFields : List Declaration :=
  [.field "user_name" .string, .field "attempts" .integer, .field "username" .string]

def loginSchema : Schema where
  definition := fun _ => .build loginFields
  registered := .ofList [("Login", 0)]

def loginEntries : Assoc Document :=
  ⟨[("attempts", .integer (.ofInt64 3)), ("user_name", .string "ann")]⟩

theorem mem_loginEntries {key : String} {j : Document} (h : loginEntries.get? key = some j) :
    key = "attempts" ∧ j = .integer (.ofInt64 3) ∨ key = "user_name" ∧ j = .string "ann" := by
  simpa [loginEntries] using Assoc.mem_of_findEntry h

theorem nodup_loginFields : (loginFields.map Declaration.name).Nodup := by decide

theorem lastAlike_attempts :
    RecordType.LastAlike loginFields "attempts" (.field "attempts" .integer) :=
  ⟨by simp [loginFields], rfl, by decide +kernel⟩

theorem lastAlike_user_name :
    RecordType.LastAlike loginFields "user_name" (.field "username" .string) :=
  ⟨by simp [loginFields], by decide +kernel, by decide +kernel⟩

theorem named_loginEntries : Document.Named loginSchema loginFields loginEntries where
  sorted := by
    unfold Assoc.Sorted loginEntries
    decide
  declared := by
    intro key j hget
    rcases mem_loginEntries hget with ⟨rfl, -⟩ | ⟨rfl, -⟩
    · exact ⟨.field "attempts" .integer, by simp [loginFields], rfl⟩
    · exact ⟨.field "user_name" .string, by simp [loginFields], rfl⟩
  readable := by
    intro key j d hget hlast
    rcases mem_loginEntries hget with ⟨rfl, rfl⟩ | ⟨rfl, rfl⟩
    · obtain rfl := hlast.eq nodup_loginFields lastAlike_attempts rfl
      exact ⟨.integer 3, rfl⟩
    · obtain rfl := hlast.eq nodup_loginFields lastAlike_user_name rfl
      exact ⟨.string "ann", rfl⟩

theorem toTyped_named_login :
    let type : TypeRef := ⟨"Login", 0⟩
    loginSchema.find? "Login" = some type ∧ loginSchema.definition type = .build loginFields ∧
      (loginFields.map Declaration.name).Nodup ∧ (∀ d ∈ loginFields, d.isField = true) ∧
      Document.Named loginSchema loginFields loginEntries ∧
      ∃ fields : Fields,
        (Document.object loginEntries).toTyped loginSchema (.record "Login") =
            .ok (.record type fields) ∧
          fields.get? "attempts" = some (.integer 3) ∧
          fields.get? "username" = some (.string "ann") ∧
          fields.get? "user_name" = some (.string "") := by
  intro type
  have hfind : loginSchema.find? "Login" = some type := rfl
  have hfields : ∀ d ∈ loginFields, d.isField = true := by decide
  obtain ⟨fields, hread, hself, hkeys, hunnamed⟩ :=
    Document.toTyped_named hfind rfl nodup_loginFields hfields named_loginEntries
  refine ⟨hfind, rfl, nodup_loginFields, hfields, named_loginEntries, fields, hread, ?_, ?_, ?_⟩
  · obtain ⟨v, hv, hheld⟩ := hself _ (.field "attempts" .integer) rfl lastAlike_attempts
    rw [← Except.ok.inj hv] at hheld
    exact hheld
  · have hgreatest : ∀ other, loginEntries.contains other = true →
        RecordType.relaxedForm other = RecordType.relaxedForm "user_name" →
        other ≤ "user_name" := by
      intro other hother _
      obtain ⟨j, hj⟩ := Option.isSome_iff_exists.1 hother
      rcases mem_loginEntries hj with ⟨rfl, -⟩ | ⟨rfl, -⟩ <;> decide
    obtain ⟨d, v, hlast, hv, hheld⟩ := hkeys "user_name" _ rfl hgreatest
    obtain rfl := hlast.eq nodup_loginFields lastAlike_user_name rfl
    rw [← Except.ok.inj hv] at hheld
    exact hheld
  · refine hunnamed (.field "user_name" .string) (by simp [loginFields]) fun key _ hlast => ?_
    have hform := lastAlike_user_name.alike.trans hlast.alike
    exact absurd (hlast.last _ lastAlike_user_name.mem hform) (by decide)

/-- The key `user_name` is declared and its value fits the field of that name,
which keeps its default all the same. -/
theorem toTyped_user_name_elsewhere :
    let type : TypeRef := ⟨"Login", 0⟩
    loginSchema.find? "Login" = some type ∧ loginSchema.definition type = .build loginFields ∧
      (loginFields.map Declaration.name).Nodup ∧ (∀ d ∈ loginFields, d.isField = true) ∧
      (∀ key ∈ loginEntries.keys, key ∈ loginFields.map Declaration.name) ∧
      (Document.integer (.ofInt64 3)).toTyped loginSchema .integer = .ok (.integer 3) ∧
      (Document.string "ann").toTyped loginSchema .string = .ok (.string "ann") ∧
      loginEntries.get? "user_name" = some (.string "ann") ∧
      ∃ fields : Fields,
        (Document.object loginEntries).toTyped loginSchema (.record "Login") =
            .ok (.record type fields) ∧
          fields.get? "user_name" ≠ some (.string "ann") := by
  have hread : (Document.object loginEntries).toTyped loginSchema (.record "Login") =
      .ok (.record ⟨"Login", 0⟩ ⟨[("attempts", .integer 3), ("user_name", .string ""),
        ("username", .string "ann")]⟩) := by decide +kernel
  exact ⟨rfl, rfl, by decide, by decide, by decide, rfl, rfl, rfl, _, hread, by decide⟩

end PropTree
