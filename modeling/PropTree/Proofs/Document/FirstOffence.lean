import PropTree.Proofs.Document.Positions

set_option autoImplicit false

/-!
# The first part that does not fit

One step of the reading says so of a list, of the entries of a mapping and of the
fields of a record; `Offends.below` takes it from a part to its whole.
-/

namespace PropTree

namespace Document

open DocumentStep

variable {s : Schema} {d t element : Descriptor} {path typeName key : String}
  {e : DocumentError} {j part : Document} {a : DocumentStep}

/-! ### Where a reading ends -/

theorem typedItems_eq_error {items : List Document} {i : Nat}
    (h : typedItems s path element i items = .error e) :
    ∃ n part, items[n]? = some part ∧
      typedAt s (itemPath path (i + n)) element part = .error e ∧
      ∀ m < n, ∀ j, items[m]? = some j → ReadAt s element j := by
  induction items generalizing i with
  | nil => nomatch h
  | cons first rest ih =>
    rcases typedItems_cons_eq_error_iff.1 h with hfirst | ⟨v, hv, hrest⟩
    · exact ⟨0, first, rfl, hfirst, nofun⟩
    · obtain ⟨n, part, hpart, hread, hbefore⟩ := ih hrest
      refine ⟨n + 1, part, hpart, ?_, ?_⟩
      · rwa [Nat.add_right_comm i 1 n] at hread
      · rintro (_ | m) hm j hj
        · obtain rfl := Option.some.inj hj
          exact ⟨_, v, hv⟩
        · exact hbefore m (Nat.lt_of_succ_lt_succ hm) j hj

theorem typedEntries_eq_error {entries : List (String × Document)}
    (h : typedEntries s path element entries = .error e) :
    ∃ before key part after, entries = before ++ (key, part) :: after ∧
      typedAt s (joinPath path key) element part = .error e ∧
      ∀ entry ∈ before, ReadAt s element entry.2 := by
  induction entries with
  | nil => nomatch h
  | cons entry rest ih =>
    obtain ⟨key, first⟩ := entry
    rcases typedEntries_cons_eq_error_iff.1 h with hfirst | ⟨v, hv, hrest⟩
    · exact ⟨[], key, first, rest, rfl, hfirst, nofun⟩
    · obtain ⟨before, key', part, after, rfl, hread, hbefore⟩ := ih hrest
      exact ⟨(key, first) :: before, key', part, after, rfl, hread,
        List.forall_mem_cons.2 ⟨⟨_, v, hv⟩, hbefore⟩⟩

theorem typedFields_eq_error {entries : List (String × Document)} {r : Record}
    (h : typedFields s path typeName r entries = .error e) :
    ∃ before key part after, entries = before ++ (key, part) :: after ∧
      EndsAt s path typeName r.type key part e ∧ ∀ entry ∈ before, ReadField s r.type entry := by
  induction entries generalizing r with
  | nil => nomatch h
  | cons entry rest ih =>
    obtain ⟨key, first⟩ := entry
    rcases typedFields_cons_eq_error h with hends | ⟨set, hset, v, hv, fields, hrest⟩
    · exact ⟨[], key, first, rest, rfl, hends, nofun⟩
    · obtain ⟨before, key', part, after, rfl, hends, hbefore⟩ := ih hrest
      exact ⟨(key, first) :: before, key', part, after, rfl, hends,
        List.forall_mem_cons.2 ⟨⟨set, hset, _, v, hv⟩, hbefore⟩⟩

/-! ### A part that does not fit -/

/-- What the error of a reading says about the document: where it points to is the
first part that does not fit, or the first key that means nothing. -/
inductive Offends (s : Schema) (path : String) (d : Descriptor) (j : Document) :
    DocumentError → Prop where
  | mismatch {p : List DocumentStep} {part : Document} {place : String} {expected : Descriptor}
      {found : Kind} (hplace : p.foldl extend path = place) (hpart : j.at? p = some part)
      (htype : s.typeAt? d p = some expected) (hfits : ¬part.Fits s expected)
      (hkind : part.kind = found) (hbefore : FitsBefore s d j p) :
      Offends s path d j (.mismatch place expected found)
  | property {p : List DocumentStep} {key name place : String} {entries : Assoc Document}
      {type : TypeRef} (hplace : (p ++ [DocumentStep.key key]).foldl extend path = place)
      (hpart : j.at? p = some (.object entries)) (hkey : entries.contains key = true)
      (htype : s.typeAt? d p = some (.record name)) (hfind : s.find? name = some type)
      (hset : (s.definition type).relaxedSetter? key = none)
      (hbefore : FitsBefore s d j (p ++ [.key key])) :
      Offends s path d j (.property place (.noSuchProperty name key .setter))
  | decode : Offends s path d j .decode
  | schema (cause : SchemaError) : Offends s path d j (.schema cause)
  | invoke (place : String) (cause : InvokeError) : Offends s path d j (.invoke place cause)

theorem offends_here (hfits : ¬j.Fits s d) : Offends s path d j (.mismatch path d j.kind) :=
  .mismatch (p := []) rfl rfl rfl hfits rfl (fitsBefore_nil s d j)

theorem offends_of_leaf (hleaf : j.isLeaf = true) (h : typedAt s path d j = .error e) :
    Offends s path d j e := by
  by_cases hd : d = .unknown
  · subst hd
    rw [typedAt_unknown] at h
    nomatch h
  · by_cases hnull : j = .null
    · subst hnull
      nomatch h
    · rw [typedAt_leaf hleaf hnull hd] at h
      rcases typedScalar_eq_error h with rfl | rfl
      · exact .decode
      · refine offends_here fun hfits => ?_
        obtain ⟨v, hv⟩ := hfits.typedScalar hleaf hnull hd path
        nomatch hv.symm.trans h

/-! ### From a part to the whole -/

theorem Offends.below (h : Offends s (extend path a) t part e) (hpart : j.child? a = some part)
    (htype : s.childType? d a = some t) (hearlier : ChildrenFitBefore s d j a) :
    Offends s path d j e := by
  cases h with
  | @mismatch p _ _ _ _ hplace hat htypeAt hfits hkind hbefore =>
    exact .mismatch (p := a :: p) hplace (at?_cons_eq_some_iff.2 ⟨part, hpart, hat⟩)
      (Option.bind_eq_some_iff.2 ⟨t, htype, htypeAt⟩) hfits hkind
      (hbefore.below hpart htype hearlier)
  | @property p _ _ _ _ _ hplace hat hkey htypeAt hfind hset hbefore =>
    exact .property (p := a :: p) hplace (at?_cons_eq_some_iff.2 ⟨part, hpart, hat⟩) hkey
      (Option.bind_eq_some_iff.2 ⟨t, htype, htypeAt⟩) hfind hset
      (hbefore.below hpart htype hearlier)
  | decode => exact .decode
  | schema cause => exact .schema cause
  | invoke place cause => exact .invoke place cause

theorem childrenFitBefore_item {items : List Document} {n : Nat}
    (h : ∀ m < n, ∀ j, items[m]? = some j → ReadAt s element j) :
    ChildrenFitBefore s (.list element) (.array items) (.item n) := by
  intro b part hbefore hpart
  cases hbefore with
  | item hlt => exact ⟨element, rfl, (h _ hlt part hpart).fits⟩

theorem childrenFitBefore_key {entries : Assoc Document} (hsorted : entries.Sorted)
    {before after : List (String × Document)}
    (hentries : entries.entries = before ++ (key, part) :: after)
    (h : ∀ entry ∈ before, ∃ t, s.childType? d (.key entry.1) = some t ∧ entry.2.Fits s t) :
    ChildrenFitBefore s d (.object entries) (.key key) := by
  intro b found hbefore hfound
  cases hbefore with
  | @key k _ hlt =>
    have hmem : (k, found) ∈ before ++ (key, part) :: after :=
      hentries ▸ Assoc.mem_of_findEntry hfound
    rcases List.mem_append.1 hmem with hmem | hmem
    · exact h _ hmem
    · rcases List.mem_cons.1 hmem with heq | hmem
      · obtain ⟨rfl, -⟩ := Prod.mk.inj heq
        exact absurd hlt (String.lt_irrefl k)
      · exact absurd hlt (String.lt_asymm (hsorted.lt_of_mem_after hentries hmem))

theorem get?_of_entries {entries : Assoc Document} (hsorted : entries.Sorted)
    {before after : List (String × Document)}
    (hentries : entries.entries = before ++ (key, part) :: after) :
    entries.get? key = some part :=
  hsorted.get?_eq_some_iff.2 (hentries ▸ List.mem_append_right before List.mem_cons_self)

theorem offends_of_typedFields {name : String} {type : TypeRef} {entries : Assoc Document}
    (hsorted : entries.Sorted) (hfind : s.find? name = some type)
    (ih : ∀ entry ∈ entries.entries, ∀ {d path e}, typedAt s path d entry.2 = .error e →
      Offends s path d entry.2 e)
    (h : typedFields s path name (s.newRecord type) entries.entries = .error e) :
    Offends s path (.record name) (.object entries) e := by
  obtain ⟨before, key, part, after, hentries, hends, hbefore⟩ := typedFields_eq_error h
  have hpart := get?_of_entries hsorted hentries
  have hearlier : ChildrenFitBefore s (.record name) (.object entries) (.key key) := by
    refine childrenFitBefore_key hsorted hentries fun entry hentry => ?_
    obtain ⟨set, hset, hread⟩ := hbefore entry hentry
    exact ⟨set.type, Schema.childType?_record_eq_some_iff.2 ⟨type, hfind, set, hset, rfl⟩,
      hread.fits⟩
  cases hends with
  | unknown hnone =>
    exact .property (p := []) rfl rfl (Option.isSome_iff_exists.2 ⟨part, hpart⟩) rfl hfind hnone
      hearlier.fitsBefore
  | part hset hread =>
    have htype := Schema.childType?_record_eq_some_iff.2 ⟨type, hfind, _, hset, rfl⟩
    exact (ih _ (Assoc.mem_of_findEntry hpart) hread).below (a := .key key) hpart htype hearlier
  | invoke cause => exact .invoke _ cause

theorem Ordered.offends (hj : j.Ordered) (h : typedAt s path d j = .error e) :
    Offends s path d j e := by
  induction hj generalizing path d e with
  | leaf hleaf => exact offends_of_leaf hleaf h
  | array _ ih =>
    cases d with
    | unknown => nomatch h
    | list element =>
      obtain ⟨n, part, hpart, hread, hbefore⟩ := typedItems_eq_error (map_eq_error_iff.1 h)
      rw [Nat.zero_add] at hread
      exact (ih part (List.mem_of_getElem? hpart) hread).below (a := .item n) hpart rfl
        (childrenFitBefore_item hbefore)
    | _ =>
      obtain rfl := Except.error.inj h
      exact offends_here nofun
  | object hsorted _ ih =>
    cases d with
    | unknown => nomatch h
    | map element =>
      obtain ⟨before, key, part, after, hentries, hread, hbefore⟩ :=
        typedEntries_eq_error (map_eq_error_iff.1 h)
      have hpart := get?_of_entries hsorted hentries
      refine (ih _ (Assoc.mem_of_findEntry hpart) hread).below (a := .key key) hpart rfl ?_
      exact childrenFitBefore_key hsorted hentries fun entry hentry =>
        ⟨element, rfl, (hbefore entry hentry).fits⟩
    | record name =>
      rcases typedAt_record_eq_error h with ⟨cause, rfl⟩ | ⟨type, hfind, h⟩
      · exact .schema cause
      · exact offends_of_typedFields hsorted hfind ih h
    | _ =>
      obtain rfl := Except.error.inj h
      exact offends_here nofun

/-- A mismatch names the first part of the document that does not fit the type
declared for it, with this type and the kind of the part; an error of a property
names the first key of a record that means nothing to be written. Whatever comes
before and does not contain it fits. -/
theorem toTyped_first_offence (hj : j.Ordered) :
    (∀ {place expected found}, j.toTyped s d = .error (.mismatch place expected found) →
      ∃ p part, render p = place ∧ j.at? p = some part ∧ s.typeAt? d p = some expected ∧
        ¬part.Fits s expected ∧ part.kind = found ∧ FitsBefore s d j p) ∧
    ∀ {place cause}, j.toTyped s d = .error (.property place cause) →
      ∃ p key entries name type, render (p ++ [DocumentStep.key key]) = place ∧
        j.at? p = some (.object entries) ∧ entries.contains key = true ∧
        s.typeAt? d p = some (.record name) ∧ s.find? name = some type ∧
        (s.definition type).relaxedSetter? key = none ∧
        cause = .noSuchProperty name key .setter ∧ FitsBefore s d j (p ++ [.key key]) := by
  constructor
  · intro place expected found h
    cases hj.offends h with
    | @mismatch p part _ _ _ hplace hpart htype hfits hkind hbefore =>
      exact ⟨p, part, foldl_extend p ▸ hplace, hpart, htype, hfits, hkind, hbefore⟩
  · intro place cause h
    cases hj.offends h with
    | @property p key name _ entries type hplace hpart hkey htype hfind hset hbefore =>
      exact ⟨p, key, entries, name, type, foldl_extend _ ▸ hplace, hpart, hkey, htype, hfind,
        hset, rfl, hbefore⟩

theorem toTyped_first_offence_height :
    let friend := Document.object ⟨[("height", .string "tall")]⟩
    let j := Document.object
      ⟨[("FirstName", .string "Ann"), ("friends", .array [.null, friend]),
        ("id", .integer (.ofInt64 1))]⟩
    j.Ordered ∧
      j.toTyped personSchema (.record "Person") =
        .error (.mismatch "friends[1].height" .float .string) ∧
      ∃ p part, render p = "friends[1].height" ∧ j.at? p = some part ∧
        personSchema.typeAt? (.record "Person") p = some .float ∧ ¬part.Fits personSchema .float ∧
        part.kind = .string ∧ FitsBefore personSchema (.record "Person") j p := by
  intro friend j
  have hfriend : friend.Ordered :=
    .object (List.pairwise_singleton _ _) (List.forall_mem_singleton.2 (.leaf rfl))
  have hfriends : (Document.array [.null, friend]).Ordered :=
    .array (List.forall_mem_cons.2 ⟨.leaf rfl, List.forall_mem_singleton.2 hfriend⟩)
  have hj : j.Ordered := by
    refine .object (by unfold Assoc.Sorted; decide) ?_
    exact List.forall_mem_cons.2
      ⟨.leaf rfl, List.forall_mem_cons.2 ⟨hfriends, List.forall_mem_singleton.2 (.leaf rfl)⟩⟩
  have herror : j.toTyped personSchema (.record "Person") =
      .error (.mismatch "friends[1].height" .float .string) := by decide +kernel
  exact ⟨hj, herror, (toTyped_first_offence hj).1 herror⟩

end Document

end PropTree
