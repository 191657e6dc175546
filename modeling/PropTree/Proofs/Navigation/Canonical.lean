import PropTree.Navigation.Declared
import PropTree.Proofs.Path.Grammar
import PropTree.Proofs.Record.Relaxed
import PropTree.Proofs.Text.UpperCase

set_option autoImplicit false

/-!
# Canonical paths

Declared names bring no dot or bracket into the path that a relaxed lookup gives: a
name with one is alike to no name that can stand in a path.
-/

namespace PropTree

/-- A step that can be written in a path: no part of its name ends a piece or
opens an index, and its index is in range. -/
structure Step.Spellable (step : Step) : Prop where
  named : step.name ≠ ""
  noDot : '.' ∉ step.name.toList
  noBracket : '[' ∉ step.name.toList
  bounded : ∀ i, step.index = some i → i < UInt64.size

theorem Piece.spellable {piece : List Char} {step : Step} (h : Piece piece step)
    (hdot : '.' ∉ piece) : step.Spellable := by
  cases h with
  | name nonempty plain =>
    refine ⟨by simpa using nonempty, by simpa using hdot, by simpa using plain, ?_⟩
    intro i hi
    nomatch hi
  | indexed nonempty plain signed some_digit decimal bounded =>
    refine ⟨by simpa using nonempty, ?_, by simpa using plain, ?_⟩
    · rw [String.toList_ofList]
      exact fun hname => hdot (List.mem_append_left _ hname)
    · intro i hi
      obtain rfl := Option.some.inj hi
      exact bounded

theorem Segment.spellable_of_parse {text : String} {s : Segment} (h : parse text = .ok s) :
    s.step.Spellable := by
  obtain ⟨-, -, hstep, hname, -, -⟩ := parse_eq_ok_iff.1 h
  exact (piece_iff.2 ⟨hstep, hname⟩).spellable (mark_not_mem_cutAt '.' text.toList)

theorem RecordType.mem_relaxedForm_iff {c : Char} (hc : UpperCase.Fixed c) (hmark : c ≠ '_')
    {name : String} : c ∈ (relaxedForm name).toList ↔ c ∈ name.toList := by
  simp [relaxedForm, hc.mem_ofText_iff, hmark]

/-! ### Steps as they are spelled -/

namespace Step

theorem not_mem_toDigits {c : Char} (hc : c.isDigit = false) (i : Nat) :
    c ∉ Nat.toDigits 10 i := by
  intro hmem
  have hdigit := Nat.isDigit_of_mem_toDigits (by decide) (by decide) hmem
  rw [hc] at hdigit
  nomatch hdigit

theorem toList_spell_indexed (name : String) (i : Nat) :
    (Schema.spell name (some i)).toList =
      name.toList ++ '[' :: (Nat.toDigits 10 i ++ [']']) := by
  simp [Schema.spell, Nat.toString_eq_repr, Nat.toList_repr]

variable {step : Step}

theorem Spellable.piece (h : step.Spellable) :
    Piece (Schema.spell step.name step.index).toList step := by
  obtain ⟨name, index⟩ := step
  obtain ⟨hnamed, -, hbracket, hbounded⟩ := h
  have hne : name.toList ≠ [] := by simpa using hnamed
  cases index with
  | none =>
    have hpiece := Piece.name hne hbracket
    rwa [String.ofList_toList] at hpiece
  | some i =>
    have hread : Nat.ofDigitChars 10 (Nat.toDigits 10 i) 0 = i := Nat.ofDigitChars_ten_toDigits
    have hpiece := Piece.indexed hne hbracket (.inl rfl) Nat.toDigits_ne_nil
      (fun c hc => Nat.isDigit_of_mem_toDigits (by decide) (by decide) hc)
      (hread.symm ▸ hbounded i rfl)
    rw [String.ofList_toList, hread] at hpiece
    rw [toList_spell_indexed]
    exact hpiece

theorem Spellable.dot_not_mem_spell (h : step.Spellable) :
    '.' ∉ (Schema.spell step.name step.index).toList := by
  obtain ⟨name, index⟩ := step
  cases index with
  | none => exact h.noDot
  | some i =>
    have hdigits := not_mem_toDigits (c := '.') rfl i
    rw [toList_spell_indexed]
    simp [hdigits, h.noDot]

theorem Spellable.ofText_spell (h : step.Spellable) :
    Path.ofText (Schema.spell step.name step.index) = .last step := by
  have hsplit : (Schema.spell step.name step.index).toList.splitOn '.' =
      [(Schema.spell step.name step.index).toList] :=
    List.splitOn_eq_singleton h.dot_not_mem_spell
  have hparse : Segment.parse (Schema.spell step.name step.index) =
      .ok ⟨step, Schema.spell step.name step.index, none⟩ :=
    Segment.parse_eq_ok_iff_splitOn.2
      ⟨_, [], hsplit, nofun, h.piece, String.ofList_toList.symm, rfl⟩
  exact Path.ofText_of_last hparse

theorem Spellable.respelled (h : step.Spellable) {name : String} (hname : name ≠ "")
    (hform : RecordType.relaxedForm name = RecordType.relaxedForm step.name) :
    Spellable ⟨name, step.index⟩ := by
  have hmarks {c : Char} (hc : UpperCase.Fixed c) (hmark : c ≠ '_')
      (hnot : c ∉ step.name.toList) : c ∉ name.toList := by
    rwa [← RecordType.mem_relaxedForm_iff hc hmark, hform,
      RecordType.mem_relaxedForm_iff hc hmark]
  have hdot := hmarks UpperCase.fixed_dot (by decide) h.noDot
  have hbracket := hmarks UpperCase.fixed_bracket (by decide) h.noBracket
  exact ⟨hname, hdot, hbracket, h.bounded⟩

end Step

theorem Path.spellable_of_mem_steps {text : String} {step : Step}
    (h : step ∈ (Path.ofText text).steps.1) : step.Spellable := by
  induction text using ofText.induct with
  | case1 text e hparse =>
    rw [ofText_of_error hparse] at h
    cases h
  | case2 text segment hparse hchildren =>
    obtain ⟨first, name, children⟩ := segment
    subst hchildren
    rw [ofText_of_last hparse] at h
    obtain rfl := List.mem_singleton.1 h
    exact Segment.spellable_of_parse hparse
  | case3 text segment hparse children hchildren ih =>
    obtain ⟨first, name, _⟩ := segment
    subst hchildren
    rw [ofText_of_next hparse] at h
    rcases List.mem_cons.1 h with rfl | h
    · exact Segment.spellable_of_parse hparse
    · exact ih h

namespace RecordType

def Named (t : RecordType) : Prop :=
  ∃ declarations : List Declaration, t = build declarations ∧ ∀ d ∈ declarations, d.name ≠ ""

theorem hasGetter_or_hasSetter_iff {t : RecordType} {name : String} :
    t.hasGetter name = true ∨ t.hasSetter name = true ↔ name ∈ t.getters.keys ++ t.setters.keys := by
  rw [List.mem_append, Assoc.mem_keys_iff, Assoc.mem_keys_iff]
  rfl

theorem Named.canonical {t : RecordType} (ht : t.Named) {key name : String}
    (h : t.findProperty key true = some name) :
    name ≠ "" ∧ relaxedForm name = relaxedForm key ∧
      (t.hasGetter name = true ∨ t.hasSetter name = true) ∧
      ∀ relaxed, t.findProperty name relaxed = some name := by
  obtain ⟨declarations, rfl, hnames⟩ := ht
  obtain ⟨halike, hmem⟩ := alike_of_findProperty h
  obtain ⟨d, hd, rfl⟩ := exists_declaration hmem
  have hdeclared := hasGetter_or_hasSetter_iff.2 hmem
  refine ⟨hnames d hd, halike, hdeclared, fun relaxed => ?_⟩
  cases relaxed with
  | true =>
    change (build declarations).canonical.get? (relaxedForm d.name) = _
    rw [halike]
    exact h
  | false =>
    have heither := Bool.or_eq_true_iff.2 hdeclared
    rw [findProperty, if_neg Bool.false_ne_true, if_pos heither]

end RecordType

namespace Schema

/-- One path goes where another goes, from record type to record type: with the
same indexes, and with names that are declared by the type reached there and
alike to those of the other. -/
inductive Spells (s : Schema) : TypeRef → Path → Path → Prop where
  | last {type : TypeRef} {step : Step} {name : String}
      (declared : (s.definition type).hasGetter name = true ∨
        (s.definition type).hasSetter name = true)
      (alike : RecordType.relaxedForm name = RecordType.relaxedForm step.name) :
      Spells s type (.last step) (.last ⟨name, step.index⟩)
  | next {type below : TypeRef} {step : Step} {name : String} {rest found : Path}
      (declared : (s.definition type).hasGetter name = true ∨
        (s.definition type).hasSetter name = true)
      (alike : RecordType.relaxedForm name = RecordType.relaxedForm step.name)
      (leads : s.propertyType type ⟨name, step.index⟩ = .ok (some below))
      (follows : Spells s below rest found) :
      Spells s type (.next step rest) (.next ⟨name, step.index⟩ found)

variable {s : Schema} {type below : TypeRef} {step : Step} {name c : String} {relaxed : Bool}

theorem find?_of_propertyType (h : s.propertyType type step = .ok (some below)) :
    s.find? below.name = some below := by
  unfold propertyType at h
  cases hstep : s.stepType type step with
  | error e =>
    rw [hstep] at h
    nomatch h
  | ok declared =>
    rw [hstep] at h
    exact (recordOf?_eq_some_iff.1 (Except.ok.inj h)).2

theorem findProperty_next_eq_some_iff {rest : Path} :
    s.findProperty type relaxed (.next step rest) = some c ↔
      ∃ name below found, (s.definition type).findProperty step.name relaxed = some name ∧
        s.propertyType type ⟨name, step.index⟩ = .ok (some below) ∧
        s.findProperty below relaxed rest = some found ∧
        spell name step.index ++ "." ++ found = c := by
  rw [findProperty]
  cases (s.definition type).findProperty step.name relaxed with
  | none => simp
  | some name =>
    rcases hleads : s.propertyType type ⟨name, step.index⟩ with e | _ | below
    · simp [hleads]
    · simp [hleads]
    · simp [hleads, Option.map_eq_some_iff]

theorem spells_of_findProperty
    (hs : ∀ ⦃name below⦄, s.find? name = some below → (s.definition below).Named) {path : Path}
    (hpath : ∀ step ∈ path.steps.1, step.Spellable) (htype : (s.definition type).Named)
    (h : s.findProperty type true path = some c) :
    c ≠ "" ∧ s.Spells type path (.ofText c) ∧
      ∀ relaxed, s.findProperty type relaxed (.ofText c) = some c := by
  induction path generalizing type c with
  | malformed e => nomatch h
  | last step =>
    obtain ⟨name, hname, rfl⟩ := Option.map_eq_some_iff.1 h
    obtain ⟨hne, halike, hdeclared, hself⟩ := htype.canonical hname
    have hspell := (hpath step List.mem_cons_self).respelled hne halike
    have hread : Path.ofText (spell name step.index) = .last ⟨name, step.index⟩ :=
      hspell.ofText_spell
    refine ⟨?_, ?_, fun relaxed => ?_⟩
    · exact Path.ne_empty_of_isWellFormed (hread ▸ rfl)
    · rw [hread]
      exact .last hdeclared halike
    · rw [hread, findProperty, hself relaxed]
      rfl
  | next step rest ih =>
    obtain ⟨name, below, found, hname, hleads, hfound, rfl⟩ := findProperty_next_eq_some_iff.1 h
    obtain ⟨hne, halike, hdeclared, hself⟩ := htype.canonical hname
    obtain ⟨hstep, hrest⟩ := List.forall_mem_cons.1 hpath
    have hspell := hstep.respelled hne halike
    obtain ⟨hnonempty, hspells, hagree⟩ := ih hrest (hs (find?_of_propertyType hleads)) hfound
    have hfirst : Path.ofText (spell name step.index) = .last ⟨name, step.index⟩ :=
      hspell.ofText_spell
    have hread : Path.ofText (spell name step.index ++ "." ++ found) =
        .next ⟨name, step.index⟩ (.ofText found) := by
      rw [Path.ofText_append (hfirst ▸ rfl) hnonempty, hfirst]
      rfl
    refine ⟨?_, ?_, fun relaxed => ?_⟩
    · simp
    · rw [hread]
      exact .next hdeclared halike hleads hspells
    · rw [hread]
      exact findProperty_next_eq_some_iff.2
        ⟨name, below, found, hself relaxed, hleads, hagree relaxed, rfl⟩

/-- Where no declared name is empty, the path that a relaxed lookup gives spells
the one that was looked up, and is found as itself by every lookup. -/
theorem findProperty_canonical (s : Schema)
    (hs : ∀ ⦃name below⦄, s.find? name = some below → (s.definition below).Named)
    {type : TypeRef} (htype : (s.definition type).Named) {path c : String}
    (h : s.findProperty type true (.ofText path) = some c) :
    s.Spells type (.ofText path) (.ofText c) ∧
      s.findProperty type false (.ofText c) = some c ∧
      s.findProperty type true (.ofText c) = some c := by
  have hpath : ∀ step ∈ (Path.ofText path).steps.1, step.Spellable :=
    fun _ => Path.spellable_of_mem_steps
  obtain ⟨-, hspells, hagree⟩ := spells_of_findProperty hs hpath htype h
  exact ⟨hspells, hagree false, hagree true⟩

end Schema

def contactFields : List Declaration :=
  [.field "first_name" .string, .field "FirstName" .string,
    .field "friends" (.list (.record "Contact"))]

def contactSchema : Schema where
  definition := fun _ => .build contactFields
  registered := .ofList [("Contact", 0)]

/-- Of two names alike the canonical path takes the later one, and it writes
the index without its sign and zero. -/
theorem findProperty_canonical_contact :
    let type : TypeRef := ⟨"Contact", 0⟩
    let path := Path.ofText "Friends[+01].FIRSTNAME"
    let canonical := Path.ofText "friends[1].first_name"
    (∀ ⦃name below⦄, contactSchema.find? name = some below →
        (contactSchema.definition below).Named) ∧
      (contactSchema.definition type).Named ∧
      contactSchema.findProperty type true path = some "friends[1].first_name" ∧
      contactSchema.Spells type path canonical ∧
      contactSchema.findProperty type false canonical = some "friends[1].first_name" ∧
      contactSchema.findProperty type true canonical = some "friends[1].first_name" := by
  intro type path canonical
  have hnamed : (RecordType.build contactFields).Named := ⟨contactFields, rfl, by decide⟩
  have hpath : path = .next ⟨"Friends", some 1⟩ (.last ⟨"FIRSTNAME", none⟩) := by
    have hrest : Path.ofText "FIRSTNAME" = .last ⟨"FIRSTNAME", none⟩ := Path.ofText_of_last rfl
    rw [← hrest]
    exact Path.ofText_of_next rfl
  have hfound : contactSchema.findProperty type true path = some "friends[1].first_name" := by
    rw [hpath]
    decide +kernel
  exact ⟨fun _ _ _ => hnamed, hnamed, hfound,
    Schema.findProperty_canonical contactSchema (fun _ _ _ => hnamed) hnamed hfound⟩

end PropTree
