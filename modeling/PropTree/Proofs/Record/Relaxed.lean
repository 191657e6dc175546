import PropTree.Proofs.Assoc
import PropTree.Proofs.Record.Stored

set_option autoImplicit false

/-!
# Relaxed names
-/

namespace PropTree

namespace RecordType

def relaxedSetter? (t : RecordType) (key : String) : Option (Declared Setter) :=
  (t.findProperty key true).bind t.setters.get?

theorem relaxedSetter?_eq_some_iff {t : RecordType} {key : String} {set : Declared Setter} :
    t.relaxedSetter? key = some set ↔
      ∃ name, t.findProperty key true = some name ∧ t.setters.get? name = some set :=
  Option.bind_eq_some_iff

def Apart (declarations : List Declaration) : Prop :=
  (declarations.map fun d => relaxedForm d.name).Nodup

variable {declarations : List Declaration} {name key other : String} {d e : Declaration}

theorem Apart.nodup (ha : Apart declarations) : (declarations.map Declaration.name).Nodup := by
  refine .of_map relaxedForm ?_
  rw [List.map_map]
  exact ha

theorem Apart.eq_of_relaxedForm (ha : Apart declarations) {d e : Declaration}
    (hd : d ∈ declarations) (he : e ∈ declarations)
    (h : relaxedForm d.name = relaxedForm e.name) : d = e :=
  List.inj_on_of_nodup_map ha hd he h

theorem exists_declaration
    (h : name ∈ (build declarations).getters.keys ++ (build declarations).setters.keys) :
    ∃ d ∈ declarations, d.name = name := by
  rcases List.mem_append.1 h with h | h
  · obtain ⟨g, hg⟩ := Option.isSome_iff_exists.1 (Assoc.mem_keys_iff.1 h)
    rw [getters_build] at hg
    obtain ⟨d, hmem, hname, -⟩ := Declaration.exists_of_lastPart hg
    exact ⟨d, hmem, hname⟩
  · obtain ⟨set, hset⟩ := Option.isSome_iff_exists.1 (Assoc.mem_keys_iff.1 h)
    rw [setters_build] at hset
    obtain ⟨d, hmem, hname, -⟩ := Declaration.exists_of_lastPart hset
    exact ⟨d, hmem, hname⟩

theorem alike_of_findProperty (h : (build declarations).findProperty key true = some name) :
    relaxedForm name = relaxedForm key ∧
      name ∈ (build declarations).getters.keys ++ (build declarations).setters.keys := by
  rcases Assoc.mem_of_get?_insertAll h with hempty | hindexed
  · nomatch hempty
  · obtain ⟨other, hmem, heq⟩ := List.mem_map.1 hindexed
    obtain ⟨hform, rfl⟩ := Prod.mk.inj heq
    exact ⟨hform, hmem⟩

theorem findProperty_self (ha : Apart declarations)
    (h : (build declarations).hasSetter name = true) :
    (build declarations).findProperty name true = some name := by
  have hindexed : name ∈ (build declarations).getters.keys ++ (build declarations).setters.keys :=
    List.mem_append_right _ (Assoc.mem_keys_iff.2 h)
  refine Assoc.get?_insertAll_of_mem (List.mem_map.2 ⟨name, hindexed, rfl⟩) fun other hother => ?_
  obtain ⟨_, hmem, heq⟩ := List.mem_map.1 hother
  obtain ⟨hform, rfl⟩ := Prod.mk.inj heq
  obtain ⟨d, hd, rfl⟩ := exists_declaration hmem
  obtain ⟨e, he, rfl⟩ := exists_declaration hindexed
  rw [ha.eq_of_relaxedForm hd he hform]

/-! ### Names alike -/

/-- Of the declarations whose names have one relaxed form with the key, this
is the one with the greatest name. -/
structure LastAlike (declarations : List Declaration) (key : String) (d : Declaration) : Prop where
  mem : d ∈ declarations
  alike : relaxedForm d.name = relaxedForm key
  last : ∀ e ∈ declarations, relaxedForm e.name = relaxedForm key → e.name ≤ d.name

theorem LastAlike.eq (hd : (declarations.map Declaration.name).Nodup)
    (h : LastAlike declarations key d) (h' : LastAlike declarations other e)
    (hform : relaxedForm key = relaxedForm other) : d = e := by
  have hle : d.name ≤ e.name := h'.last d h.mem (h.alike.trans hform)
  have hge : e.name ≤ d.name := h.last e h'.mem (h'.alike.trans hform.symm)
  exact List.inj_on_of_nodup_map hd h.mem h'.mem (String.le_antisymm hle hge)

theorem findProperty_of_last {before after : List String}
    (hnames : (build declarations).getters.keys ++ (build declarations).setters.keys =
      before ++ name :: after)
    (hform : relaxedForm name = relaxedForm key)
    (hafter : ∀ other ∈ after, relaxedForm other ≠ relaxedForm key) :
    (build declarations).findProperty key true = some name := by
  let index (name : String) : String × String := (relaxedForm name, name)
  change (Assoc.empty.insertAll (((build declarations).getters.keys ++
    (build declarations).setters.keys).map index)).get? (relaxedForm key) = some name
  rw [hnames, List.map_append, List.map_cons, ← hform]
  refine Assoc.get?_insertAll_of_last fun hmem => ?_
  obtain ⟨entry, hentry, hkey⟩ := List.mem_map.1 hmem
  obtain ⟨other, hother, rfl⟩ := List.mem_map.1 hentry
  exact hafter other hother (hkey.trans hform)

theorem mem_keys_setters_build (hd : (declarations.map Declaration.name).Nodup)
    (hf : ∀ d ∈ declarations, d.isField = true) :
    name ∈ (build declarations).setters.keys ↔ ∃ d ∈ declarations, d.name = name := by
  refine ⟨fun h => exists_declaration (List.mem_append_right _ h), ?_⟩
  rintro ⟨d, hmem, rfl⟩
  have hfield := hf d hmem
  refine Assoc.mem_keys_iff.2 (Option.isSome_iff_exists.2 ?_)
  cases d with
  | field name type => exact ⟨_, (setters_build_eq_some_iff hd).2 ⟨_, hmem, rfl, rfl⟩⟩
  | _ => nomatch hfield

theorem exists_last {P : String → Prop} {names : List String} (h : ∃ name ∈ names, P name) :
    ∃ before name after, names = before ++ name :: after ∧ P name ∧ ∀ other ∈ after, ¬P other := by
  induction names with
  | nil =>
    obtain ⟨_, hmem, -⟩ := h
    nomatch hmem
  | cons first rest ih =>
    by_cases hrest : ∃ name ∈ rest, P name
    · obtain ⟨before, name, after, rfl, hname, hafter⟩ := ih hrest
      exact ⟨first :: before, name, after, rfl, hname, hafter⟩
    · obtain ⟨name, hmem, hname⟩ := h
      rcases List.mem_cons.1 hmem with rfl | hmem
      · exact ⟨[], name, rest, rfl, hname, fun other hother hP => hrest ⟨other, hother, hP⟩⟩
      · exact absurd ⟨name, hmem, hname⟩ hrest

/-- Setters are indexed last and in the order of their names, so among fields a
relaxed lookup finds the greatest name with the form. -/
theorem exists_lastAlike (hd : (declarations.map Declaration.name).Nodup)
    (hf : ∀ d ∈ declarations, d.isField = true)
    (h : ∃ d ∈ declarations, relaxedForm d.name = relaxedForm key) :
    ∃ d, LastAlike declarations key d ∧
      (build declarations).findProperty key true = some d.name := by
  have halike : ∃ name ∈ (build declarations).setters.keys, relaxedForm name = relaxedForm key := by
    obtain ⟨d, hmem, hform⟩ := h
    exact ⟨d.name, (mem_keys_setters_build hd hf).2 ⟨d, hmem, rfl⟩, hform⟩
  obtain ⟨before, name, after, hkeys, hform, hafter⟩ := exists_last halike
  have hsorted : (build declarations).setters.keys.Pairwise (· < ·) :=
    List.pairwise_map.2 (ordered_build declarations).setters
  obtain ⟨d, hmem, rfl⟩ := (mem_keys_setters_build hd hf).1 (show name ∈ _ by simp [hkeys])
  refine ⟨d, ⟨hmem, hform, ?_⟩, ?_⟩
  · intro e he heq
    have hdeclared := (mem_keys_setters_build hd hf).2 ⟨e, he, rfl⟩
    rw [hkeys] at hsorted hdeclared
    rcases List.mem_append.1 hdeclared with hbefore | hrest
    · have hlt := (List.pairwise_append.1 hsorted).2.2 _ hbefore _ List.mem_cons_self
      exact String.not_lt.1 (String.lt_asymm hlt)
    · rcases List.mem_cons.1 hrest with hsame | hlater
      · exact hsame ▸ String.le_refl _
      · exact absurd heq (hafter _ hlater)
  · have hnames : (build declarations).getters.keys ++ (build declarations).setters.keys =
        ((build declarations).getters.keys ++ before) ++ d.name :: after := by
      rw [hkeys, List.append_assoc]
    exact findProperty_of_last hnames hform hafter

theorem LastAlike.findProperty (hd : (declarations.map Declaration.name).Nodup)
    (hf : ∀ d ∈ declarations, d.isField = true) (h : LastAlike declarations key d) :
    (build declarations).findProperty key true = some d.name := by
  obtain ⟨e, he, hfound⟩ := exists_lastAlike hd hf ⟨d, h.mem, h.alike⟩
  rw [h.eq hd he rfl, hfound]

/-! ### New records -/

theorem hasGetter_of_default (hd : (declarations.map Declaration.name).Nodup)
    (h : (build declarations).defaults.contains name = true) :
    (build declarations).hasGetter name = true := by
  obtain ⟨v, hv⟩ := Option.isSome_iff_exists.1 h
  obtain ⟨d, hmem, hname, hdefault⟩ := (defaults_build_eq_some_iff hd).1 hv
  cases d with
  | field name type =>
    exact Option.isSome_iff_exists.2 ⟨_, (getters_build_eq_some_iff hd).2 ⟨_, hmem, hname, rfl⟩⟩
  | readOnly name type =>
    exact Option.isSome_iff_exists.2 ⟨_, (getters_build_eq_some_iff hd).2 ⟨_, hmem, hname, rfl⟩⟩
  | _ => nomatch hdefault

end RecordType

namespace Schema

/-- Every registered type is built from declarations of this sort, whose names
differ in more than underscores and letter case. -/
def DeclaresApart (s : Schema) (P : Declaration → Prop) : Prop :=
  ∀ name type, s.find? name = some type →
    ∃ declarations, RecordType.Apart declarations ∧ (∀ d ∈ declarations, P d) ∧
      s.definition type = .build declarations

end Schema

end PropTree
