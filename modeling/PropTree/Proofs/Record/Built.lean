import PropTree.Record.Schema

set_option autoImplicit false

/-!
# The tables of a built record type

The tables are filled alike, so what the fold over the declarations does is shown
once for any of them.
-/

namespace PropTree

namespace Declaration

def getter? : Declaration → Option (Declared Getter)
  | .field name type => some ⟨type, .field name⟩
  | .readOnly name type => some ⟨type, .field name⟩
  | .computed _ type get => some ⟨type, .method get⟩
  | .accessor _ type get _ => some ⟨type, .method get⟩
  | .writeOnly _ _ _ => none

def setter? : Declaration → Option (Declared Setter)
  | .field name type => some ⟨type, .field name⟩
  | .readOnly _ _ => none
  | .computed _ _ _ => none
  | .accessor _ type _ set => some ⟨type, .method set⟩
  | .writeOnly _ type set => some ⟨type, .method set⟩

def default? : Declaration → Option Value
  | .field _ type => some type.default
  | .readOnly _ type => some type.default
  | _ => none

section Parts

variable {α : Type} {part : Declaration → Option α} {declarations : List Declaration}
  {name : String} {a : α}

/-- The part that the last declaration of a name with such a part has. -/
def lastPart (part : Declaration → Option α) (name : String)
    (declarations : List Declaration) : Option α :=
  (declarations.reverse.filter (·.name = name)).findSome? part

theorem lastPart_cons (part : Declaration → Option α) (name : String) (d : Declaration)
    (rest : List Declaration) :
    lastPart part name (d :: rest) =
      (lastPart part name rest).or (if d.name = name then part d else none) := by
  by_cases h : d.name = name <;> simp [lastPart, List.filter_append, List.findSome?_append, h]

theorem exists_of_lastPart (h : lastPart part name declarations = some a) :
    ∃ d ∈ declarations, d.name = name ∧ part d = some a := by
  obtain ⟨d, hd, hpart⟩ := List.exists_of_findSome?_eq_some h
  obtain ⟨hmem, hname⟩ := List.mem_filter.1 hd
  exact ⟨d, List.mem_reverse.1 hmem, of_decide_eq_true hname, hpart⟩

theorem lastPart_eq_some_iff (hd : (declarations.map Declaration.name).Nodup) :
    lastPart part name declarations = some a ↔
      ∃ d ∈ declarations, d.name = name ∧ part d = some a := by
  refine ⟨exists_of_lastPart, ?_⟩
  rintro ⟨d, hmem, rfl, hpart⟩
  induction declarations with
  | nil => nomatch hmem
  | cons first rest ih =>
    obtain ⟨hfresh, hrest⟩ := List.nodup_cons.1 hd
    rw [lastPart_cons]
    rcases List.mem_cons.1 hmem with rfl | hmem
    · have hnone : lastPart part d.name rest = none := by
        refine Option.eq_none_iff_forall_ne_some.2 fun b hb => ?_
        obtain ⟨later, hlater, hname, -⟩ := exists_of_lastPart hb
        exact hfresh (hname ▸ List.mem_map_of_mem hlater)
      rw [hnone, if_pos rfl, hpart, Option.none_or]
    · rw [ih hrest hmem, Option.some_or]

end Parts

end Declaration

namespace RecordType

theorem getters_declare (t : RecordType) (d : Declaration) (name : String) :
    (t.declare d).getters.get? name =
      if name = d.name then d.getter?.or (t.getters.get? name) else t.getters.get? name := by
  by_cases h : name = d.name
  · subst h
    cases d <;> simp [declare, withGetter, withSetter, withDefault, Declaration.name,
      Declaration.getter?]
  · rw [if_neg h]
    cases d <;> simp_all [declare, withGetter, withSetter, withDefault, Declaration.name,
      Assoc.get?_insert_of_ne]

theorem setters_declare (t : RecordType) (d : Declaration) (name : String) :
    (t.declare d).setters.get? name =
      if name = d.name then d.setter?.or (t.setters.get? name) else t.setters.get? name := by
  by_cases h : name = d.name
  · subst h
    cases d <;> simp [declare, withGetter, withSetter, withDefault, Declaration.name,
      Declaration.setter?]
  · rw [if_neg h]
    cases d <;> simp_all [declare, withGetter, withSetter, withDefault, Declaration.name,
      Assoc.get?_insert_of_ne]

theorem defaults_declare (t : RecordType) (d : Declaration) (name : String) :
    (t.declare d).defaults.get? name =
      if name = d.name then d.default?.or (t.defaults.get? name) else t.defaults.get? name := by
  by_cases h : name = d.name
  · subst h
    cases d <;> simp [declare, withGetter, withSetter, withDefault, Declaration.name,
      Declaration.default?]
  · rw [if_neg h]
    cases d <;> simp_all [declare, withGetter, withSetter, withDefault, Declaration.name,
      Assoc.get?_insert_of_ne]

/-- What the fold over the declarations does to any of the tables. -/
theorem look_foldl {α : Type} (look : RecordType → String → Option α)
    {part : Declaration → Option α}
    (hlook : ∀ t d name, look (t.declare d) name =
      if name = d.name then (part d).or (look t name) else look t name)
    (declarations : List Declaration) (t : RecordType) (name : String) :
    look (declarations.foldl declare t) name =
      (Declaration.lastPart part name declarations).or (look t name) := by
  induction declarations generalizing t with
  | nil => rfl
  | cons d rest ih =>
    rw [List.foldl_cons, ih, hlook, Declaration.lastPart_cons, Option.or_assoc]
    by_cases h : d.name = name
    · rw [if_pos h.symm, if_pos h]
    · rw [if_neg (Ne.symm h), if_neg h, Option.none_or]

structure Ordered (t : RecordType) : Prop where
  getters : t.getters.Sorted
  setters : t.setters.Sorted
  defaults : t.defaults.Sorted

theorem Ordered.declare {t : RecordType} (h : t.Ordered) (d : Declaration) :
    (t.declare d).Ordered := by
  obtain ⟨hget, hset, hdefault⟩ := h
  cases d with
  | field name type =>
    exact ⟨Assoc.insert_sorted hget name _, Assoc.insert_sorted hset name _,
      Assoc.insert_sorted hdefault name _⟩
  | readOnly name type =>
    exact ⟨Assoc.insert_sorted hget name _, hset, Assoc.insert_sorted hdefault name _⟩
  | computed name type get => exact ⟨Assoc.insert_sorted hget name _, hset, hdefault⟩
  | accessor name type get set =>
    exact ⟨Assoc.insert_sorted hget name _, Assoc.insert_sorted hset name _, hdefault⟩
  | writeOnly name type set => exact ⟨hget, Assoc.insert_sorted hset name _, hdefault⟩

theorem Ordered.foldl {t : RecordType} (h : t.Ordered) (declarations : List Declaration) :
    (declarations.foldl RecordType.declare t).Ordered := by
  induction declarations generalizing t with
  | nil => exact h
  | cons d rest ih => exact ih (h.declare d)

theorem ordered_build (declarations : List Declaration) : (build declarations).Ordered := by
  have hempty : ({} : RecordType).Ordered := ⟨.nil, .nil, .nil⟩
  obtain ⟨hget, hset, hdefault⟩ := hempty.foldl declarations
  exact ⟨hget, hset, hdefault⟩

theorem getters_build (declarations : List Declaration) (name : String) :
    (build declarations).getters.get? name =
      Declaration.lastPart Declaration.getter? name declarations :=
  (look_foldl (fun t name => t.getters.get? name) getters_declare declarations {} name).trans
    Option.or_none

theorem setters_build (declarations : List Declaration) (name : String) :
    (build declarations).setters.get? name =
      Declaration.lastPart Declaration.setter? name declarations :=
  (look_foldl (fun t name => t.setters.get? name) setters_declare declarations {} name).trans
    Option.or_none

theorem defaults_build (declarations : List Declaration) (name : String) :
    (build declarations).defaults.get? name =
      Declaration.lastPart Declaration.default? name declarations :=
  (look_foldl (fun t name => t.defaults.get? name) defaults_declare declarations {} name).trans
    Option.or_none

variable {declarations : List Declaration} {name : String}

theorem getters_build_eq_some_iff (hd : (declarations.map Declaration.name).Nodup)
    {g : Declared Getter} :
    (build declarations).getters.get? name = some g ↔
      ∃ d ∈ declarations, d.name = name ∧ d.getter? = some g := by
  rw [getters_build, Declaration.lastPart_eq_some_iff hd]

theorem setters_build_eq_some_iff (hd : (declarations.map Declaration.name).Nodup)
    {s : Declared Setter} :
    (build declarations).setters.get? name = some s ↔
      ∃ d ∈ declarations, d.name = name ∧ d.setter? = some s := by
  rw [setters_build, Declaration.lastPart_eq_some_iff hd]

theorem defaults_build_eq_some_iff (hd : (declarations.map Declaration.name).Nodup)
    {v : Value} :
    (build declarations).defaults.get? name = some v ↔
      ∃ d ∈ declarations, d.name = name ∧ d.default? = some v := by
  rw [defaults_build, Declaration.lastPart_eq_some_iff hd]

end RecordType

end PropTree
