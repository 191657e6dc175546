import PropTree.Proofs.Assoc
import PropTree.Proofs.Record.Built

set_option autoImplicit false

/-!
# Names declared more than once

A declaration replaces an earlier one of its name only in the parts it has itself.
-/

namespace PropTree

namespace Declaration

def latest : List Declaration → List Declaration
  | [] => []
  | d :: rest => if rest.any (·.name = d.name) then latest rest else d :: latest rest

structure Covers (e d : Declaration) : Prop where
  getter : d.getter?.isSome → e.getter?.isSome
  setter : d.setter?.isSome → e.setter?.isSome
  default : d.default?.isSome → e.default?.isSome

variable {d e : Declaration} {declarations : List Declaration} {name : String}

theorem mem_of_mem_latest (h : e ∈ latest declarations) : e ∈ declarations := by
  induction declarations with
  | nil => nomatch h
  | cons d rest ih =>
    unfold latest at h
    split at h
    · exact List.mem_cons_of_mem d (ih h)
    · rcases List.mem_cons.1 h with rfl | h
      · exact List.mem_cons_self
      · exact List.mem_cons_of_mem d (ih h)

theorem exists_mem_latest (h : d ∈ declarations) :
    ∃ e ∈ latest declarations, e.name = d.name := by
  induction declarations generalizing d with
  | nil => nomatch h
  | cons first rest ih =>
    unfold latest
    split
    · rename_i hagain
      rcases List.mem_cons.1 h with rfl | h
      · obtain ⟨later, hlater, hname⟩ := List.any_eq_true.1 hagain
        obtain ⟨e, he, heq⟩ := ih hlater
        exact ⟨e, he, heq.trans (of_decide_eq_true hname)⟩
      · exact ih h
    · rcases List.mem_cons.1 h with rfl | h
      · exact ⟨d, List.mem_cons_self, rfl⟩
      · obtain ⟨e, he, heq⟩ := ih h
        exact ⟨e, List.mem_cons_of_mem first he, heq⟩

theorem nodup_latest (declarations : List Declaration) :
    ((latest declarations).map Declaration.name).Nodup := by
  induction declarations with
  | nil => exact .nil
  | cons d rest ih =>
    unfold latest
    split
    · exact ih
    · rename_i hlast
      refine List.nodup_cons.2 ⟨fun hmem => hlast ?_, ih⟩
      obtain ⟨e, he, hname⟩ := List.mem_map.1 hmem
      exact List.any_eq_true.2 ⟨e, mem_of_mem_latest he, decide_eq_true hname⟩

section Parts

variable {α : Type} (part : Declaration → Option α)

theorem isSome_lastPart_iff :
    (lastPart part name declarations).isSome = true ↔
      ∃ d ∈ declarations, d.name = name ∧ (part d).isSome = true := by
  simp [lastPart, List.findSome?_isSome_iff, and_assoc]

theorem lastPart_of_mem_latest (he : e ∈ latest declarations) (h : (part e).isSome = true) :
    lastPart part e.name declarations = part e := by
  induction declarations with
  | nil => nomatch he
  | cons d rest ih =>
    rw [lastPart_cons]
    unfold latest at he
    split at he
    · rw [ih he, Option.or_of_isSome h]
    · rename_i hlast
      rcases List.mem_cons.1 he with rfl | he
      · have hnone : lastPart part e.name rest = none := by
          refine Option.not_isSome_iff_eq_none.1 fun hsome => hlast ?_
          obtain ⟨later, hlater, hname, -⟩ := (isSome_lastPart_iff part).1 hsome
          exact List.any_eq_true.2 ⟨later, hlater, decide_eq_true hname⟩
        rw [hnone, if_pos rfl, Option.none_or]
      · rw [ih he, Option.or_of_isSome h]

theorem lastPart_latest (he : e ∈ latest declarations) :
    lastPart part e.name (latest declarations) = part e := by
  refine Option.ext fun a => ?_
  rw [lastPart_eq_some_iff (nodup_latest declarations)]
  constructor
  · rintro ⟨d, hd, hname, hpart⟩
    obtain rfl : d = e := List.inj_on_of_nodup_map (nodup_latest declarations) hd he hname
    exact hpart
  · exact fun hpart => ⟨e, he, rfl, hpart⟩

theorem lastPart_latest_iff :
    (∀ name, lastPart part name declarations = lastPart part name (latest declarations)) ↔
      ∀ d ∈ declarations, ∀ e ∈ latest declarations, e.name = d.name →
        (part d).isSome = true → (part e).isSome = true := by
  constructor
  · intro h d hd e he hname hsome
    rw [← lastPart_latest part he, ← h]
    exact (isSome_lastPart_iff part).2 ⟨d, hd, hname.symm, hsome⟩
  · intro h name
    cases hall : lastPart part name declarations with
    | none =>
      refine (Option.not_isSome_iff_eq_none.1 fun hsome => ?_).symm
      obtain ⟨e, he, hname, hpart⟩ := (isSome_lastPart_iff part).1 hsome
      have hfound := (isSome_lastPart_iff part).2 ⟨e, mem_of_mem_latest he, hname, hpart⟩
      rw [hall] at hfound
      nomatch hfound
    | some a =>
      have hsome : (lastPart part name declarations).isSome = true := by rw [hall, Option.isSome_some]
      obtain ⟨d, hd, rfl, hpart⟩ := (isSome_lastPart_iff part).1 hsome
      obtain ⟨e, he, hname⟩ := exists_mem_latest hd
      rw [← hname] at hall ⊢
      rw [lastPart_latest part he, ← hall]
      exact lastPart_of_mem_latest part he (h d hd e he hname hpart)

end Parts

end Declaration

namespace RecordType

open Declaration

variable {declarations other : List Declaration}

theorem build_eq_iff :
    build declarations = build other ↔
      (∀ name, lastPart getter? name declarations = lastPart getter? name other) ∧
      (∀ name, lastPart setter? name declarations = lastPart setter? name other) ∧
      ∀ name, lastPart default? name declarations = lastPart default? name other := by
  simp only [← getters_build, ← setters_build, ← defaults_build]
  constructor
  · intro h
    rw [h]
    exact ⟨fun _ => rfl, fun _ => rfl, fun _ => rfl⟩
  · rintro ⟨hget, hset, hdefault⟩
    have hleft := ordered_build declarations
    have hright := ordered_build other
    have hgetters := hleft.getters.eq_of_get? hright.getters hget
    have hsetters := hleft.setters.eq_of_get? hright.setters hset
    have hdefaults := hleft.defaults.eq_of_get? hright.defaults hdefault
    unfold build indexNames at hgetters hsetters hdefaults ⊢
    simp only at hgetters hsetters hdefaults
    rw [hgetters, hsetters, hdefaults]

/-- A part of a property is the last one declared under its name, and the last
declarations of the names make the same type exactly if each has all the parts
of those it replaces. -/
theorem build_redeclared (declarations : List Declaration) :
    (∀ name, (build declarations).getters.get? name = lastPart getter? name declarations ∧
      (build declarations).setters.get? name = lastPart setter? name declarations ∧
      (build declarations).defaults.get? name = lastPart default? name declarations) ∧
    (build declarations = build (latest declarations) ↔
      ∀ d ∈ declarations, ∀ e ∈ latest declarations, e.name = d.name → e.Covers d) := by
  refine ⟨fun name => ⟨getters_build _ name, setters_build _ name, defaults_build _ name⟩, ?_⟩
  rw [build_eq_iff, lastPart_latest_iff, lastPart_latest_iff, lastPart_latest_iff]
  constructor
  · rintro ⟨hget, hset, hdefault⟩ d hd e he hname
    exact ⟨hget d hd e he hname, hset d hd e he hname, hdefault d hd e he hname⟩
  · intro h
    exact ⟨fun d hd e he hname => (h d hd e he hname).getter,
      fun d hd e he hname => (h d hd e he hname).setter,
      fun d hd e he hname => (h d hd e he hname).default⟩

end RecordType

def lampProperties : List Declaration :=
  [.field "power" .integer, .computed "power" .integer fun _ => .ok (.integer 60)]

/-- The computed power can still be written, and lamps still store one. -/
theorem build_redeclared_lamp :
    Declaration.latest lampProperties =
        [.computed "power" .integer fun _ => .ok (.integer 60)] ∧
      (RecordType.build lampProperties).hasSetter "power" = true ∧
      (RecordType.build (Declaration.latest lampProperties)).hasSetter "power" = false ∧
      (RecordType.build lampProperties).defaults.contains "power" = true ∧
      (RecordType.build (Declaration.latest lampProperties)).defaults.contains "power" = false ∧
      RecordType.build lampProperties ≠ RecordType.build (Declaration.latest lampProperties) := by
  refine ⟨rfl, rfl, rfl, rfl, rfl, fun hsame => ?_⟩
  have hsetter := congrArg (RecordType.hasSetter · "power") hsame
  cases hsetter

end PropTree
