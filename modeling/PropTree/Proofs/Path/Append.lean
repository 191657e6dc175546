import PropTree.Path.Basic

set_option autoImplicit false

namespace PropTree

/-- A text with a mark behind it is cut where it was cut before or, if it had
no mark of its own, at the new one. -/
theorem cutAt_append_mark (mark : Char) (cs after : List Char) :
    cutAt mark (cs ++ mark :: after) =
      ((cutAt mark cs).1, some ((cutAt mark cs).2.elim after (· ++ mark :: after))) := by
  induction cs with
  | nil => simp [cutAt]
  | cons c cs ih =>
    by_cases hc : c = mark
    · simp [cutAt, hc]
    · simp only [List.cons_append, cutAt, if_neg hc, ih]

namespace Segment

theorem parse_eq_ok_iff {path : String} {s : Segment} :
    parse path = .ok s ↔
      path.isEmpty = false ∧ (cutAt '.' path.toList).2 ≠ some [] ∧
        Step.parse (cutAt '.' path.toList).1 = .ok s.step ∧ s.step.name.isEmpty = false ∧
        s.indexedName = String.ofList (cutAt '.' path.toList).1 ∧
        s.children = (cutAt '.' path.toList).2.map String.ofList := by
  obtain ⟨step, indexedName, children⟩ := s
  unfold parse
  dsimp only
  cases path.isEmpty with
  | true => simp
  | false =>
    by_cases hdot : (cutAt '.' path.toList).2 = some []
    · simp [hdot]
    · cases Step.parse (cutAt '.' path.toList).1 with
      | error e => simp [hdot]
      | ok found =>
        simp only [hdot]
        grind

/-- The first segment of a longer path is that of its first part, and what is
left of the first part goes before the rest. -/
theorem parse_append {path below : String} {s : Segment} (h : parse path = .ok s)
    (hbelow : below ≠ "") :
    parse (path ++ "." ++ below) =
      .ok { s with children := some (s.children.elim below (· ++ "." ++ below)) } := by
  obtain ⟨_, hdot, hstep, hname, htext, hchildren⟩ := parse_eq_ok_iff.1 h
  have hlist : (path ++ "." ++ below).toList = path.toList ++ '.' :: below.toList := by simp
  have hne : below.toList ≠ [] := by simpa using hbelow
  rw [parse_eq_ok_iff, hlist, cutAt_append_mark]
  refine ⟨?_, ?_, hstep, hname, htext, ?_⟩
  · simp [← String.toList_eq_nil_iff]
  · cases hcut : (cutAt '.' path.toList).2 <;> simp [hne]
  · rw [hchildren]
    cases (cutAt '.' path.toList).2 <;> simp [String.ext_iff]

end Segment

namespace Path

theorem ne_empty_of_isWellFormed {text : String} (h : (ofText text).isWellFormed = true) :
    text ≠ "" := by
  rintro rfl
  have hempty : ofText "" = .malformed .empty := ofText_of_error rfl
  rw [hempty] at h
  nomatch h

theorem ofText_append {text below : String} (h : (ofText text).isWellFormed = true)
    (hbelow : below ≠ "") :
    ofText (text ++ "." ++ below) = (ofText text).append (ofText below) := by
  -- the segments of the first part are read one after the other
  induction text using ofText.induct with
  | case1 text e hparse =>
    rw [ofText_of_error hparse] at h
    nomatch h
  | case2 text segment hparse hchildren =>
    have hjoined := Segment.parse_append hparse hbelow
    obtain ⟨step, name, children⟩ := segment
    subst hchildren
    rw [ofText_of_last hparse, ofText_of_next hjoined]
    rfl
  | case3 text segment hparse children hchildren ih =>
    have hjoined := Segment.parse_append hparse hbelow
    obtain ⟨step, name, _⟩ := segment
    subst hchildren
    rw [ofText_of_next hparse] at h ⊢
    rw [ofText_of_next hjoined]
    exact congrArg (Path.next step) (ih h)

theorem append_assoc (path below rest : Path) :
    (path.append below).append rest = path.append (below.append rest) := by
  induction path with
  | malformed e => rfl
  | last step => rfl
  | next step tail ih => exact congrArg (Path.next step) ih

end Path

end PropTree
