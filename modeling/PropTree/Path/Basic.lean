import PropTree.Path.Segment

set_option autoImplicit false

/-!
# Property paths as lists of steps

A malformed segment ends the list with its error and the steps before it stay
usable, so a walk that stops earlier never meets the error.
-/

namespace PropTree

inductive Path where
  | malformed (e : PathError)
  | last (step : Step)
  | next (step : Step) (rest : Path)
deriving DecidableEq, Repr

namespace Path

def ofText (text : String) : Path :=
  match _h : Segment.parse text with
  | .error e => .malformed e
  | .ok segment =>
    match _hc : segment.children with
    | none => .last segment.step
    | some children => .next segment.step (ofText children)
termination_by text.length
decreasing_by exact Segment.children_length ‹_› ‹_›

theorem ofText_of_error {text : String} {e : PathError} (h : Segment.parse text = .error e) :
    ofText text = .malformed e := by
  rw [ofText]
  split <;> simp_all

theorem ofText_of_last {text name : String} {step : Step}
    (h : Segment.parse text = .ok ⟨step, name, none⟩) : ofText text = .last step := by
  rw [ofText]
  split
  · simp_all
  · split <;> simp_all

theorem ofText_of_next {text name children : String} {step : Step}
    (h : Segment.parse text = .ok ⟨step, name, some children⟩) :
    ofText text = .next step (ofText children) := by
  rw [ofText]
  split
  · simp_all
  · split <;> simp_all

def headError? : Path → Option PathError
  | .malformed e => some e
  | _ => none

def steps : Path → List Step × Option PathError
  | .malformed e => ([], some e)
  | .last step => ([step], none)
  | .next step rest => (step :: rest.steps.1, rest.steps.2)

def isWellFormed : Path → Bool
  | .malformed _ => false
  | .last _ => true
  | .next _ rest => rest.isWellFormed

/-- The path that continues below the last step of a well-formed one. -/
def append : Path → Path → Path
  | .malformed e, _ => .malformed e
  | .last step, below => .next step below
  | .next step rest, below => .next step (rest.append below)

end Path

def Segment.all (text : String) : List (Except PathError Segment) :=
  match _h : Segment.parse text with
  | .error e => [.error e]
  | .ok segment =>
    match _hc : segment.children with
    | none => [.ok segment]
    | some children => .ok segment :: Segment.all children
termination_by text.length
decreasing_by exact Segment.children_length ‹_› ‹_›

namespace Segment

theorem all_of_error {text : String} {e : PathError} (h : parse text = .error e) :
    all text = [.error e] := by
  rw [all]
  split <;> simp_all

theorem all_of_last {text : String} {s : Segment} (h : parse text = .ok s)
    (hc : s.children = none) : all text = [.ok s] := by
  rw [all]
  split
  · simp_all
  · split <;> simp_all

theorem all_of_next {text children : String} {s : Segment} (h : parse text = .ok s)
    (hc : s.children = some children) : all text = .ok s :: all children := by
  rw [all]
  split
  · simp_all
  · split <;> simp_all

end Segment

end PropTree
