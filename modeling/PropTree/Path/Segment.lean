set_option autoImplicit false

/-!
# Segments of a property path
-/

namespace PropTree

inductive PathError where
  | empty
  | emptyName (path : String)
  | unclosedIndex (segment : String)
  | invalidIndex (segment index : String)
  | trailingCharacters (segment : String)
deriving DecidableEq, Repr

def PathError.message : PathError → String
  | .empty => "empty property path"
  | .emptyName path => "empty property name in path '" ++ path ++ "'"
  | .unclosedIndex segment => "unclosed index in segment '" ++ segment ++ "'"
  | .invalidIndex segment index =>
    "invalid index '" ++ index ++ "' in segment '" ++ segment ++ "'"
  | .trailingCharacters segment =>
    "unexpected characters after index in segment '" ++ segment ++ "'"

structure Step where
  name : String
  index : Option Nat
deriving DecidableEq, Repr

/-- The text before the first `mark` and, if there is one, the text after it. -/
def cutAt (mark : Char) : List Char → List Char × Option (List Char)
  | [] => ([], none)
  | c :: cs =>
    if c = mark then ([], some cs)
    else (c :: (cutAt mark cs).1, (cutAt mark cs).2)

theorem cutAt_eq_some {mark : Char} {cs after : List Char}
    (h : (cutAt mark cs).2 = some after) : cs = (cutAt mark cs).1 ++ mark :: after := by
  induction cs with
  | nil => simp [cutAt] at h
  | cons c cs ih =>
    by_cases hc : c = mark
    · simp only [cutAt, hc, if_true, Option.some.injEq] at h ⊢
      simp [h]
    · simp only [cutAt, hc, if_false] at h ⊢
      simpa using ih h

theorem cutAt_eq_none {mark : Char} {cs : List Char}
    (h : (cutAt mark cs).2 = none) : (cutAt mark cs).1 = cs := by
  induction cs with
  | nil => rfl
  | cons c cs ih =>
    by_cases hc : c = mark
    · simp [cutAt, hc] at h
    · simp only [cutAt, hc, if_false] at h ⊢
      rw [ih h]

theorem mark_not_mem_cutAt (mark : Char) (cs : List Char) : mark ∉ (cutAt mark cs).1 := by
  induction cs with
  | nil => simp [cutAt]
  | cons c cs ih =>
    by_cases hc : c = mark
    · simp [cutAt, hc]
    · simp [cutAt, hc, ih, Ne.symm hc]

theorem length_of_cutAt {mark : Char} {cs after : List Char}
    (h : (cutAt mark cs).2 = some after) : after.length < cs.length := by
  have e := congrArg List.length (cutAt_eq_some h)
  simp only [List.length_append, List.length_cons] at e
  omega

def digitsValue (n : Nat) : List Char → Option Nat
  | [] => some n
  | c :: cs =>
    if '0' ≤ c ∧ c ≤ '9' then digitsValue (10 * n + (c.toNat - '0'.toNat)) cs else none

def indexBound : Nat := UInt64.size

/-- One or more decimal digits, optionally after one plus sign, that denote a
number below `indexBound`. -/
def readIndex (raw : List Char) : Option Nat :=
  let digits := match raw with
    | '+' :: rest => rest
    | _ => raw
  if digits = [] then none
  else (digitsValue 0 digits).filter (· < indexBound)

def Step.parse (head : List Char) : Except PathError Step :=
  match cutAt '[' head with
  | (_, none) => .ok ⟨String.ofList head, none⟩
  | (name, some inside) =>
    match cutAt ']' inside with
    | (_, none) => .error (.unclosedIndex (String.ofList head))
    | (raw, some []) =>
      match readIndex raw with
      | none => .error (.invalidIndex (String.ofList head) (String.ofList raw))
      | some i => .ok ⟨String.ofList name, some i⟩
    | (_, some (_ :: _)) => .error (.trailingCharacters (String.ofList head))

/-- The first segment of a path, with the rest of the path as text. -/
structure Segment where
  step : Step
  indexedName : String
  children : Option String
deriving DecidableEq, Repr

namespace Segment

def name (s : Segment) : String := s.step.name

def index (s : Segment) : Option Nat := s.step.index

def isIndexed (s : Segment) : Bool := s.index.isSome

def hasChildren (s : Segment) : Bool := s.children.isSome

def remainder (s : Segment) : String := s.children.getD ""

/-- A path may not end in a dot. Of two faults in one segment, the dot at the
end is reported first, then the index, then the missing name. -/
def parse (path : String) : Except PathError Segment :=
  if path.isEmpty then .error .empty
  else
    let cut := cutAt '.' path.toList
    if cut.2 = some [] then .error (.emptyName path)
    else
      match Step.parse cut.1 with
      | .error e => .error e
      | .ok step =>
        if step.name.isEmpty then .error (.emptyName path)
        else .ok ⟨step, String.ofList cut.1, cut.2.map String.ofList⟩

def next? (s : Segment) : Option (Except PathError Segment) := s.children.map parse

def text (s : Segment) : String :=
  match s.children with
  | some children => s.indexedName ++ "." ++ children
  | none => s.indexedName

theorem children_length {path : String} {s : Segment} {children : String}
    (h : parse path = .ok s) (hc : s.children = some children) :
    children.length < path.length := by
  unfold parse at h
  dsimp only at h
  split at h
  · nomatch h
  split at h
  · nomatch h
  split at h
  · nomatch h
  split at h
  · nomatch h
  cases h
  obtain ⟨after, ha, rfl⟩ := Option.map_eq_some_iff.1 hc
  simpa [← String.length_toList] using length_of_cutAt ha

end Segment

end PropTree
