import PropTree.Path.Segment

set_option autoImplicit false

/-!
# Segments one after the other

The walk borrows what is left of the path from a byte offset on. A slice past the
end, or inside a character, would be a fault of the walk and not of the path.
-/

namespace PropTree

/-- A slice of a text at an offset where no character of it starts or ends. -/
structure SliceFault where
  text : String
  offset : Nat
deriving DecidableEq, Repr

def sliceFrom (text : String) (offset : Nat) : Except SliceFault String :=
  if h : String.Pos.Raw.IsValid text ⟨offset⟩ then .ok (text.sliceFrom (text.pos ⟨offset⟩ h)).copy
  else .error ⟨text, offset⟩

theorem utf8ByteSize_of_sliceFrom {text rest : String} {offset : Nat}
    (h : sliceFrom text offset = .ok rest) : text.utf8ByteSize = offset + rest.utf8ByteSize := by
  unfold sliceFrom at h
  split at h
  · rename_i hvalid
    obtain rfl := Except.ok.inj h
    have hsplits := (text.pos ⟨offset⟩ hvalid).splits
    have hbyte := congrArg String.Pos.Raw.byteIdx hsplits.offset_eq_rawEndPos
    have hsize := congrArg String.utf8ByteSize hsplits.eq_append
    rw [String.utf8ByteSize_append] at hsize
    rw [hsize]
    exact congrArg (· + _) hbyte.symm
  · nomatch h

structure Segments where
  rest : Option String
  failed : Bool
deriving DecidableEq, Repr

namespace Segments

def ofText (text : String) : Segments := ⟨some text, false⟩

def next (s : Segments) :
    Except SliceFault (Option (Except PathError Segment) × Segments) :=
  if s.failed then .ok (none, s)
  else
    match s.rest with
    | none => .ok (none, s)
    | some path =>
      match Segment.parse path with
      | .error e => .ok (some (.error e), ⟨none, true⟩)
      | .ok segment =>
        if segment.hasChildren then
          match sliceFrom path (segment.indexedName.utf8ByteSize + 1) with
          | .error fault => .error fault
          | .ok rest => .ok (some (.ok segment), ⟨some rest, false⟩)
        else .ok (some (.ok segment), ⟨none, false⟩)

def size (s : Segments) : Nat := s.rest.elim 0 fun text => text.utf8ByteSize + 1

theorem size_lt_of_next {s s' : Segments} {item : Except PathError Segment}
    (h : s.next = .ok (some item, s')) : s'.size < s.size := by
  unfold next at h
  split at h
  · nomatch h
  split at h
  · nomatch h
  rename_i path hpath
  have hs : s.size = path.utf8ByteSize + 1 := by simp [size, hpath]
  rw [hs]
  split at h
  · cases h
    exact Nat.succ_pos _
  split at h
  · split at h
    · nomatch h
    · rename_i rest hslice
      cases h
      have hlength := utf8ByteSize_of_sliceFrom hslice
      change rest.utf8ByteSize + 1 < path.utf8ByteSize + 1
      omega
  · cases h
    exact Nat.succ_pos _

def items (s : Segments) : Except SliceFault (List (Except PathError Segment)) :=
  match _h : s.next with
  | .error fault => .error fault
  | .ok (none, _) => .ok []
  | .ok (some item, s') => s'.items.map (item :: ·)
termination_by s.size
decreasing_by exact size_lt_of_next ‹_›

end Segments

end PropTree
