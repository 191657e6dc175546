import PropTree.Cache.Provider

set_option autoImplicit false

namespace PropTree

structure Store where
  entries : List (ContentKey × Value) := []
deriving DecidableEq, Repr

namespace Store

def find (key : ContentKey) : List (ContentKey × Value) → Option Value
  | [] => none
  | (k, v) :: rest => if k = key then some v else find key rest

def put (key : ContentKey) (v : Value) : List (ContentKey × Value) → List (ContentKey × Value)
  | [] => [(key, v)]
  | (k, u) :: rest => if k = key then (key, v) :: rest else (k, u) :: put key v rest

def empty : Store := ⟨[]⟩

def get? (s : Store) (key : ContentKey) : Option Value := find key s.entries

def insert (s : Store) (key : ContentKey) (v : Value) : Store := ⟨put key v s.entries⟩

def erase (s : Store) (key : ContentKey) : Store := ⟨s.entries.filter fun entry => entry.1 ≠ key⟩

def contains (s : Store) (key : ContentKey) : Bool := (s.get? key).isSome

def size (s : Store) : Nat := s.entries.length

theorem find_put (key other : ContentKey) (v : Value) (entries : List (ContentKey × Value)) :
    find other (put key v entries) = if key = other then some v else find other entries := by
  induction entries with
  | nil => simp [put, find]
  | cons entry rest ih =>
    obtain ⟨k, u⟩ := entry
    by_cases hk : k = key
    · by_cases h : key = other <;> simp [put, find, hk, h]
    · by_cases h : k = other
      · subst h
        simp [put, find, hk, Ne.symm hk]
      · simp [put, find, hk, h, ih]

theorem get?_insert (s : Store) (key other : ContentKey) (v : Value) :
    (s.insert key v).get? other = if key = other then some v else s.get? other :=
  find_put key other v s.entries

theorem find_filter (key other : ContentKey) (entries : List (ContentKey × Value)) :
    find other (entries.filter fun entry => entry.1 ≠ key) =
      if key = other then none else find other entries := by
  induction entries with
  | nil => simp [find]
  | cons entry rest ih =>
    obtain ⟨k, u⟩ := entry
    by_cases hk : k = key
    · by_cases h : key = other <;> simp_all [find]
    · by_cases h : k = other
      · subst h
        simp [find, hk, Ne.symm hk]
      · simp_all [find]

theorem get?_erase (s : Store) (key other : ContentKey) :
    (s.erase key).get? other = if key = other then none else s.get? other :=
  find_filter key other s.entries

def provider (id : String) : Provider Store where
  id := id
  put s key v := (s.insert key v, .ok ())
  get s key := (s, .ok (s.get? key))
  remove s key := (s.erase key, .ok (s.get? key))
  clear _ := (empty, .ok ())
  size s := s.size

end Store

end PropTree
