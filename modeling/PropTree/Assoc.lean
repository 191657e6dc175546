set_option autoImplicit false

/-!
# Association lists in key order

`insert` keeps the keys ascending by code point, so two tables built by it from
the same content are the same list. The lemmas on lookup hold for every list.
-/

namespace PropTree

@[ext] structure Assoc (α : Type) where
  entries : List (String × α) := []
deriving DecidableEq, Repr

namespace Assoc

variable {α β : Type}

def empty : Assoc α := ⟨[]⟩

def isEmpty (m : Assoc α) : Bool := m.entries.isEmpty

def size (m : Assoc α) : Nat := m.entries.length

def keys (m : Assoc α) : List String := m.entries.map (·.1)

def findEntry (key : String) : List (String × α) → Option α
  | [] => none
  | (k, a) :: rest => if key = k then some a else findEntry key rest

def get? (m : Assoc α) (key : String) : Option α := findEntry key m.entries

def contains (m : Assoc α) (key : String) : Bool := (m.get? key).isSome

/-- An entry takes the place of the first one of its key. If there is none, it
goes before the first greater key. -/
def insertEntry (key : String) (a : α) : List (String × α) → List (String × α)
  | [] => [(key, a)]
  | (k, b) :: rest =>
    if key = k then (key, a) :: rest
    else if key < k ∧ (findEntry key rest).isNone then (key, a) :: (k, b) :: rest
    else (k, b) :: insertEntry key a rest

def insert (m : Assoc α) (key : String) (a : α) : Assoc α := ⟨insertEntry key a m.entries⟩

def erase (m : Assoc α) (key : String) : Assoc α :=
  ⟨m.entries.filter fun entry => entry.1 ≠ key⟩

/-- Later entries win over earlier ones of the same key. -/
def ofList (entries : List (String × α)) : Assoc α :=
  entries.foldl (fun m entry => m.insert entry.1 entry.2) empty

def mapValues (f : α → β) (m : Assoc α) : Assoc β :=
  ⟨m.entries.map fun entry => (entry.1, f entry.2)⟩

def Sorted (m : Assoc α) : Prop := m.entries.Pairwise fun x y => x.1 < y.1

theorem findEntry_insertEntry (key other : String) (a : α) (entries : List (String × α)) :
    findEntry other (insertEntry key a entries) =
      if other = key then some a else findEntry other entries := by
  induction entries with
  | nil => rfl
  | cons entry rest ih =>
    obtain ⟨k, b⟩ := entry
    unfold insertEntry
    split
    · rename_i hk
      subst hk
      by_cases h : other = key <;> simp [findEntry, h]
    · split
      · rfl
      · rename_i hk _
        by_cases h : other = k
        · subst h
          simp [findEntry, Ne.symm hk]
        · simp [findEntry, h, ih]

@[simp] theorem get?_empty (key : String) : (empty : Assoc α).get? key = none := rfl

theorem get?_insert (m : Assoc α) (key other : String) (a : α) :
    (m.insert key a).get? other = if other = key then some a else m.get? other :=
  findEntry_insertEntry key other a m.entries

@[simp] theorem get?_insert_self (m : Assoc α) (key : String) (a : α) :
    (m.insert key a).get? key = some a := by
  simp [get?_insert]

theorem get?_insert_of_ne (m : Assoc α) {key other : String} (h : other ≠ key) (a : α) :
    (m.insert key a).get? other = m.get? other := by
  simp [get?_insert, h]

theorem insert_of_get? {m : Assoc α} {key : String} {a : α} (h : m.get? key = some a) :
    m.insert key a = m := by
  obtain ⟨entries⟩ := m
  simp only [insert, get?, mk.injEq] at h ⊢
  induction entries with
  | nil => simp [findEntry] at h
  | cons entry rest ih =>
    obtain ⟨k, b⟩ := entry
    by_cases hk : key = k
    · simp_all [findEntry, insertEntry]
    · simp only [findEntry, hk, if_false] at h
      simp [insertEntry, hk, h, ih h]

theorem insert_insert (m : Assoc α) (key : String) (a b : α) :
    (m.insert key a).insert key b = m.insert key b := by
  obtain ⟨entries⟩ := m
  simp only [insert, mk.injEq]
  induction entries with
  | nil => simp [insertEntry]
  | cons entry rest ih =>
    obtain ⟨k, c⟩ := entry
    by_cases hk : key = k
    · simp [insertEntry, hk]
    · by_cases hlt : key < k ∧ (findEntry key rest).isNone
      · simp [insertEntry, hk, hlt]
      · have hlt' : ¬(key < k ∧ (findEntry key (insertEntry key a rest)).isNone) := by
          simp [findEntry_insertEntry]
        simp only [insertEntry, if_neg hk, if_neg hlt, if_neg hlt', ih]

theorem mem_insertEntry {key : String} {a : α} {entries : List (String × α)}
    {entry : String × α} (h : entry ∈ insertEntry key a entries) :
    entry = (key, a) ∨ entry ∈ entries := by
  induction entries with
  | nil => simpa [insertEntry] using h
  | cons first rest ih =>
    obtain ⟨k, b⟩ := first
    unfold insertEntry at h
    split at h
    · rcases List.mem_cons.1 h with h | h
      · exact .inl h
      · exact .inr (List.mem_cons_of_mem _ h)
    · split at h
      · rcases List.mem_cons.1 h with h | h
        · exact .inl h
        · exact .inr h
      · rcases List.mem_cons.1 h with h | h
        · exact .inr (h ▸ List.mem_cons_self)
        · exact (ih h).imp id (List.mem_cons_of_mem _)

theorem mem_of_findEntry {key : String} {a : α} {entries : List (String × α)}
    (h : findEntry key entries = some a) : (key, a) ∈ entries := by
  induction entries with
  | nil => simp [findEntry] at h
  | cons entry rest ih =>
    obtain ⟨k, b⟩ := entry
    by_cases hk : key = k
    · simp_all [findEntry]
    · simp only [findEntry, hk, if_false] at h
      exact List.mem_cons_of_mem _ (ih h)

theorem forall_get? {m : Assoc α} {P : α → Prop} (h : ∀ entry ∈ m.entries, P entry.2)
    (key : String) (a : α) (hget : m.get? key = some a) : P a :=
  h (key, a) (mem_of_findEntry hget)

theorem insert_sorted {m : Assoc α} (hm : m.Sorted) (key : String) (a : α) :
    (m.insert key a).Sorted := by
  obtain ⟨entries⟩ := m
  unfold Sorted insert at *
  induction entries with
  | nil => simp [insertEntry]
  | cons entry rest ih =>
    obtain ⟨k, b⟩ := entry
    obtain ⟨hk, hrest⟩ := List.pairwise_cons.1 hm
    simp only [insertEntry]
    split
    · rename_i he
      subst he
      exact List.pairwise_cons.2 ⟨hk, hrest⟩
    · split
      · rename_i hlt
        refine List.pairwise_cons.2 ⟨fun y hy => ?_, hm⟩
        rcases List.mem_cons.1 hy with rfl | hy
        · exact hlt.1
        · exact String.lt_trans hlt.1 (hk y hy)
      · rename_i hne hnlt
        refine List.pairwise_cons.2 ⟨fun y hy => ?_, ih hrest⟩
        rcases mem_insertEntry hy with rfl | hy
        · refine Decidable.byContradiction fun hgt => ?_
          have hle := String.not_lt.1 hgt
          by_cases hlt : key < k
          · have hsome : (findEntry key rest).isSome := by
              simpa [hlt, ← Option.isSome_iff_ne_none] using hnlt
            obtain ⟨b', hb'⟩ := Option.isSome_iff_exists.1 hsome
            exact String.lt_irrefl k (String.lt_trans (hk _ (mem_of_findEntry hb')) hlt)
          · exact hne (String.le_antisymm hle (String.not_lt.1 hlt))
        · exact hk y hy

end Assoc

end PropTree
