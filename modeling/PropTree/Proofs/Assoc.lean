import Mathlib.Data.List.Sort
import PropTree.Assoc

set_option autoImplicit false

/-!
# Tables in key order
-/

namespace PropTree

namespace Assoc

variable {α : Type} {m m' : Assoc α} {key : String} {a : α} {entries : List (String × α)}

theorem findEntry_eq_none_iff : findEntry key entries = none ↔ key ∉ entries.map (·.1) := by
  induction entries with
  | nil => simp [findEntry]
  | cons entry rest ih =>
    obtain ⟨k, b⟩ := entry
    by_cases h : key = k <;> simp_all [findEntry]

theorem mem_keys_iff : key ∈ m.keys ↔ m.contains key = true := by
  rw [contains, Option.isSome_iff_ne_none, get?, Ne, findEntry_eq_none_iff, not_not, keys]

/-! ### Order -/

theorem Sorted.get?_eq_some_iff (hm : m.Sorted) :
    m.get? key = some a ↔ (key, a) ∈ m.entries := by
  refine ⟨mem_of_findEntry, ?_⟩
  obtain ⟨entries⟩ := m
  unfold Sorted get? at *
  intro hmem
  induction entries with
  | nil => nomatch hmem
  | cons entry rest ih =>
    obtain ⟨k, b⟩ := entry
    obtain ⟨hbelow, hrest⟩ := List.pairwise_cons.1 hm
    rcases List.mem_cons.1 hmem with heq | hmem
    · obtain ⟨rfl, rfl⟩ := Prod.mk.inj heq
      exact if_pos rfl
    · have hne : key ≠ k := fun heq => String.lt_irrefl k (heq ▸ hbelow (key, a) hmem)
      rw [findEntry, if_neg hne]
      exact ih hrest hmem

theorem Sorted.eq_of_get? (hm : m.Sorted) (hm' : m'.Sorted)
    (h : ∀ key, m.get? key = m'.get? key) : m = m' := by
  let before (x y : String × α) : Prop := x.1 < y.1
  have hirrefl : Std.Irrefl before := ⟨fun x => String.lt_irrefl x.1⟩
  have hantisymm : Std.Antisymm before :=
    ⟨fun x y hxy hyx => absurd (String.lt_trans hxy hyx) (String.lt_irrefl x.1)⟩
  refine Assoc.ext (List.Pairwise.eq_of_mem_iff (r := before) hm hm' fun entry => ?_)
  obtain ⟨key, a⟩ := entry
  rw [← hm.get?_eq_some_iff, ← hm'.get?_eq_some_iff, h key]

theorem Sorted.lt_of_mem_after {before after : List (String × α)} (hm : m.Sorted)
    (h : m.entries = before ++ (key, a) :: after) {entry : String × α} (hentry : entry ∈ after) :
    key < entry.1 := by
  unfold Sorted at hm
  rw [h] at hm
  obtain ⟨hlater, -⟩ := List.pairwise_cons.1 (List.pairwise_append.1 hm).2.1
  exact hlater entry hentry

/-! ### Many entries -/

def insertAll (m : Assoc α) (entries : List (String × α)) : Assoc α :=
  entries.foldl (fun m entry => m.insert entry.1 entry.2) m

theorem insertAll_cons (m : Assoc α) (entry : String × α) (entries : List (String × α)) :
    m.insertAll (entry :: entries) = (m.insert entry.1 entry.2).insertAll entries := rfl

theorem insertAll_sorted (hm : m.Sorted) (entries : List (String × α)) :
    (m.insertAll entries).Sorted := by
  induction entries generalizing m with
  | nil => exact hm
  | cons entry rest ih => exact ih (insert_sorted hm entry.1 entry.2)

theorem get?_insertAll_of_not_mem (h : key ∉ entries.map (·.1)) :
    (m.insertAll entries).get? key = m.get? key := by
  induction entries generalizing m with
  | nil => rfl
  | cons entry rest ih =>
    obtain ⟨hne, hrest⟩ := not_or.1 (mt List.mem_cons.2 h)
    rw [insertAll_cons, ih hrest, get?_insert_of_ne m hne]

theorem get?_insertAll_of_mem (hmem : (key, a) ∈ entries) (h : ∀ b, (key, b) ∈ entries → b = a) :
    (m.insertAll entries).get? key = some a := by
  induction entries generalizing m with
  | nil => nomatch hmem
  | cons entry rest ih =>
    rw [insertAll_cons]
    by_cases hrest : key ∈ rest.map (·.1)
    · obtain ⟨⟨k, b⟩, hlater, rfl⟩ := List.mem_map.1 hrest
      obtain rfl := h b (List.mem_cons_of_mem _ hlater)
      exact ih hlater fun c hc => h c (List.mem_cons_of_mem _ hc)
    · have hfirst : entry = (key, a) := by
        rcases List.mem_cons.1 hmem with heq | hlater
        · exact heq.symm
        · exact absurd (List.mem_map_of_mem hlater) hrest
      rw [get?_insertAll_of_not_mem hrest, hfirst, get?_insert_self]

theorem insertAll_append (m : Assoc α) (before after : List (String × α)) :
    m.insertAll (before ++ after) = (m.insertAll before).insertAll after := List.foldl_append

theorem get?_insertAll_of_last {before after : List (String × α)}
    (h : key ∉ after.map (·.1)) :
    (m.insertAll (before ++ (key, a) :: after)).get? key = some a := by
  rw [insertAll_append, insertAll_cons, get?_insertAll_of_not_mem h, get?_insert_self]

theorem mem_of_get?_insertAll (h : (m.insertAll entries).get? key = some a) :
    m.get? key = some a ∨ (key, a) ∈ entries := by
  induction entries generalizing m with
  | nil => exact .inl h
  | cons entry rest ih =>
    rcases ih (insertAll_cons m entry rest ▸ h) with hbefore | hrest
    · rw [get?_insert] at hbefore
      split at hbefore
      · rename_i hkey
        obtain rfl := Option.some.inj hbefore
        exact .inr (hkey ▸ List.mem_cons_self)
      · exact .inl hbefore
    · exact .inr (List.mem_cons_of_mem _ hrest)

/-- A table put over one that has no other keys is left alone. -/
theorem insertAll_entries (hm : m.Sorted) (hm' : m'.Sorted)
    (h : ∀ key, m.contains key = true → m'.contains key = true) : m.insertAll m'.entries = m' := by
  refine (insertAll_sorted hm m'.entries).eq_of_get? hm' fun key => ?_
  cases hkey : m'.get? key with
  | some a =>
    refine get?_insertAll_of_mem (mem_of_findEntry hkey) fun b hb => ?_
    exact Option.some.inj ((hm'.get?_eq_some_iff.2 hb).symm.trans hkey)
  | none =>
    have habsent : ¬m'.contains key = true := by simp [contains, hkey]
    rw [get?_insertAll_of_not_mem (mt mem_keys_iff.1 habsent)]
    exact Option.not_isSome_iff_eq_none.1 (mt (h key) habsent)

end Assoc

end PropTree
