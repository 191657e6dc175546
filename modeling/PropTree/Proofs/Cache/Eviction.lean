import Mathlib.Data.List.Perm.Basic
import Mathlib.Data.List.Nodup
import PropTree.Cache.Lru
import PropTree.Proofs.Cache.OverStore

set_option autoImplicit false

/-!
# What eviction keeps

Above a store, a layer of eviction lists exactly the keys that the store has, each
once and never more than its capacity.
-/

namespace PropTree

/-- `find` says what a cache holds in a state that is good for it. -/
structure Provider.Lawful {σ : Type} (d : Provider σ) (Good : σ → Prop)
    (find : σ → ContentKey → Option Value) : Prop where
  get : ∀ s key, Good s → ∃ s', d.get s key = (s', .ok (find s key)) ∧ Good s' ∧ find s' = find s
  put : ∀ s key v, Good s → ∃ s', d.put s key v = (s', .ok ()) ∧ Good s' ∧
    ∀ other, other ≠ key → find s other = none → find s' other = none
  remove : ∀ s key, Good s → find s key = none → d.remove s key = (s, .ok none)
  clear : ∀ s, Good s → ∃ s', d.clear s = (s', .ok ()) ∧ Good s' ∧ ∀ key, find s' key = none

namespace Store

variable {s : Store}

theorem Distinct.erase (h : s.Distinct) (key : ContentKey) : (s.erase key).Distinct :=
  List.Nodup.sublist (List.filter_sublist.map _) h

theorem lawful (id : String) : (provider id).Lawful Distinct get? where
  get s _ hs := ⟨s, rfl, hs, rfl⟩
  put s key v hs := by
    refine ⟨s.insert key v, rfl, hs.insert key v, fun other hother habsent => ?_⟩
    rw [get?_insert, if_neg hother.symm, habsent]
  remove s key _ habsent := by
    change (s.erase key, Except.ok (s.get? key)) = _
    rw [habsent, erase_of_get?_none habsent]
  clear _ _ := ⟨empty, rfl, distinct_empty, fun _ => rfl⟩

end Store

theorem Provider.Lawful.passing {σ ω : Type} {d : Provider σ} {Good : σ → Prop}
    {find : σ → ContentKey → Option Value} (h : d.Lawful Good find) :
    (d.passing (ω := ω)).Lawful (fun s => Good s.2) fun s => find s.2 where
  get s key hs := by
    obtain ⟨s', hget, hgood, hfind⟩ := h.get s.2 key hs
    exact ⟨(s.1, s'), congrArg (beside s.1) hget, hgood, hfind⟩
  put s key v hs := by
    obtain ⟨s', hput, hgood, hfind⟩ := h.put s.2 key v hs
    exact ⟨(s.1, s'), congrArg (beside s.1) hput, hgood, hfind⟩
  remove s key hs habsent := congrArg (beside s.1) (h.remove s.2 key hs habsent)
  clear s hs := by
    obtain ⟨s', hclear, hgood, hfind⟩ := h.clear s.2 hs
    exact ⟨(s.1, s'), congrArg (beside s.1) hclear, hgood, hfind⟩

namespace Recency

variable {capacity : Capacity} {keys : List ContentKey} {key other : ContentKey}

theorem touch_perm (key : ContentKey) (keys : List ContentKey) : (touch key keys).Perm keys := by
  unfold touch
  split
  · rename_i hmem
    exact (List.perm_cons_erase hmem).symm
  · exact .refl keys

theorem mem_dropLast_iff (h : keys.Nodup) :
    key ∈ keys.dropLast ↔ key ∈ keys ∧ keys.getLast? ≠ some key := by
  rcases List.eq_nil_or_concat keys with rfl | ⟨rest, last, rfl⟩
  · simp
  · have hlast : last ∉ rest := (List.nodup_concat rest last).1 h |>.1
    rw [List.concat_eq_append, List.dropLast_concat, List.getLast?_concat, List.mem_append,
      List.mem_singleton, Ne, Option.some.injEq]
    constructor
    · exact fun hmem => ⟨.inl hmem, fun hsame => hlast (hsame ▸ hmem)⟩
    · rintro ⟨hmem | rfl, hne⟩
      · exact hmem
      · exact absurd rfl hne

def driven (capacity : Capacity) (key : ContentKey) (keys : List ContentKey) : Option ContentKey :=
  (push capacity key keys).2.filter (· ≠ key)

theorem driven_eq_some_iff {old : ContentKey} :
    driven capacity key keys = some old ↔ (push capacity key keys).2 = some old ∧ old ≠ key := by
  rw [driven, Option.filter_eq_some_iff, decide_eq_true_iff]

theorem mem_push (h : keys.Nodup) :
    other ∈ (push capacity key keys).1 ↔
      other = key ∨ other ∈ keys ∧ driven capacity key keys ≠ some other := by
  have hdriven : driven capacity key keys ≠ some other ↔
      (push capacity key keys).2 ≠ some other ∨ other = key := by
    rw [Ne, driven_eq_some_iff, not_and_or, not_not]
  rw [hdriven]
  unfold push
  split
  · rename_i hmem
    rw [(touch_perm key keys).mem_iff]
    constructor
    · intro hother
      by_cases hkey : other = key
      · exact .inl hkey
      · exact .inr ⟨hother, .inl fun hsame => hkey (Option.some.inj hsame).symm⟩
    · rintro (rfl | ⟨hother, -⟩)
      · exact hmem
      · exact hother
  · rename_i hnew
    have hne : other ∈ keys → other ≠ key := fun hother hkey => hnew (hkey ▸ hother)
    split
    · simp
    · rw [List.mem_cons, mem_dropLast_iff h]
      constructor
      · rintro (hkey | ⟨hother, hlast⟩)
        · exact .inl hkey
        · exact .inr ⟨hother, .inl hlast⟩
      · rintro (hkey | ⟨hother, hlast | hkey⟩)
        · exact .inl hkey
        · exact .inr ⟨hother, hlast⟩
        · exact .inl hkey

theorem nodup_push (h : keys.Nodup) : (push capacity key keys).1.Nodup := by
  unfold push
  split
  · exact (touch_perm key keys).nodup_iff.2 h
  · rename_i hnew
    split
    · exact List.nodup_cons.2 ⟨hnew, h⟩
    · refine List.nodup_cons.2 ⟨fun hmem => hnew ?_, h.sublist (List.dropLast_sublist keys)⟩
      exact List.dropLast_subset keys hmem

theorem length_push_le (h : keys.length ≤ capacity.val) :
    (push capacity key keys).1.length ≤ capacity.val := by
  unfold push
  split
  · rw [(touch_perm key keys).length_eq]
    exact h
  · split
    · rename_i hroom
      exact hroom
    · have hpos := capacity.pos
      rw [List.length_cons, List.length_dropLast]
      omega

end Recency

/-- A table that does what a list of at most `capacity` keys does; `keys` tells
the list that it stands for. -/
structure RecencyTable.Keeps {ρ : Type} (table : RecencyTable ρ) (capacity : Capacity)
    (keys : ρ → List ContentKey) : Prop where
  push : ∀ key t, keys (table.push key t).1 = (Recency.push capacity key (keys t)).1 ∧
    (table.push key t).2 = (Recency.push capacity key (keys t)).2
  touch : ∀ key t, keys (table.touch key t) = Recency.touch key (keys t)
  drop : ∀ key t, keys (table.drop key t) = (keys t).erase key
  clear : ∀ t, keys (table.clear t) = []

theorem Recency.table_keeps (capacity : Capacity) : (table capacity).Keeps capacity id where
  push _ _ := ⟨rfl, rfl⟩
  touch _ _ := rfl
  drop _ _ := rfl
  clear _ := rfl

namespace Lru

/-- The keys in use above a store are those that it has. -/
structure Kept (capacity : Capacity) (s : List ContentKey × Store) : Prop where
  distinct : s.2.Distinct
  nodup : s.1.Nodup
  mem_iff : ∀ key, key ∈ s.1 ↔ s.2.get? key ≠ none
  length_le : s.1.length ≤ capacity.val

variable {capacity : Capacity} {keys : List ContentKey} {s : Store}

theorem kept_empty (capacity : Capacity) : Kept capacity ([], .empty) where
  distinct := Store.distinct_empty
  nodup := List.nodup_nil
  mem_iff key := by simp [Store.get?, Store.empty, Store.find]
  length_le := Nat.zero_le _

theorem Kept.size_le (h : Kept capacity (keys, s)) : s.size ≤ capacity.val := by
  have hperm : (s.entries.map (·.1)).Perm keys := by
    refine (List.perm_ext_iff_of_nodup h.distinct h.nodup).2 fun key => ?_
    have habsent : s.get? key = none ↔ key ∉ s.entries.map (·.1) := Store.find_eq_none_iff
    rw [h.mem_iff, Ne, habsent, not_not]
  have hlength : s.size = keys.length := (List.length_map _).symm.trans hperm.length_eq
  exact hlength ▸ h.length_le

theorem put_store {ρ : Type} {table : RecencyTable ρ} {view : ρ → List ContentKey}
    (h : table.Keeps capacity view) (id : String) (t : ρ) (s : Store) (key : ContentKey)
    (v : Value) :
    put table (Store.provider id) (t, s) key v =
      (((table.push key t).1,
        (Recency.driven capacity key (view t)).elim (s.insert key v) (s.insert key v).erase),
        .ok ()) := by
  have hput : (Store.provider id).put s key v = (s.insert key v, .ok ()) := rfl
  unfold put Recency.driven
  simp only [hput, (h.push key t).2]
  cases (Recency.push capacity key (view t)).2.filter (· ≠ key) <;> rfl

theorem get?_elim_erase (s : Store) (old : Option ContentKey) (key : ContentKey) :
    (old.elim s s.erase).get? key = if old = some key then none else s.get? key := by
  cases old with
  | none => rfl
  | some old =>
    change (s.erase old).get? key = _
    rw [Store.get?_erase]
    simp only [Option.some.injEq]

theorem Kept.put (h : Kept capacity (keys, s)) (key : ContentKey) (v : Value) :
    Kept capacity ((Recency.push capacity key keys).1,
      (Recency.driven capacity key keys).elim (s.insert key v) (s.insert key v).erase) := by
  have hinserted : (s.insert key v).Distinct := h.distinct.insert key v
  refine ⟨?_, Recency.nodup_push h.nodup, fun other => ?_, Recency.length_push_le h.length_le⟩
  · cases Recency.driven capacity key keys with
    | none => exact hinserted
    | some old => exact hinserted.erase old
  · have hkept : Recency.driven capacity key keys ≠ some key :=
      fun hdriven => (Recency.driven_eq_some_iff.1 hdriven).2 rfl
    have hbefore : other ∈ keys ↔ s.get? other ≠ none := h.mem_iff other
    rw [Recency.mem_push h.nodup, get?_elim_erase, Store.get?_insert, hbefore]
    by_cases hother : key = other
    · subst hother
      simp [hkept]
    · by_cases hold : Recency.driven capacity key keys = some other
      · simp [hold, Ne.symm hother]
      · simp [hold, hother, Ne.symm hother]

theorem Kept.touch (h : Kept capacity (keys, s)) (key : ContentKey) :
    Kept capacity (Recency.touch key keys, s) := by
  have hperm := Recency.touch_perm key keys
  refine ⟨h.distinct, hperm.nodup_iff.2 h.nodup, fun other => ?_, ?_⟩
  · rw [hperm.mem_iff, h.mem_iff]
  · rw [hperm.length_eq]
    exact h.length_le

theorem lawful (capacity : Capacity) (id : String) :
    (layer (Recency.table capacity) (Store.provider id)).Lawful (Kept capacity)
      fun s => s.2.get? where
  get s key hs := ⟨(Recency.touch key s.1, s.2), rfl, hs.touch key, rfl⟩
  put s key v hs := by
    have hput := put_store (Recency.table_keeps capacity) id s.1 s.2 key v
    refine ⟨_, hput, hs.put key v, fun other hother habsent => ?_⟩
    rw [get?_elim_erase, Store.get?_insert, if_neg hother.symm, habsent, ite_self]
  remove s key hs habsent := by
    have hnew : key ∉ s.1 := fun hmem => (hs.mem_iff key).1 hmem habsent
    change ((s.1.erase key, s.2.erase key), Except.ok (s.2.get? key)) = _
    rw [List.erase_of_not_mem hnew, Store.erase_of_get?_none habsent, habsent]
  clear _ _ := ⟨([], .empty), rfl, kept_empty capacity, fun _ => rfl⟩

end Lru

end PropTree
