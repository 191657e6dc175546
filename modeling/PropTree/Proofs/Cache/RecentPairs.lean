import PropTree.Proofs.Cache.Transparent

set_option autoImplicit false

/-!
# The most recent pairs

The keys in use and the values are two tables that change one after the other.
Together they are one list of pairs, the last used one in front.
-/

namespace PropTree

/-! ### The reference -/

namespace RecentPairs

def without (key : ContentKey) (pairs : List (ContentKey × Value)) : List (ContentKey × Value) :=
  pairs.filter fun pair => pair.1 ≠ key

def put (capacity : Capacity) (key : ContentKey) (v : Value) (pairs : List (ContentKey × Value)) :
    List (ContentKey × Value) :=
  let pairs' := (key, v) :: without key pairs
  if capacity.val < pairs'.length then pairs'.dropLast else pairs'

def use (key : ContentKey) (pairs : List (ContentKey × Value)) : List (ContentKey × Value) :=
  match Store.find key pairs with
  | some v => (key, v) :: without key pairs
  | none => pairs

def provider (id : String) (capacity : Capacity) : Provider (List (ContentKey × Value)) where
  id := id
  put pairs key v := (put capacity key v pairs, .ok ())
  get pairs key := (use key pairs, .ok (Store.find key pairs))
  remove pairs key := (without key pairs, .ok (Store.find key pairs))
  clear _ := ([], .ok ())
  size pairs := pairs.length

variable {capacity : Capacity} {key : ContentKey} {v : Value} {pairs : List (ContentKey × Value)}

theorem map_fst_without (h : (pairs.map (·.1)).Nodup) :
    (without key pairs).map (·.1) = (pairs.map (·.1)).erase key := by
  rw [h.erase_eq_filter, List.filter_map]
  refine congrArg (List.map _) (List.filter_congr fun pair _ => ?_)
  rw [Function.comp_apply, Bool.eq_iff_iff, decide_eq_true_iff, bne_iff_ne]

theorem without_of_not_mem (h : key ∉ pairs.map (·.1)) : without key pairs = pairs := by
  refine List.filter_eq_self.2 fun pair hpair => decide_eq_true fun hsame => h ?_
  exact hsame ▸ List.mem_map_of_mem hpair

theorem length_without_lt (h : key ∈ pairs.map (·.1)) :
    (without key pairs).length < pairs.length := by
  obtain ⟨pair, hpair, hkey⟩ := List.mem_map.1 h
  apply List.length_filter_lt_length_iff_exists.2
  exact ⟨pair, hpair, by simp [hkey]⟩

theorem nodup_front (h : (pairs.map (·.1)).Nodup) (key : ContentKey) (v : Value) :
    (((key, v) :: without key pairs).map (·.1)).Nodup := by
  rw [List.map_cons, map_fst_without h]
  exact List.nodup_cons.2 ⟨h.not_mem_erase, h.erase key⟩

theorem perm_front (h : (pairs.map (·.1)).Nodup) (hpair : (key, v) ∈ pairs) :
    pairs.Perm ((key, v) :: without key pairs) := by
  refine (List.perm_ext_iff_of_nodup (.of_map _ h) (.of_map _ (nodup_front h key v))).2 ?_
  intro pair
  rw [List.mem_cons, without, List.mem_filter, decide_eq_true_iff]
  constructor
  · intro hmem
    by_cases hkey : pair.1 = key
    · have hfound : Store.find key pairs = some pair.2 := Store.find_of_mem h (hkey ▸ hmem)
      rw [Store.find_of_mem h hpair] at hfound
      exact .inl (Prod.ext hkey (Option.some.inj hfound).symm)
    · exact .inr ⟨hmem, hkey⟩
  · rintro (rfl | ⟨hmem, -⟩)
    · exact hpair
    · exact hmem

theorem without_concat (pairs : List (ContentKey × Value)) (last : ContentKey × Value)
    (h : ((pairs ++ [last]).map (·.1)).Nodup) : without last.1 (pairs ++ [last]) = pairs := by
  rw [List.map_append, List.nodup_append] at h
  obtain ⟨-, -, hdisjoint⟩ := h
  have hlast : last.1 ∉ pairs.map (·.1) := fun hmem =>
    hdisjoint _ hmem _ (List.mem_singleton_self _) rfl
  have hrest : without last.1 pairs = pairs := without_of_not_mem hlast
  have hgone : without last.1 [last] = [] := by simp [without]
  rw [without, List.filter_append]
  change without last.1 pairs ++ without last.1 [last] = pairs
  rw [hrest, hgone, List.append_nil]

theorem find_put (capacity : Capacity) (key : ContentKey) (v : Value)
    (pairs : List (ContentKey × Value)) :
    Store.find key (put capacity key v pairs) = some v := by
  have hpos := capacity.pos
  unfold put
  dsimp only
  split
  · rename_i hfull
    have hne : without key pairs ≠ [] := by
      intro hnil
      rw [hnil, List.length_singleton] at hfull
      omega
    rw [List.dropLast_cons_of_ne_nil hne, Store.find, if_pos rfl]
  · rw [Store.find, if_pos rfl]

theorem put_eq_driven (key : ContentKey) (v : Value) (h : (pairs.map (·.1)).Nodup)
    (hlength : pairs.length ≤ capacity.val) :
    (put capacity key v pairs).map (·.1) =
        (Recency.push capacity key (pairs.map (·.1))).1 ∧
      put capacity key v pairs =
        (Recency.driven capacity key (pairs.map (·.1))).elim ((key, v) :: without key pairs)
          fun old => without old ((key, v) :: without key pairs) := by
  unfold put Recency.driven Recency.push
  by_cases hmem : key ∈ pairs.map (·.1)
  · -- a key that is there makes no pair more
    have hshort := length_without_lt hmem
    have hroom : ¬capacity.val < ((key, v) :: without key pairs).length := by
      rw [List.length_cons]
      omega
    simp only [hmem, if_true, hroom, if_false]
    constructor
    · rw [List.map_cons, map_fst_without h, Recency.touch, if_pos hmem]
    · have hsame : (some key).filter (· ≠ key) = none := by simp
      rw [hsame]
      rfl
  · simp only [hmem, if_false, without_of_not_mem hmem, List.length_map, List.length_cons]
    by_cases hroom : pairs.length < capacity.val
    · have hfits : ¬capacity.val < pairs.length + 1 := by omega
      simp only [hroom, if_true, hfits, if_false]
      exact ⟨rfl, rfl⟩
    · have hfull : capacity.val < pairs.length + 1 := by omega
      simp only [hroom, if_false, hfull, if_true]
      rcases List.eq_nil_or_concat pairs with rfl | ⟨rest, last, rfl⟩
      · -- no capacity is so small that an empty list is full
        have hpos := capacity.pos
        rw [List.length_nil] at hroom
        omega
      · rw [List.concat_eq_append] at h hmem ⊢
        have hne : last.1 ≠ key := by
          rintro rfl
          exact hmem (by simp)
        have hgone := without_concat ((key, v) :: rest) last
        rw [List.cons_append, List.map_cons] at hgone
        have hdriven : (((rest ++ [last]).map (·.1)).getLast?.filter (· ≠ key)) =
            some last.1 := by
          simp [hne]
        rw [hdriven, Option.elim_some, hgone (List.nodup_cons.2 ⟨hmem, h⟩),
          ← List.cons_append, List.dropLast_concat]
        exact ⟨by simp, rfl⟩

end RecentPairs

/-! ### Two tables and one list -/

theorem Store.put_perm {key : ContentKey} {entries : List (ContentKey × Value)}
    (h : (entries.map (·.1)).Nodup) (v : Value) :
    (put key v entries).Perm ((key, v) :: RecentPairs.without key entries) := by
  induction entries with
  | nil => exact .refl _
  | cons entry rest ih =>
    obtain ⟨k, u⟩ := entry
    obtain ⟨hk, hrest⟩ := List.nodup_cons.1 h
    rw [put]
    split
    · rename_i hsame
      subst hsame
      have hgone : RecentPairs.without k ((k, u) :: rest) = RecentPairs.without k rest := by
        simp [RecentPairs.without]
      rw [hgone, RecentPairs.without_of_not_mem hk]
    · rename_i hne
      have hkept : RecentPairs.without key ((k, u) :: rest) =
          (k, u) :: RecentPairs.without key rest := by
        simp [RecentPairs.without, hne]
      rw [hkept]
      exact ((ih hrest).cons (k, u)).trans (.swap _ _ _)

namespace Lru

variable {ρ : Type} {capacity : Capacity} {keys : ρ → List ContentKey} {table : RecencyTable ρ}
variable {t : ρ} {s : Store} {pairs : List (ContentKey × Value)}

/-- The two tables hold between them what the list of pairs holds. -/
structure Holds (capacity : Capacity) (keys : ρ → List ContentKey) (s : ρ × Store)
    (pairs : List (ContentKey × Value)) : Prop where
  keys_eq : keys s.1 = pairs.map (·.1)
  entries_perm : s.2.entries.Perm pairs
  nodup : (pairs.map (·.1)).Nodup
  length_le : pairs.length ≤ capacity.val

theorem Holds.distinct (h : Holds capacity keys (t, s) pairs) : s.Distinct := by
  have hkeys : (s.entries.map (·.1)).Perm (pairs.map (·.1)) := h.entries_perm.map (·.1)
  exact hkeys.nodup_iff.2 h.nodup

theorem Holds.get?_eq (h : Holds capacity keys (t, s) pairs) (key : ContentKey) :
    s.get? key = Store.find key pairs :=
  Store.find_of_perm h.entries_perm h.nodup key

theorem Holds.put (htable : table.Keeps capacity keys) (id : String)
    (h : Holds capacity keys (t, s) pairs) (key : ContentKey) (v : Value) :
    Holds capacity keys (Lru.put table (Store.provider id) (t, s) key v).1
      (RecentPairs.put capacity key v pairs) := by
  obtain ⟨hkeys, hpairs⟩ := RecentPairs.put_eq_driven key v h.nodup h.length_le
  have hpush := (htable.push key t).1
  rw [h.keys_eq] at hpush
  have hfront := RecentPairs.nodup_front h.nodup key v
  have hinserted : (s.insert key v).entries.Perm ((key, v) :: RecentPairs.without key pairs) :=
    (Store.put_perm h.distinct v).trans ((h.entries_perm.filter _).cons _)
  rw [put_store htable, h.keys_eq]
  refine ⟨hpush.trans hkeys.symm, ?_, ?_, ?_⟩
  · rw [hpairs]
    cases Recency.driven capacity key (pairs.map (·.1)) with
    | none => exact hinserted
    | some old => exact hinserted.filter _
  · rw [hpairs]
    cases Recency.driven capacity key (pairs.map (·.1)) with
    | none => exact hfront
    | some old => exact hfront.sublist (List.filter_sublist.map _)
  · have hlength : (Recency.push capacity key (pairs.map (·.1))).1.length ≤ capacity.val := by
      apply Recency.length_push_le
      rw [List.length_map]
      exact h.length_le
    rw [← hkeys, List.length_map] at hlength
    exact hlength

theorem Holds.get (htable : table.Keeps capacity keys) (h : Holds capacity keys (t, s) pairs)
    (key : ContentKey) :
    Holds capacity keys (table.touch key t, s) (RecentPairs.use key pairs) := by
  have htouch := htable.touch key t
  rw [h.keys_eq] at htouch
  unfold RecentPairs.use
  cases hfind : Store.find key pairs with
  | none =>
    have hnew : key ∉ pairs.map (·.1) := Store.find_eq_none_iff.1 hfind
    rw [Recency.touch, if_neg hnew] at htouch
    exact ⟨htouch, h.entries_perm, h.nodup, h.length_le⟩
  | some v =>
    have hpair := Store.mem_of_find hfind
    have hmem : key ∈ pairs.map (·.1) := List.mem_map_of_mem hpair
    have hshort := RecentPairs.length_without_lt hmem
    have hlength := h.length_le
    refine ⟨?_, ?_, RecentPairs.nodup_front h.nodup key v, ?_⟩
    · change keys (table.touch key t) = _
      rw [htouch, Recency.touch, if_pos hmem, List.map_cons, RecentPairs.map_fst_without h.nodup]
    · exact h.entries_perm.trans (RecentPairs.perm_front h.nodup hpair)
    · rw [List.length_cons]
      omega

theorem Holds.remove (htable : table.Keeps capacity keys) (h : Holds capacity keys (t, s) pairs)
    (key : ContentKey) :
    Holds capacity keys (table.drop key t, s.erase key) (RecentPairs.without key pairs) where
  keys_eq := by
    rw [htable.drop, h.keys_eq, RecentPairs.map_fst_without h.nodup]
  entries_perm := h.entries_perm.filter _
  nodup := h.nodup.sublist (List.filter_sublist.map _)
  length_le := Nat.le_trans (List.length_filter_le _ _) h.length_le

theorem Holds.size_eq (h : Holds capacity keys (t, s) pairs) : s.size = pairs.length :=
  h.entries_perm.length_eq

theorem holds_empty (capacity : Capacity) (ht : keys t = []) :
    Holds capacity keys (t, .empty) [] where
  keys_eq := ht
  entries_perm := .refl []
  nodup := List.nodup_nil
  length_le := Nat.zero_le _

theorem Holds.call (htable : table.Keeps capacity keys) (id : String)
    (h : Holds capacity keys (t, s) pairs) (c : CacheCall) :
    ((layer table (Store.provider id)).call (t, s) c).2 =
        ((RecentPairs.provider id capacity).call pairs c).2 ∧
      Holds capacity keys ((layer table (Store.provider id)).call (t, s) c).1
        ((RecentPairs.provider id capacity).call pairs c).1 := by
  cases c with
  | get key => exact ⟨congrArg Except.ok (h.get?_eq key), h.get htable key⟩
  | put key v =>
    refine ⟨?_, h.put htable id key v⟩
    change (Lru.put table (Store.provider id) (t, s) key v).2.map _ = .ok none
    rw [put_store htable]
    rfl
  | remove key => exact ⟨congrArg Except.ok (h.get?_eq key), h.remove htable key⟩
  | clear => exact ⟨rfl, holds_empty capacity (htable.clear t)⟩

end Lru

/-- Two caches whose related states stay related and answer alike answer every
sequence of calls alike. -/
theorem Provider.trace_of_simulation {σ τ : Type} {d : Provider σ} {e : Provider τ}
    {R : σ → τ → Prop} (hsize : ∀ s t, R s t → d.size s = e.size t)
    (hcall : ∀ s t c, R s t → (d.call s c).2 = (e.call t c).2 ∧ R (d.call s c).1 (e.call t c).1)
    {s : σ} {t : τ} (h : R s t) (calls : List CacheCall) :
    d.trace s calls = e.trace t calls ∧ R (d.after s calls) (e.after t calls) := by
  induction calls generalizing s t with
  | nil => exact ⟨rfl, h⟩
  | cons c rest ih =>
    obtain ⟨hanswer, hstate⟩ := hcall s t c h
    obtain ⟨htrace, hafter⟩ := ih hstate
    rw [trace, trace, hanswer, hsize _ _ hstate, htrace]
    exact ⟨rfl, hafter⟩

/-- Eviction above an empty store answers every call, and has the size after it,
as the list of the most recent pairs does, whatever table of the capacity it
works with. The keys in use are those of the list and those of the store, in
their places, there are never more of them than the capacity says, and a key
that was just put is there. -/
theorem Lru.trace_over_store {ρ : Type} {capacity : Capacity} {table : RecencyTable ρ}
    {keys : ρ → List ContentKey} (htable : table.Keeps capacity keys) {t : ρ} (ht : keys t = [])
    (id : String) (calls : List CacheCall) :
    let cache := layer table (Store.provider id)
    let reference := RecentPairs.provider id capacity
    let s := cache.after (t, .empty) calls
    let pairs := reference.after [] calls
    cache.trace (t, .empty) calls = reference.trace [] calls ∧
      (pairs.map (·.1)).Nodup ∧ pairs.length ≤ capacity.val ∧
      keys s.1 = pairs.map (·.1) ∧ (∀ key, s.2.get? key = Store.find key pairs) ∧
      (∀ key, key ∈ keys s.1 ↔ s.2.get? key ≠ none) ∧ cache.size s ≤ capacity.val ∧
      ∀ key v, (cache.put s key v).2 = .ok () ∧ (cache.put s key v).1.2.get? key = some v := by
  intro cache reference s pairs
  obtain ⟨htrace, hafter⟩ : cache.trace (t, .empty) calls = reference.trace [] calls ∧
      Holds capacity keys s pairs :=
    Provider.trace_of_simulation (fun _ _ h => h.size_eq) (fun _ _ c h => h.call htable id c)
      (holds_empty capacity ht) calls
  have hsize : cache.size s = pairs.length := hafter.size_eq
  refine ⟨htrace, hafter.nodup, hafter.length_le, hafter.keys_eq, hafter.get?_eq, ?_, ?_, ?_⟩
  · intro key
    have hget : s.2.get? key = Store.find key pairs := hafter.get?_eq key
    rw [hafter.keys_eq, hget, Ne, Store.find_eq_none_iff, not_not]
  · rw [hsize]
    exact hafter.length_le
  · intro key v
    have hput : (cache.put s key v).2 = .ok () :=
      congrArg Prod.snd (put_store htable id s.1 s.2 key v)
    refine ⟨hput, ?_⟩
    have hkept : Holds capacity keys (cache.put s key v).1 (RecentPairs.put capacity key v pairs) :=
      hafter.put htable id key v
    rw [hkept.get?_eq, RecentPairs.find_put]

/-- The second put of "b" only replaces, though the cache is full; the put of
"c" drives out "b", which was used less recently than "a". -/
theorem Lru.trace_over_store_letters :
    let capacity : Capacity := ⟨2, by decide⟩
    let cache := layer (Recency.table capacity) (Store.provider "letters")
    let a : ContentKey := Key.ofList [.string "a"]
    let b : ContentKey := Key.ofList [.string "b"]
    let c : ContentKey := Key.ofList [.string "c"]
    let calls : List CacheCall := [.put a (.integer 1), .put b (.integer 2), .put b (.integer 3),
      .get a, .put c (.integer 4), .get b, .remove a, .put b (.integer 5)]
    (Recency.table capacity).Keeps capacity id ∧
      cache.trace ([], .empty) calls =
        (RecentPairs.provider "letters" capacity).trace [] calls ∧
      cache.size (cache.after ([], .empty) calls) ≤ 2 ∧
      cache.trace ([], .empty) calls = [(.ok none, 1), (.ok none, 2), (.ok none, 2),
        (.ok (some (.integer 1)), 2), (.ok none, 2), (.ok none, 2), (.ok (some (.integer 1)), 1),
        (.ok none, 2)] := by
  intro capacity cache a b c calls
  have hkeeps := Recency.table_keeps capacity
  obtain ⟨htrace, _, _, _, _, _, hsize, _⟩ :=
    Lru.trace_over_store hkeeps (t := []) rfl "letters" calls
  exact ⟨hkeeps, htrace, hsize, by decide⟩

end PropTree
