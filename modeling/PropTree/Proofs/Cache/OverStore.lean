import PropTree.Cache.Transaction

set_option autoImplicit false

/-!
# Transactions over a store

The store takes everything that a commit writes, so what it then holds does not
depend on the order in which the tables are gone through.
-/

namespace PropTree

namespace Store

/-- No two entries have the same key, as in every store that is filled by
`insert`. -/
def Distinct (s : Store) : Prop := (s.entries.map (·.1)).Nodup

def insertAll (s : Store) (entries : List (ContentKey × Value)) : Store :=
  entries.foldl (fun s entry => s.insert entry.1 entry.2) s

variable {s : Store} {key : ContentKey} {v : Value} {entries entries' : List (ContentKey × Value)}

theorem distinct_empty : empty.Distinct := List.nodup_nil

theorem mem_keys_put {other : ContentKey} (h : other ∈ (put key v entries).map (·.1)) :
    other = key ∨ other ∈ entries.map (·.1) := by
  induction entries with
  | nil => exact .inl (List.mem_singleton.1 h)
  | cons entry rest ih =>
    obtain ⟨k, u⟩ := entry
    rw [put] at h
    split at h
    · rcases List.mem_cons.1 h with h | h
      · exact .inl h
      · exact .inr (List.mem_cons_of_mem _ h)
    · rcases List.mem_cons.1 h with h | h
      · exact .inr (h ▸ List.mem_cons_self)
      · exact (ih h).imp id (List.mem_cons_of_mem _)

theorem Distinct.insert (h : s.Distinct) (key : ContentKey) (v : Value) :
    (s.insert key v).Distinct := by
  obtain ⟨entries⟩ := s
  change (entries.map (·.1)).Nodup at h
  change ((put key v entries).map (·.1)).Nodup
  induction entries with
  | nil => exact List.pairwise_singleton _ key
  | cons entry rest ih =>
    obtain ⟨k, u⟩ := entry
    obtain ⟨hk, hrest⟩ := List.nodup_cons.1 h
    rw [put]
    split
    · rename_i hsame
      subst hsame
      exact List.nodup_cons.2 ⟨hk, hrest⟩
    · rename_i hne
      refine List.nodup_cons.2 ⟨fun hmem => ?_, ih hrest⟩
      exact (mem_keys_put hmem).elim hne hk

theorem mem_of_find (h : find key entries = some v) : (key, v) ∈ entries := by
  induction entries with
  | nil => nomatch h
  | cons entry rest ih =>
    obtain ⟨k, u⟩ := entry
    rw [find] at h
    split at h
    · rename_i hk
      obtain rfl := Option.some.inj h
      exact hk ▸ List.mem_cons_self
    · exact List.mem_cons_of_mem _ (ih h)

theorem find_eq_none_iff : find key entries = none ↔ key ∉ entries.map (·.1) := by
  induction entries with
  | nil => simp [find]
  | cons entry rest ih =>
    obtain ⟨k, u⟩ := entry
    rw [find, List.map_cons, List.mem_cons, not_or]
    by_cases hk : k = key
    · simp [hk]
    · rw [if_neg hk, ih]
      exact ⟨fun h => ⟨Ne.symm hk, h⟩, fun h => h.2⟩

theorem find_of_mem (hd : (entries.map (·.1)).Nodup) (h : (key, v) ∈ entries) :
    find key entries = some v := by
  induction entries with
  | nil => nomatch h
  | cons entry rest ih =>
    obtain ⟨k, u⟩ := entry
    obtain ⟨hk, hrest⟩ := List.nodup_cons.1 hd
    rw [find]
    rcases List.mem_cons.1 h with h | h
    · obtain ⟨rfl, rfl⟩ := Prod.mk.inj h
      rw [if_pos rfl]
    · have hmem : key ∈ rest.map (·.1) := List.mem_map_of_mem h
      have hne : k ≠ key := fun hsame => hk (hsame ▸ hmem)
      rw [if_neg hne]
      exact ih hrest h

theorem find_of_perm (h : entries'.Perm entries) (hd : (entries.map (·.1)).Nodup)
    (key : ContentKey) : find key entries' = find key entries := by
  have hd' : (entries'.map (·.1)).Nodup := (h.map (·.1)).nodup_iff.2 hd
  cases hv : find key entries with
  | some v => exact find_of_mem hd' (h.mem_iff.2 (mem_of_find hv))
  | none =>
    rw [find_eq_none_iff] at hv ⊢
    exact fun hmem => hv ((h.map (·.1)).mem_iff.1 hmem)

theorem get?_insertAll (hd : (entries.map (·.1)).Nodup) (s : Store) (key : ContentKey) :
    (s.insertAll entries).get? key = (find key entries).or (s.get? key) := by
  induction entries generalizing s with
  | nil => rfl
  | cons entry rest ih =>
    obtain ⟨k, u⟩ := entry
    obtain ⟨hk, hrest⟩ := List.nodup_cons.1 hd
    change ((s.insert k u).insertAll rest).get? key = _
    rw [ih hrest, get?_insert, find]
    by_cases hkey : k = key
    · subst hkey
      rw [if_pos rfl, if_pos rfl, find_eq_none_iff.2 hk]
      rfl
    · rw [if_neg hkey, if_neg hkey]

theorem get?_insertAll_nulls (keys : List ContentKey) (s : Store) (key : ContentKey) :
    (s.insertAll (keys.map fun key => (key, .null))).get? key =
      if key ∈ keys then some .null else s.get? key := by
  induction keys generalizing s with
  | nil => rfl
  | cons k rest ih =>
    change ((s.insert k .null).insertAll (rest.map fun key => (key, .null))).get? key = _
    rw [ih, get?_insert]
    by_cases hkey : k = key
    · simp [hkey]
    · simp [hkey, Ne.symm hkey]

theorem insertAll_append (s : Store) (entries entries' : List (ContentKey × Value)) :
    s.insertAll (entries ++ entries') = (s.insertAll entries).insertAll entries' :=
  List.foldl_append

theorem erase_of_get?_none (h : s.get? key = none) : s.erase key = s := by
  obtain ⟨entries⟩ := s
  have hkey : key ∉ entries.map (·.1) := find_eq_none_iff.1 h
  refine congrArg Store.mk (List.filter_eq_self.2 fun entry hentry => ?_)
  refine decide_eq_true fun hsame => hkey ?_
  exact hsame ▸ List.mem_map_of_mem hentry

end Store

/-- Each table is gone through once, entry by entry. -/
structure FlushOrder.Permutes (order : FlushOrder) : Prop where
  nulls : ∀ keys, (order.nulls keys).Perm keys
  entries : ∀ entries, (order.entries entries).Perm entries
  released : ∀ keys, (order.released keys).Perm keys

theorem FlushOrder.permutes_stored : FlushOrder.stored.Permutes :=
  ⟨fun _ => .refl _, fun _ => .refl _, fun _ => .refl _⟩

namespace Pending

theorem mem_unfilled {p : Pending} {key : ContentKey} :
    key ∈ p.unfilled ↔ key ∈ p.missed ∧ p.entries.get? key = none := by
  rw [unfilled, List.mem_filter, Store.contains]
  cases p.entries.get? key <;> simp

def miss (p : Pending) (key : ContentKey) : Pending :=
  if key ∈ p.missed then p else { p with missed := p.missed ++ [key] }

@[simp] theorem miss_clearFirst (p : Pending) (key : ContentKey) :
    (p.miss key).clearFirst = p.clearFirst := by
  unfold miss
  split <;> rfl

@[simp] theorem miss_entries (p : Pending) (key : ContentKey) :
    (p.miss key).entries = p.entries := by
  unfold miss
  split <;> rfl

theorem mem_missed_miss {p : Pending} {key other : ContentKey} :
    other ∈ (p.miss key).missed ↔ other = key ∨ other ∈ p.missed := by
  unfold miss
  split
  · rename_i hmem
    constructor
    · exact .inr
    · rintro (rfl | h)
      · exact hmem
      · exact h
  · rw [List.mem_append, List.mem_singleton, or_comm]

end Pending

namespace Transaction

variable {order : FlushOrder} {p : Pending}

theorem get_store (id : String) (p : Pending) (s : Store) (key : ContentKey) :
    get (Store.provider id) (p, s) key =
      ((if s.get? key = none then p.miss key else p, s),
        .ok (if p.clearFirst then none else s.get? key)) := by
  have hget : (Store.provider id).get s key = (s, .ok (s.get? key)) := rfl
  unfold get
  rw [hget]
  cases hs : s.get? key with
  | none =>
    rw [if_pos rfl, ite_self]
    rfl
  | some v => simp only [reduceCtorEq, if_false]

theorem putAll_store (id : String) (s : Store) (missed : List ContentKey)
    (writes : List (ContentKey × Value)) :
    ∃ missed', putAll (Store.provider id) s missed writes =
      ((missed', s.insertAll writes), .ok ()) := by
  induction writes generalizing s missed with
  | nil => exact ⟨missed, rfl⟩
  | cons entry rest ih => exact ih (s.insert entry.1 entry.2) (missed.erase entry.1)

theorem flush_store (id : String) (order : FlushOrder) (p : Pending) (s : Store) :
    ∃ missed', flush order (Store.provider id) p s =
      ((missed', ((if p.clearFirst then .empty else s).insertAll
        ((order.nulls p.unfilled).map fun key => (key, Value.null))).insertAll
          (order.entries p.entries.entries)), .ok ()) := by
  rw [← Store.insertAll_append]
  unfold flush
  cases p.clearFirst with
  | false => exact putAll_store id s p.missed _
  | true => exact putAll_store id .empty p.missed _

theorem commitBy_store (id : String) (ho : order.Permutes) (hp : p.entries.Distinct) (s : Store) :
    ∃ s', commitBy order (Store.provider id) (p, s) = ((.empty, s'), .ok ()) ∧
      ∀ key, s'.get? key = (p.entries.get? key).or
        (if key ∈ p.missed then some .null else if p.clearFirst then none else s.get? key) := by
  obtain ⟨missed', hflush⟩ := flush_store id order p s
  refine ⟨_, by rw [commitBy, hflush], fun key => ?_⟩
  have hperm := ho.entries p.entries.entries
  have hbuffered : (p.entries.entries.map (·.1)).Nodup := hp
  have hd : ((order.entries p.entries.entries).map (·.1)).Nodup :=
    (hperm.map (·.1)).nodup_iff.2 hbuffered
  have hmem : key ∈ order.nulls p.unfilled ↔ key ∈ p.missed ∧ p.entries.get? key = none := by
    rw [(ho.nulls _).mem_iff, Pending.mem_unfilled]
  rw [Store.get?_insertAll hd, Store.find_of_perm hperm hbuffered, Store.get?_insertAll_nulls]
  change (p.entries.get? key).or _ = _
  cases hv : p.entries.get? key with
  | some v => rfl
  | none =>
    rw [hv] at hmem
    simp only [hmem, and_true, Option.none_or]
    split
    · rfl
    · cases p.clearFirst <;> rfl

theorem commitBy_empty (id : String) (ho : order.Permutes) (s : Store) :
    commitBy order (Store.provider id) (.empty, s) = ((.empty, s), .ok ()) := by
  have hnulls : order.nulls [] = [] := (ho.nulls []).eq_nil
  have hentries : order.entries [] = [] := (ho.entries []).eq_nil
  obtain ⟨missed', hflush⟩ := flush_store id order .empty s
  change flush order (Store.provider id) .empty s = ((missed', (s.insertAll
    ((order.nulls []).map fun key => (key, Value.null))).insertAll (order.entries [])), .ok ())
    at hflush
  rw [hnulls, hentries] at hflush
  rw [commitBy, hflush]
  rfl

theorem get?_release (id : String) (keys : List ContentKey) (s : Store) (key : ContentKey) :
    (release (Store.provider id) s keys).get? key = if key ∈ keys then none else s.get? key := by
  induction keys generalizing s with
  | nil => rfl
  | cons k rest ih =>
    change (release (Store.provider id) (s.erase k) rest).get? key = _
    rw [ih, Store.get?_erase]
    by_cases hkey : k = key
    · simp [hkey]
    · simp [hkey, Ne.symm hkey]

theorem release_of_absent (id : String) {keys : List ContentKey} {s : Store}
    (h : ∀ key ∈ keys, s.get? key = none) : release (Store.provider id) s keys = s := by
  induction keys with
  | nil => rfl
  | cons k rest ih =>
    change release (Store.provider id) (s.erase k) rest = s
    rw [Store.erase_of_get?_none (h k List.mem_cons_self)]
    exact ih fun key hkey => h key (List.mem_cons_of_mem k hkey)

end Transaction

end PropTree
