import Mathlib.Data.List.DropRight
import PropTree.Proofs.Cache.Calls
import PropTree.Proofs.Cache.OverStore

set_option autoImplicit false

/-!
# A transaction is a buffered overlay
-/

namespace PropTree

namespace Transaction

def putUnder (key : ContentKey) : CacheCall → Option Value
  | .put other v => if other = key then some v else none
  | _ => none

def sinceClear (calls : List CacheCall) : List CacheCall :=
  calls.rtakeWhile fun c => c ≠ .clear

/-- The last value put under a key since the last clear. -/
def lastPut (calls : List CacheCall) (key : ContentKey) : Option Value :=
  ((sinceClear calls).filterMap (putUnder key)).getLast?

/-- What a store holds under a key after a transaction of these calls was
committed to it. -/
def overlay (s : Store) (calls : List CacheCall) (key : ContentKey) : Option Value :=
  (lastPut calls key).or
    (if .get key ∈ calls ∧ s.get? key = none then some .null
      else if .clear ∈ calls then none else s.get? key)

variable {s : Store} {calls : List CacheCall} {key : ContentKey}

theorem sinceClear_concat {c : CacheCall} (h : c ≠ .clear) :
    sinceClear (calls ++ [c]) = sinceClear calls ++ [c] :=
  List.rtakeWhile_concat_pos _ _ _ (decide_eq_true h)

theorem lastPut_clear (calls : List CacheCall) (key : ContentKey) :
    lastPut (calls ++ [.clear]) key = none := by
  have hempty : sinceClear (calls ++ [.clear]) = [] :=
    List.rtakeWhile_concat_neg _ _ _ (by simp)
  rw [lastPut, hempty]
  rfl

theorem lastPut_put (calls : List CacheCall) (key other : ContentKey) (v : Value) :
    lastPut (calls ++ [.put key v]) other =
      if key = other then some v else lastPut calls other := by
  have hne : CacheCall.put key v ≠ .clear := nofun
  rw [lastPut, sinceClear_concat hne, List.filterMap_append]
  by_cases h : key = other
  · simp [putUnder, h]
  · simp [putUnder, h, lastPut]

theorem lastPut_of_putUnder_none {c : CacheCall} (hclear : c ≠ .clear)
    (h : putUnder key c = none) : lastPut (calls ++ [c]) key = lastPut calls key := by
  rw [lastPut, sinceClear_concat hclear, List.filterMap_append]
  simp [h, lastPut]

structure Buffers (s : Store) (calls : List CacheCall) (p : Pending) : Prop where
  clearFirst : p.clearFirst = true ↔ .clear ∈ calls
  missed : ∀ key, key ∈ p.missed ↔ .get key ∈ calls ∧ s.get? key = none
  entries : ∀ key, p.entries.get? key = lastPut calls key
  distinct : p.entries.Distinct

theorem buffers_empty (s : Store) : Buffers s [] .empty where
  clearFirst := by simp [Pending.empty]
  missed := by simp [Pending.empty]
  entries _ := rfl
  distinct := Store.distinct_empty

variable {p : Pending}

theorem Buffers.get (h : Buffers s calls p) (key : ContentKey) :
    Buffers s (calls ++ [.get key]) (if s.get? key = none then p.miss key else p) where
  clearFirst := by
    split <;> simp [h.clearFirst]
  missed := by
    intro other
    by_cases hkey : other = key
    · subst hkey
      by_cases hs : s.get? other = none
      · simp [hs, Pending.mem_missed_miss]
      · simp [hs, h.missed]
    · split <;> simp [hkey, h.missed, Pending.mem_missed_miss]
  entries := by
    intro other
    have hne : CacheCall.get key ≠ .clear := nofun
    rw [lastPut_of_putUnder_none hne rfl, ← h.entries]
    split <;> simp
  distinct := by
    split
    · rw [Pending.miss_entries]
      exact h.distinct
    · exact h.distinct

theorem Buffers.put (h : Buffers s calls p) (key : ContentKey) (v : Value) :
    Buffers s (calls ++ [.put key v]) { p with entries := p.entries.insert key v } where
  clearFirst := by simp [h.clearFirst]
  missed := by simp [h.missed]
  entries := by
    intro other
    rw [lastPut_put, ← h.entries]
    exact Store.get?_insert p.entries key other v
  distinct := h.distinct.insert key v

theorem Buffers.remove (h : Buffers s calls p) (key : ContentKey) :
    Buffers s (calls ++ [.remove key]) p where
  clearFirst := by simp [h.clearFirst]
  missed := by simp [h.missed]
  entries := by
    intro other
    have hne : CacheCall.remove key ≠ .clear := nofun
    rw [lastPut_of_putUnder_none hne rfl, ← h.entries]
  distinct := h.distinct

theorem Buffers.clear (h : Buffers s calls p) :
    Buffers s (calls ++ [.clear]) { p with clearFirst := true, entries := .empty } where
  clearFirst := by simp
  missed := by simp [h.missed]
  entries := by
    intro other
    rw [lastPut_clear]
    rfl
  distinct := Store.distinct_empty

theorem Buffers.call (h : Buffers s calls p) (id : String) (c : CacheCall) :
    ∃ p', ((provider (Store.provider id)).call (p, s) c).1 = (p', s) ∧
      Buffers s (calls ++ [c]) p' := by
  cases c with
  | get key =>
    refine ⟨_, ?_, h.get key⟩
    change (Transaction.get (Store.provider id) (p, s) key).1 = _
    rw [get_store]
  | put key v => exact ⟨_, rfl, h.put key v⟩
  | remove key => exact ⟨_, rfl, h.remove key⟩
  | clear => exact ⟨_, rfl, h.clear⟩

theorem buffers_after (id : String) (s : Store) (calls : List CacheCall) :
    ∃ p, (provider (Store.provider id)).after (.empty, s) calls = (p, s) ∧
      Buffers s calls p := by
  induction calls using List.reverseRecOn with
  | nil => exact ⟨.empty, rfl, buffers_empty s⟩
  | append_singleton calls c ih =>
    obtain ⟨p, hafter, hp⟩ := ih
    rw [Provider.after_concat, hafter]
    exact hp.call id c

/-- Over a store `s` that nobody else uses, whatever a transaction was called
for: the store is as it was, a lookup answers what the store holds unless there
was a clear, a rollback changes nothing, and a commit leaves the overlay. After
either there is nothing more to commit. -/
theorem commitBy_overlay (id : String) (s : Store) (calls : List CacheCall)
    {order again : FlushOrder} (ho : order.Permutes) (ha : again.Permutes) :
    let d := provider (Store.provider id)
    let session := d.after (.empty, s) calls
    session.2 = s ∧
      (∀ key, (d.get session key).2 = .ok (if .clear ∈ calls then none else s.get? key)) ∧
      rollbackBy order (Store.provider id) session = ((.empty, s), .ok ()) ∧
      commitBy again (Store.provider id) (.empty, s) = ((.empty, s), .ok ()) ∧
      ∃ s', commitBy order (Store.provider id) session = ((.empty, s'), .ok ()) ∧
        (∀ key, s'.get? key = overlay s calls key) ∧
        commitBy again (Store.provider id) (.empty, s') = ((.empty, s'), .ok ()) := by
  intro d session
  obtain ⟨p, hafter, hp⟩ := buffers_after id s calls
  have hsession : session = (p, s) := hafter
  rw [hsession]
  refine ⟨rfl, fun key => ?_, ?_, commitBy_empty id ha s, ?_⟩
  · change (Transaction.get (Store.provider id) (p, s) key).2 = _
    rw [get_store]
    simp only [hp.clearFirst]
  · have habsent : ∀ key ∈ order.released p.missed, s.get? key = none := fun key hkey =>
      ((hp.missed key).1 ((ho.released p.missed).mem_iff.1 hkey)).2
    rw [rollbackBy, release_of_absent id habsent]
  · obtain ⟨s', hcommit, hs'⟩ := commitBy_store id ho hp.distinct s
    refine ⟨s', hcommit, fun key => ?_, commitBy_empty id ha s'⟩
    rw [hs', overlay, hp.entries]
    simp only [hp.missed, hp.clearFirst]

def backwards : FlushOrder := ⟨List.reverse, List.reverse, List.reverse⟩

theorem permutes_backwards : backwards.Permutes :=
  ⟨List.reverse_perm, List.reverse_perm, List.reverse_perm⟩

def nameKey (name : String) : ContentKey := Key.ofList [.string name]

theorem commitBy_overlay_names :
    let s : Store := ⟨[(nameKey "a", .integer 1)]⟩
    let calls : List CacheCall := [.get (nameKey "a"), .get (nameKey "b"),
      .put (nameKey "b") (.integer 2), .clear, .get (nameKey "c"), .put (nameKey "d") (.integer 3),
      .put (nameKey "d") (.integer 4)]
    let session := (provider (Store.provider "names")).after (.empty, s) calls
    backwards.Permutes ∧ FlushOrder.stored.Permutes ∧ session.2 = s ∧
      ∃ s', commitBy backwards (Store.provider "names") session = ((.empty, s'), .ok ()) ∧
        s'.get? (nameKey "a") = none ∧ s'.get? (nameKey "b") = some .null ∧
        s'.get? (nameKey "c") = some .null ∧ s'.get? (nameKey "d") = some (.integer 4) := by
  intro s calls session
  obtain ⟨hbelow, _, _, _, s', hcommit, hs', _⟩ :=
    commitBy_overlay "names" s calls permutes_backwards FlushOrder.permutes_stored
  refine ⟨permutes_backwards, FlushOrder.permutes_stored, hbelow, s', hcommit, ?_⟩
  simp only [hs']
  decide

end Transaction

end PropTree
