import Mathlib.Data.List.Induction
import PropTree.Cache.Locks
import PropTree.Proofs.Cache.Calls
import PropTree.Proofs.Cache.OverStore

set_option autoImplicit false

/-!
# Transactions over a layer of locks

A put unlocks its key even if it fails, and a key that was not put when a commit
failed is still remembered as missed, so it is unlocked by a remove.
-/

namespace PropTree

namespace Locks

variable {σ : Type}

theorem get_cases (timeout : Option Nat) (d : Provider σ) (locked : List ContentKey) (s : σ)
    (key : ContentKey) :
    (key ∈ locked ∧
      get timeout d (locked, s) key = ((locked, s), .error (blocked d.id timeout key))) ∨
    (key ∉ locked ∧ (d.get s key).2 = .ok none ∧
      get timeout d (locked, s) key = ((key :: locked, (d.get s key).1), .ok none)) ∨
    (key ∉ locked ∧ (d.get s key).2 ≠ .ok none ∧
      get timeout d (locked, s) key = ((locked, (d.get s key).1), (d.get s key).2)) := by
  unfold get
  cases htaken : acquire locked key with
  | none => exact .inl ⟨acquire_eq_none_iff.1 htaken, rfl⟩
  | some locked' =>
    obtain ⟨hfree, rfl⟩ := acquire_eq_some htaken
    have hgiven : release (key :: locked) key = locked := release_cons_self hfree
    obtain ⟨below, found⟩ := d.get s key
    rcases found with e | _ | v
    · refine .inr (.inr ⟨hfree, nofun, ?_⟩)
      simp only [hgiven]
    · exact .inr (.inl ⟨hfree, rfl, rfl⟩)
    · refine .inr (.inr ⟨hfree, by simp, ?_⟩)
      simp only [hgiven]

end Locks

namespace Transaction

variable {σ : Type} (timeout : Option Nat) (d : Provider σ)

theorem get_locks_cases (p : Pending) (locked : List ContentKey) (s : σ) (key : ContentKey) :
    let o := Transaction.get (Locks.provider timeout d) (p, locked, s) key
    (o.1.1 = p ∧ o.1.2.1 = locked) ∨ (o.1.1 = p.miss key ∧ o.1.2.1 = key :: locked) := by
  have hbelow : (Locks.provider timeout d).get (locked, s) key =
    Locks.get timeout d (locked, s) key := rfl
  unfold Transaction.get
  rw [hbelow]
  rcases Locks.get_cases timeout d locked s key with ⟨_, h⟩ | ⟨_, _, h⟩ | ⟨_, hfound, h⟩
  · rw [h]
    exact .inl ⟨rfl, rfl⟩
  · rw [h]
    exact .inr ⟨rfl, rfl⟩
  · rw [h]
    generalize (d.get s key).2 = found at hfound
    rcases found with e | _ | v
    · exact .inl ⟨rfl, rfl⟩
    · exact absurd rfl hfound
    · exact .inl ⟨rfl, rfl⟩

def lockedKeys (x : Pending × List ContentKey × σ) : List ContentKey := x.2.1

/-- The locked keys are those that were locked before the transaction and those
that it missed. -/
def Remembers (locked : List ContentKey) (x : Pending × List ContentKey × σ) : Prop :=
  ∀ key, key ∈ lockedKeys x ↔ key ∈ x.1.missed ∨ key ∈ locked

theorem remembers_call {locked : List ContentKey} {x : Pending × List ContentKey × σ}
    (h : Remembers locked x) (c : CacheCall) :
    Remembers locked ((provider (Locks.provider timeout d)).call x c).1 := by
  obtain ⟨p, now, s⟩ := x
  cases c with
  | get key =>
    intro k
    change k ∈ (Transaction.get (Locks.provider timeout d) (p, now, s) key).1.2.1 ↔
      k ∈ (Transaction.get (Locks.provider timeout d) (p, now, s) key).1.1.missed ∨ k ∈ locked
    have hk : k ∈ now ↔ k ∈ p.missed ∨ k ∈ locked := h k
    rcases get_locks_cases timeout d p now s key with ⟨hsame, hnow⟩ | ⟨hmiss, hnow⟩
    · rw [hsame, hnow]
      exact hk
    · rw [hmiss, hnow, List.mem_cons, Pending.mem_missed_miss, hk, or_assoc]
  | put key v => exact h
  | remove key => exact h
  | clear => exact h

theorem remembers_after (locked : List ContentKey) (s : σ) (calls : List CacheCall) :
    Remembers locked
      ((provider (Locks.provider timeout d)).after (.empty, locked, s) calls) := by
  induction calls using List.reverseRecOn with
  | nil =>
    intro key
    simp [Provider.after, Pending.empty, lockedKeys]
  | append_singleton calls c ih =>
    rw [Provider.after_concat]
    exact remembers_call timeout d ih c

/-! ### The end of a transaction -/

/-- A key that is locked after some puts was locked before them, and if it was
missed it still is. When no put failed, no key of theirs is locked. -/
theorem putAll_locks (locked missed : List ContentKey) (s : σ)
    (writes : List (ContentKey × Value)) :
    let o := putAll (Locks.provider timeout d) (locked, s) missed writes
    (∀ key ∈ o.1.2.1, key ∈ locked ∧ (key ∈ missed → key ∈ o.1.1)) ∧
      (o.2 = .ok () → ∀ key ∈ writes.map (·.1), key ∉ o.1.2.1) := by
  induction writes generalizing locked missed s with
  | nil => exact ⟨fun key hkey => ⟨hkey, id⟩, fun _ key hkey => nomatch hkey⟩
  | cons entry rest ih =>
    obtain ⟨k, v⟩ := entry
    have hput : (Locks.provider timeout d).put (locked, s) k v =
      ((Locks.release locked k, (d.put s k v).1), (d.put s k v).2) := rfl
    unfold putAll
    rw [hput]
    cases (d.put s k v).2 with
    | error e =>
      refine ⟨fun key hkey => ⟨(Locks.mem_release.1 hkey).2, id⟩, ?_⟩
      intro hok
      nomatch hok
    | ok _ =>
      obtain ⟨hkept, hdone⟩ := ih (Locks.release locked k) (missed.erase k) (d.put s k v).1
      refine ⟨fun key hkey => ?_, fun hok key hkey hlocked => ?_⟩
      · obtain ⟨hlocked, hmissed⟩ := hkept key hkey
        obtain ⟨hne, hlocked⟩ := Locks.mem_release.1 hlocked
        exact ⟨hlocked, fun hmem => hmissed ((List.mem_erase_of_ne hne).2 hmem)⟩
      · rcases List.mem_cons.1 hkey with hkey | hkey
        · exact (Locks.mem_release.1 (hkept key hlocked).1).1 hkey
        · exact hdone hok key hkey hlocked

theorem mem_release_locks {locked keys : List ContentKey} {s : σ} {key : ContentKey} :
    key ∈ (release (Locks.provider timeout d) (locked, s) keys).1 ↔
      key ∈ locked ∧ key ∉ keys := by
  induction keys generalizing locked with
  | nil => simp [release]
  | cons k rest ih =>
    change key ∈ (release (Locks.provider timeout d) (Locks.release locked k, s) rest).1 ↔ _
    rw [ih, Locks.mem_release, List.mem_cons, not_or]
    tauto

variable {order : FlushOrder} {p : Pending}

theorem mem_writes_of_missed (ho : order.Permutes) {key : ContentKey} (h : key ∈ p.missed) :
    key ∈ ((order.nulls p.unfilled).map (fun k => (k, Value.null)) ++
      order.entries p.entries.entries).map (·.1) := by
  rw [List.map_append, List.mem_append, List.map_map]
  cases hv : p.entries.get? key with
  | none =>
    have hunfilled : key ∈ order.nulls p.unfilled :=
      (ho.nulls _).mem_iff.2 (Pending.mem_unfilled.2 ⟨h, hv⟩)
    exact .inl (List.mem_map.2 ⟨key, hunfilled, rfl⟩)
  | some v =>
    have hentry : (key, v) ∈ order.entries p.entries.entries :=
      (ho.entries _).mem_iff.2 (Store.mem_of_find hv)
    exact .inr (List.mem_map.2 ⟨(key, v), hentry, rfl⟩)

theorem flush_locks (ho : order.Permutes) (locked : List ContentKey) (s : σ) :
    let o := flush order (Locks.provider timeout d) p (locked, s)
    (∀ key ∈ o.1.2.1, key ∈ locked ∧ (key ∈ p.missed → key ∈ o.1.1)) ∧
      (o.2 = .ok () → ∀ key ∈ p.missed, key ∉ o.1.2.1) := by
  have hputs := fun below : σ => putAll_locks timeout d locked p.missed below
    ((order.nulls p.unfilled).map (fun k => (k, Value.null)) ++ order.entries p.entries.entries)
  have hwritten := fun key (hkey : key ∈ p.missed) => mem_writes_of_missed ho hkey
  have hclear : (Locks.provider timeout d).clear (locked, s) =
    ((locked, (d.clear s).1), (d.clear s).2) := rfl
  unfold flush
  cases p.clearFirst with
  | false => exact ⟨(hputs s).1, fun hok key hkey => (hputs s).2 hok key (hwritten key hkey)⟩
  | true =>
    simp only [if_true, hclear]
    obtain ⟨below, cleared⟩ := d.clear s
    cases cleared with
    | error e => exact ⟨fun key hkey => ⟨hkey, id⟩, nofun⟩
    | ok _ =>
      exact ⟨(hputs below).1, fun hok key hkey => (hputs below).2 hok key (hwritten key hkey)⟩

theorem commitBy_locks (ho : order.Permutes) (p : Pending) (locked : List ContentKey) (s : σ)
    {key : ContentKey}
    (h : key ∈ lockedKeys (commitBy order (Locks.provider timeout d) (p, locked, s)).1) :
    key ∈ locked ∧ key ∉ p.missed := by
  obtain ⟨hkept, hdone⟩ := flush_locks timeout d (p := p) ho locked s
  unfold commitBy at h
  cases hflush : flush order (Locks.provider timeout d) p (locked, s) with
  | mk x result =>
    obtain ⟨missed, now, s'⟩ := x
    rw [hflush] at hkept hdone
    simp only [hflush] at h
    cases result with
    | ok _ => exact ⟨(hkept key h).1, fun hmissed => hdone rfl key hmissed h⟩
    | error e =>
      obtain ⟨hnow, hreleased⟩ := (mem_release_locks timeout d).1 h
      obtain ⟨hlocked, hmissed⟩ := hkept key hnow
      refine ⟨hlocked, fun hmem => hreleased ?_⟩
      exact (ho.released missed).mem_iff.2 (hmissed hmem)

theorem rollbackBy_locks (ho : order.Permutes) (p : Pending) (locked : List ContentKey) (s : σ)
    {key : ContentKey}
    (h : key ∈ lockedKeys (rollbackBy order (Locks.provider timeout d) (p, locked, s)).1) :
    key ∈ locked ∧ key ∉ p.missed := by
  obtain ⟨hlocked, hreleased⟩ := (mem_release_locks timeout d).1 h
  exact ⟨hlocked, fun hmem => hreleased ((ho.released p.missed).mem_iff.2 hmem)⟩

/-- One of the calls was a lookup that found the key free and left it locked. -/
def LeftLocked (l : Provider (List ContentKey × σ)) (start : Pending × List ContentKey × σ)
    (calls : List CacheCall) (key : ContentKey) : Prop :=
  ∃ before later, calls = before ++ .get key :: later ∧
    key ∉ lockedKeys ((provider l).after start before) ∧
    key ∈ lockedKeys ((provider l).after start (before ++ [.get key]))

variable {timeout d}

theorem LeftLocked.not_mem {locked : List ContentKey} {s : σ} {calls : List CacheCall}
    {key : ContentKey} (h : LeftLocked (Locks.provider timeout d) (.empty, locked, s) calls key) :
    key ∉ locked := by
  obtain ⟨before, later, -, hfree, -⟩ := h
  intro hlocked
  exact hfree ((remembers_after timeout d locked s before key).2 (.inr hlocked))

/-- Once a transaction has ended, no lookup of its own has a key locked: neither
after a rollback nor after a commit, whether the commit succeeded or the cache
below the locks failed it at some point. -/
theorem LeftLocked.unlocked {locked : List ContentKey} {s : σ} {calls : List CacheCall}
    {key : ContentKey} (h : LeftLocked (Locks.provider timeout d) (.empty, locked, s) calls key)
    (ho : order.Permutes) :
    let l := Locks.provider timeout d
    let session := (provider l).after (.empty, locked, s) calls
    key ∉ lockedKeys (commitBy order l session).1 ∧
      key ∉ lockedKeys (rollbackBy order l session).1 := by
  intro l session
  have hremembers : Remembers locked session := remembers_after timeout d locked s calls
  have hmine : key ∉ locked := h.not_mem
  obtain ⟨p, now, s'⟩ := session
  refine ⟨fun hlocked => ?_, fun hlocked => ?_⟩
  · obtain ⟨hnow, hmissed⟩ := commitBy_locks timeout d ho p now s' hlocked
    exact ((hremembers key).1 hnow).elim hmissed hmine
  · obtain ⟨hnow, hmissed⟩ := rollbackBy_locks timeout d ho p now s' hlocked
    exact ((hremembers key).1 hnow).elim hmissed hmine

def rationed (id : String) : Provider (Nat × Store) where
  id := id
  put s key v :=
    match s.1 with
    | 0 => (s, .error (.poisoned id))
    | n + 1 => ((n, s.2.insert key v), .ok ())
  get s key := (s, .ok (s.2.get? key))
  remove s key := ((s.1, s.2.erase key), .ok (s.2.get? key))
  clear s := ((s.1, .empty), .ok ())
  size s := s.2.size

/-- The commit puts a null under "a" and fails on the one under "c", so "b",
whose buffered value was to come last, is never put. -/
theorem unlocked_rationed :
    let l := Locks.provider (some 5) (rationed "names")
    let a : ContentKey := Key.ofList [.string "a"]
    let b : ContentKey := Key.ofList [.string "b"]
    let c : ContentKey := Key.ofList [.string "c"]
    let calls : List CacheCall := [.get a, .get b, .put b (.integer 1), .get c]
    let start := (Pending.empty, ([] : List ContentKey), (1, Store.empty))
    let session := (provider l).after start calls
    let committed := commitBy .stored l session
    lockedKeys session = [c, b, a] ∧ LeftLocked l start calls b ∧
      FlushOrder.stored.Permutes ∧ committed.2 = .error (.poisoned "names") ∧
      committed.1.2.2.2.get? a = some .null ∧ committed.1.2.2.2.get? b = none ∧
      b ∉ lockedKeys committed.1 ∧ b ∉ lockedKeys (rollbackBy .stored l session).1 := by
  intro l a b c calls start session committed
  have hleft : LeftLocked l start calls b :=
    ⟨[.get a], [.put b (.integer 1), .get c], rfl, by decide, by decide⟩
  have ho := FlushOrder.permutes_stored
  have hunlocked : b ∉ lockedKeys committed.1 ∧ b ∉ lockedKeys (rollbackBy .stored l session).1 :=
    hleft.unlocked ho
  exact ⟨by decide, hleft, ho, by decide, by decide, by decide, hunlocked⟩

end Transaction

end PropTree
