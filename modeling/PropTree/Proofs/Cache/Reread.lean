import PropTree.Proofs.Cache.OverLocks

set_option autoImplicit false

/-!
# Looking a key up again

The lock that a lookup in vain takes stays until the transaction ends, since what
the transaction puts meanwhile is only buffered.
-/

namespace PropTree

namespace Transaction

variable {id : String} {timeout : Option Nat} {s : Store} {calls : List CacheCall}

theorem get_locks_store (id : String) (timeout : Option Nat) (p : Pending)
    (locked : List ContentKey) (s : Store) (key : ContentKey) :
    Transaction.get (Locks.provider timeout (Store.provider id)) (p, locked, s) key =
      if key ∈ locked then ((p, locked, s), .error (Locks.blocked id timeout key))
      else if s.get? key = none then ((p.miss key, key :: locked, s), .ok none)
      else ((p, locked, s), .ok (if p.clearFirst then none else s.get? key)) := by
  have hbelow : (Locks.provider timeout (Store.provider id)).get (locked, s) key =
    Locks.get timeout (Store.provider id) (locked, s) key := rfl
  have hstore : (Store.provider id).get s key = (s, .ok (s.get? key)) := rfl
  unfold Transaction.get
  rw [hbelow]
  rcases Locks.get_cases timeout (Store.provider id) locked s key with
    ⟨hlocked, h⟩ | ⟨hfree, hmiss, h⟩ | ⟨hfree, hfound, h⟩
  · rw [h, if_pos hlocked]
    rfl
  · have hs : s.get? key = none := Except.ok.inj hmiss
    rw [h, if_neg hfree, if_pos hs, hstore]
    rfl
  · have hs : s.get? key ≠ none := fun hs => hfound (congrArg Except.ok hs)
    obtain ⟨v, hv⟩ := Option.ne_none_iff_exists'.1 hs
    rw [h, if_neg hfree, if_neg hs, hstore, hv]

/-- What a transaction knows and has locked after some calls over a store. -/
structure Waits (s : Store) (calls : List CacheCall) (p : Pending) (locked : List ContentKey) :
    Prop where
  clearFirst : p.clearFirst = true ↔ .clear ∈ calls
  locked : ∀ key, key ∈ locked ↔ .get key ∈ calls ∧ s.get? key = none

variable {p : Pending} {locked : List ContentKey}

theorem Waits.get (h : Waits s calls p locked) (id : String) (timeout : Option Nat)
    (key : ContentKey) :
    ∃ p' locked', (Transaction.get (Locks.provider timeout (Store.provider id))
        (p, locked, s) key).1 = (p', locked', s) ∧
      Waits s (calls ++ [.get key]) p' locked' := by
  have hsame (hkey : .get key ∈ calls ∧ s.get? key = none ∨ s.get? key ≠ none) :
      Waits s (calls ++ [.get key]) p locked := by
    refine ⟨by simp [h.clearFirst], fun other => ?_⟩
    rw [h.locked, List.mem_append, List.mem_singleton]
    constructor
    · exact fun hother => ⟨.inl hother.1, hother.2⟩
    · rintro ⟨hother | hother, habsent⟩
      · exact ⟨hother, habsent⟩
      · obtain rfl := CacheCall.get.inj hother
        exact hkey.resolve_right fun hpresent => hpresent habsent
  rw [get_locks_store]
  by_cases hlocked : key ∈ locked
  · rw [if_pos hlocked]
    exact ⟨p, locked, rfl, hsame (.inl ((h.locked key).1 hlocked))⟩
  · rw [if_neg hlocked]
    by_cases habsent : s.get? key = none
    · rw [if_pos habsent]
      refine ⟨p.miss key, key :: locked, rfl, by simp [h.clearFirst], fun other => ?_⟩
      rw [List.mem_cons, h.locked, List.mem_append, List.mem_singleton, CacheCall.get.injEq]
      constructor
      · rintro (rfl | hother)
        · exact ⟨.inr rfl, habsent⟩
        · exact ⟨.inl hother.1, hother.2⟩
      · rintro ⟨hother | hother, hs⟩
        · exact .inr ⟨hother, hs⟩
        · exact .inl hother
    · rw [if_neg habsent]
      exact ⟨p, locked, rfl, hsame (.inr habsent)⟩

theorem Waits.call (h : Waits s calls p locked) (id : String) (timeout : Option Nat)
    (c : CacheCall) :
    ∃ p' locked', ((provider (Locks.provider timeout (Store.provider id))).call
        (p, locked, s) c).1 = (p', locked', s) ∧ Waits s (calls ++ [c]) p' locked' := by
  cases c with
  | get key => exact h.get id timeout key
  | put key v => exact ⟨_, locked, rfl, by simp [h.clearFirst], by simp [h.locked]⟩
  | remove key => exact ⟨p, locked, rfl, by simp [h.clearFirst], by simp [h.locked]⟩
  | clear => exact ⟨_, locked, rfl, by simp, by simp [h.locked]⟩

theorem waits_after (id : String) (timeout : Option Nat) (s : Store) (calls : List CacheCall) :
    ∃ p locked, (provider (Locks.provider timeout (Store.provider id))).after (.empty, [], s)
        calls = (p, locked, s) ∧ Waits s calls p locked := by
  induction calls using List.reverseRecOn with
  | nil => exact ⟨.empty, [], rfl, by simp [Pending.empty], by simp⟩
  | append_singleton calls c ih =>
    obtain ⟨p, locked, hafter, h⟩ := ih
    rw [Provider.after_concat, hafter]
    exact h.call id timeout c

/-- The answer of a lookup after any calls of a transaction: it waits, in vain,
for each key that was looked up before and that the store does not have. -/
theorem get_after_locks (id : String) (timeout : Nat) (s : Store) (calls : List CacheCall)
    (key : ContentKey) :
    let d := provider (Locks.provider (some timeout) (Store.provider id))
    (d.get (d.after (.empty, [], s) calls) key).2 =
      if .get key ∈ calls ∧ s.get? key = none then .error (.lockTimeout id key timeout)
      else .ok (if .clear ∈ calls then none else s.get? key) := by
  intro d
  obtain ⟨p, locked, hafter, h⟩ := waits_after id (some timeout) s calls
  rw [hafter]
  change (Transaction.get (Locks.provider (some timeout) (Store.provider id)) _ key).2 = _
  rw [get_locks_store]
  simp only [h.locked, h.clearFirst]
  by_cases habsent : s.get? key = none
  · by_cases hagain : .get key ∈ calls
    · rw [if_pos ⟨hagain, habsent⟩, if_pos ⟨hagain, habsent⟩]
      rfl
    · simp [hagain, habsent]
  · simp [habsent]

/-- Each lookup that is answered with nothing is followed by a put of its key
before the key is looked up again. -/
def AnswersMisses (d : Provider (Pending × List ContentKey × Store)) (s : Store)
    (calls : List CacheCall) : Prop :=
  ∀ before key between later, calls = before ++ .get key :: (between ++ .get key :: later) →
    (d.get (d.after (.empty, [], s) before) key).2 = .ok none → ∃ v, .put key v ∈ between

theorem get_put_get_times_out :
    let d := provider (Locks.provider (some 5) (Store.provider "names"))
    let key : ContentKey := Key.ofList [.string "a"]
    let calls : List CacheCall := [.get key, .put key (.integer 1)]
    AnswersMisses d .empty (calls ++ [.get key]) ∧
      (d.get (d.after (.empty, [], .empty) calls) key).2 =
        .error (.lockTimeout "names" key 5) := by
  intro d key calls
  refine ⟨fun before k between later hcalls hmiss => ?_, by decide⟩
  rcases before with _ | ⟨_, _ | ⟨_, _ | ⟨_, before⟩⟩⟩
  · obtain ⟨hget, hrest⟩ := List.cons.inj hcalls
    obtain rfl := CacheCall.get.inj hget
    rcases between with _ | ⟨c, between⟩
    · nomatch hrest
    · exact ⟨.integer 1, (List.cons.inj hrest).1 ▸ List.mem_cons_self⟩
  · nomatch hcalls
  · obtain ⟨_, hrest⟩ := List.cons.inj hcalls
    simp at hrest
  · simp [calls] at hcalls

end Transaction

end PropTree
