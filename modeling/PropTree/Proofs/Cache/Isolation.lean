import Mathlib.Data.List.Induction
import Mathlib.Logic.Function.Basic
import PropTree.Proofs.Cache.Calls
import PropTree.Proofs.Cache.OverStore

set_option autoImplicit false

/-!
# Several transactions over one store

What a transaction has buffered goes back to a call that it made since it last
ended, so every loss in the store goes back to such a call.
-/

namespace PropTree

namespace Transaction

inductive Action where
  | call (c : CacheCall)
  | commit (order : FlushOrder) (permutes : order.Permutes)
  | rollback (order : FlushOrder) (permutes : order.Permutes)

namespace Action

def commits : Action → Bool
  | .commit .. => true
  | _ => false

def rollsBack : Action → Bool
  | .rollback .. => true
  | _ => false

def run (id : String) (s : Pending × Store) : Action → Pending × Store
  | .call c => ((provider (Store.provider id)).call s c).1
  | .commit order _ => (commitBy order (Store.provider id) s).1
  | .rollback order _ => (rollbackBy order (Store.provider id) s).1

end Action

structure Sessions (ι : Type) where
  pending : ι → Pending
  shared : Store

namespace Sessions

variable {ι : Type}

def start (shared : Store) : Sessions ι := ⟨fun _ => .empty, shared⟩

variable [DecidableEq ι]

def act (id : String) (s : Sessions ι) (e : ι × Action) : Sessions ι :=
  let o := e.2.run id (s.pending e.1, s.shared)
  ⟨Function.update s.pending e.1 o.1, o.2⟩

def after (id : String) (shared : Store) (history : List (ι × Action)) : Sessions ι :=
  history.foldl (act id) (start shared)

/-- Transaction `i` made such a call, over the store as it then was, and has not
ended since. -/
def HasCalled (id : String) (shared : Store) (history : List (ι × Action)) (i : ι)
    (P : Store → CacheCall → Prop) : Prop :=
  ∃ before c later, history = before ++ (i, .call c) :: later ∧
    P (after id shared before).shared c ∧
    ∀ e ∈ later, e.1 = i → e.2.commits = false ∧ e.2.rollsBack = false

def Puts (key : ContentKey) (_ : Store) (c : CacheCall) : Prop := ∃ v, c = .put key v

def Clears (_ : Store) (c : CacheCall) : Prop := c = .clear

def Misses (key : ContentKey) (s : Store) (c : CacheCall) : Prop := c = .get key ∧ s.get? key = none

variable {id : String} {shared : Store} {history : List (ι × Action)} {i : ι}
variable {P : Store → CacheCall → Prop}

theorem after_concat (id : String) (shared : Store) (history : List (ι × Action))
    (e : ι × Action) :
    after id shared (history ++ [e]) = act id (after id shared history) e := by
  rw [after, List.foldl_append]
  rfl

theorem hasCalled_concat {c : CacheCall} (h : P (after id shared history).shared c) :
    HasCalled id shared (history ++ [(i, .call c)]) i P :=
  ⟨history, c, [], rfl, h, fun _ he => nomatch he⟩

theorem HasCalled.concat {e : ι × Action} (h : HasCalled id shared history i P)
    (he : e.1 = i → e.2.commits = false ∧ e.2.rollsBack = false) :
    HasCalled id shared (history ++ [e]) i P := by
  obtain ⟨before, c, later, rfl, hP, hlater⟩ := h
  refine ⟨before, c, later ++ [e], by simp, hP, fun other hother => ?_⟩
  rcases List.mem_append.1 hother with hother | hother
  · exact hlater other hother
  · exact List.mem_singleton.1 hother ▸ he

variable {s : Sessions ι}

theorem HasCalled.exists_mem (h : HasCalled id shared history i P) :
    ∃ s c, (i, .call c) ∈ history ∧ P s c := by
  obtain ⟨before, c, later, rfl, hP, -⟩ := h
  exact ⟨_, c, by simp, hP⟩

theorem act_pending_self (id : String) (s : Sessions ι) (i : ι) (a : Action) :
    (act id s (i, a)).pending i = (a.run id (s.pending i, s.shared)).1 :=
  Function.update_self ..

theorem act_pending_of_ne {e : ι × Action} (h : i ≠ e.1) :
    (act id s e).pending i = s.pending i :=
  Function.update_of_ne h ..

theorem act_call_shared (id : String) (s : Sessions ι) (i : ι) (c : CacheCall) :
    (act id s (i, .call c)).shared = s.shared := by
  cases c with
  | get key =>
    change (Transaction.get (Store.provider id) _ key).1.2 = _
    rw [get_store]
  | put key v => rfl
  | remove key => rfl
  | clear => rfl

theorem act_commit (id : String) {order : FlushOrder} (permutes : order.Permutes)
    (h : (s.pending i).entries.Distinct) :
    (act id s (i, .commit order permutes)).pending i = .empty ∧
      ∀ key, (act id s (i, .commit order permutes)).shared.get? key =
        ((s.pending i).entries.get? key).or (if key ∈ (s.pending i).missed then some .null
          else if (s.pending i).clearFirst then none else s.shared.get? key) := by
  obtain ⟨s', hcommit, hs'⟩ := commitBy_store id permutes h s.shared
  rw [act_pending_self, act, Action.run, hcommit]
  exact ⟨rfl, hs'⟩

theorem act_rollback (id : String) (s : Sessions ι) (i : ι) {order : FlushOrder}
    (permutes : order.Permutes) :
    (act id s (i, .rollback order permutes)).pending i = .empty ∧
      ∀ key, (act id s (i, .rollback order permutes)).shared.get? key =
        if key ∈ (s.pending i).missed then none else s.shared.get? key := by
  refine ⟨act_pending_self .., fun key => ?_⟩
  change (release (Store.provider id) s.shared (order.released (s.pending i).missed)).get? key = _
  rw [get?_release, if_congr (permutes.released (s.pending i).missed).mem_iff rfl rfl]

/-- Each entry of the tables of transaction `i` has a call that it stands for. -/
structure Tracked (id : String) (shared : Store) (history : List (ι × Action)) (i : ι)
    (p : Pending) : Prop where
  entries : ∀ key, p.entries.get? key ≠ none → HasCalled id shared history i (Puts key)
  clearFirst : p.clearFirst = true → HasCalled id shared history i Clears
  missed : ∀ key ∈ p.missed, HasCalled id shared history i (Misses key)
  distinct : p.entries.Distinct

variable {p : Pending}

theorem tracked_empty (id : String) (shared : Store) (history : List (ι × Action)) (i : ι) :
    Tracked id shared history i .empty where
  entries _ h := absurd rfl h
  clearFirst h := nomatch h
  missed _ h := nomatch h
  distinct := Store.distinct_empty

theorem Tracked.concat {e : ι × Action} (h : Tracked id shared history i p)
    (he : e.1 = i → e.2.commits = false ∧ e.2.rollsBack = false) :
    Tracked id shared (history ++ [e]) i p where
  entries key hkey := (h.entries key hkey).concat he
  clearFirst hclear := (h.clearFirst hclear).concat he
  missed key hkey := (h.missed key hkey).concat he
  distinct := h.distinct

theorem Tracked.miss {key : ContentKey} (h : Tracked id shared history i p)
    (habsent : (after id shared history).shared.get? key = none) :
    Tracked id shared (history ++ [(i, .call (.get key))]) i (p.miss key) := by
  have hsame : Tracked id shared (history ++ [(i, .call (.get key))]) i p :=
    h.concat fun _ => ⟨rfl, rfl⟩
  constructor
  · rw [Pending.miss_entries]
    exact hsame.entries
  · rw [Pending.miss_clearFirst]
    exact hsame.clearFirst
  · intro other hother
    rcases Pending.mem_missed_miss.1 hother with rfl | hother
    · exact hasCalled_concat ⟨rfl, habsent⟩
    · exact hsame.missed other hother
  · rw [Pending.miss_entries]
    exact hsame.distinct

theorem Tracked.call (h : Tracked id shared history i p) (c : CacheCall) :
    Tracked id shared (history ++ [(i, .call c)]) i
      ((Action.call c).run id (p, (after id shared history).shared)).1 := by
  have hsame : Tracked id shared (history ++ [(i, .call c)]) i p :=
    h.concat fun _ => ⟨rfl, rfl⟩
  cases c with
  | get key =>
    change Tracked _ _ _ _ (Transaction.get (Store.provider id) _ key).1.1
    rw [get_store]
    change Tracked _ _ _ _ (if (after id shared history).shared.get? key = none then p.miss key
      else p)
    split
    · rename_i habsent
      exact h.miss habsent
    · exact hsame
  | put key v =>
    refine ⟨fun other hother => ?_, hsame.clearFirst, hsame.missed, h.distinct.insert key v⟩
    change (p.entries.insert key v).get? other ≠ none at hother
    rw [Store.get?_insert] at hother
    by_cases hkey : key = other
    · subst hkey
      exact hasCalled_concat ⟨v, rfl⟩
    · rw [if_neg hkey] at hother
      exact hsame.entries other hother
  | remove key => exact hsame
  | clear =>
    exact ⟨fun _ hother => absurd rfl hother, fun _ => hasCalled_concat rfl, hsame.missed,
      Store.distinct_empty⟩

theorem tracked_after (id : String) (shared : Store) (history : List (ι × Action)) (i : ι) :
    Tracked id shared history i ((after id shared history).pending i) := by
  induction history using List.reverseRecOn with
  | nil => exact tracked_empty id shared [] i
  | append_singleton history e ih =>
    obtain ⟨j, a⟩ := e
    rw [after_concat]
    by_cases hij : i = j
    · subst hij
      cases a with
      | call c =>
        rw [act_pending_self]
        exact ih.call c
      | commit order permutes =>
        rw [(act_commit id permutes ih.distinct).1]
        exact tracked_empty id shared _ i
      | rollback order permutes =>
        rw [(act_rollback id _ i permutes).1]
        exact tracked_empty id shared _ i
    · rw [act_pending_of_ne hij]
      exact ih.concat fun hji => absurd hji.symm hij

/-- A value in the store is lost only to the commit of a transaction that put its
key or cleared, or to the end of one that missed the key, all since the last end
of that transaction. The one that missed leaves a null by a commit, and nothing
by a rollback. -/
theorem lost_to_writer_or_misser (id : String) (shared : Store) (history : List (ι × Action))
    (i : ι) (a : Action) {key : ContentKey} {v : Value}
    (hbefore : (after id shared history).shared.get? key = some v)
    (hafter : (after id shared (history ++ [(i, a)])).shared.get? key ≠ some v) :
    a.commits ∧ (HasCalled id shared history i (Puts key) ∨ HasCalled id shared history i Clears) ∨
      HasCalled id shared history i (Misses key) ∧
        (a.commits ∧ (after id shared (history ++ [(i, a)])).shared.get? key = some .null ∨
          a.rollsBack ∧ (after id shared (history ++ [(i, a)])).shared.get? key = none) := by
  have htracked := tracked_after id shared history i
  rw [after_concat] at hafter ⊢
  cases a with
  | call c =>
    rw [act_call_shared] at hafter
    exact absurd hbefore hafter
  | commit order permutes =>
    rw [(act_commit id permutes htracked.distinct).2, hbefore] at hafter ⊢
    generalize (after id shared history).pending i = p at *
    -- in the order in which the commit settles a key: buffered, missed, cleared
    by_cases hput : p.entries.get? key = none
    · rw [hput, Option.none_or] at hafter ⊢
      by_cases hmissed : key ∈ p.missed
      · rw [if_pos hmissed]
        exact .inr ⟨htracked.missed key hmissed, .inl ⟨rfl, rfl⟩⟩
      · rw [if_neg hmissed] at hafter
        by_cases hclear : p.clearFirst = true
        · exact .inl ⟨rfl, .inr (htracked.clearFirst hclear)⟩
        · exact absurd (if_neg hclear) hafter
    · exact .inl ⟨rfl, .inl (htracked.entries key hput)⟩
  | rollback order permutes =>
    rw [(act_rollback id _ i permutes).2, hbefore] at hafter ⊢
    by_cases hmissed : key ∈ ((after id shared history).pending i).missed
    · rw [if_pos hmissed]
      exact .inr ⟨htracked.missed key hmissed, .inr ⟨rfl, rfl⟩⟩
    · exact absurd (if_neg hmissed) hafter

def missThenCommit (key : ContentKey) (v : Value) : List (Bool × Action) :=
  [(false, .call (.get key)), (true, .call (.put key v)),
    (true, .commit .stored FlushOrder.permutes_stored)]

theorem lost_to_writer_or_misser_rollback :
    let key : ContentKey := Key.ofList [.string "a"]
    let history := missThenCommit key (.integer 1)
    let a := Action.rollback .stored FlushOrder.permutes_stored
    (after "names" .empty history).shared.get? key = some (.integer 1) ∧
      (after "names" .empty (history ++ [(false, a)])).shared.get? key ≠ some (.integer 1) ∧
      HasCalled "names" .empty history false (Misses key) := by
  intro key history a
  have hbefore : (after "names" .empty history).shared.get? key = some (.integer 1) := by decide
  have hafter : (after "names" .empty (history ++ [(false, a)])).shared.get? key ≠
      some (.integer 1) := by decide
  refine ⟨hbefore, hafter, ?_⟩
  rcases lost_to_writer_or_misser "names" .empty history false a hbefore hafter with h | h
  · nomatch h.1
  · exact h.1

/-- A lookup in vain is enough to lose what another transaction committed since:
either end of the first transaction does it, though it neither put nor cleared. -/
theorem missThenCommit_lost :
    let key : ContentKey := Key.ofList [.string "a"]
    let history := missThenCommit key (.integer 1)
    let commit := Action.commit .stored FlushOrder.permutes_stored
    let rollback := Action.rollback .stored FlushOrder.permutes_stored
    (after "names" .empty history).shared.get? key = some (.integer 1) ∧
      (after "names" .empty (history ++ [(false, commit)])).shared.get? key = some .null ∧
      (after "names" .empty (history ++ [(false, rollback)])).shared.get? key = none ∧
      ¬ HasCalled "names" .empty history false (Puts key) ∧
      ¬ HasCalled "names" .empty history false Clears := by
  intro key history commit rollback
  refine ⟨by decide, by decide, by decide, fun hput => ?_, fun hclear => ?_⟩
  · obtain ⟨_, c, hmem, v, rfl⟩ := hput.exists_mem
    simp [history, missThenCommit] at hmem
  · obtain ⟨_, c, hmem, rfl⟩ := hclear.exists_mem
    simp [history, missThenCommit] at hmem

end Sessions

end Transaction

end PropTree
