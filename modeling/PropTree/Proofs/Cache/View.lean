import PropTree.Proofs.Cache.Calls
import PropTree.Proofs.Cache.OverStore

set_option autoImplicit false

/-!
# The view of a transaction
-/

namespace PropTree

inductive SessionCall where
  | get (key : ContentKey)
  | put (key : ContentKey) (v : Value)
  | clear
deriving DecidableEq, Repr

def SessionCall.toCall : SessionCall → CacheCall
  | .get key => .get key
  | .put key v => .put key v
  | .clear => .clear

inductive SessionRequest (κ : Type) where
  | call (c : κ)
  | commit
  | rollback
deriving DecidableEq, Repr

/-- What a client sees of a request: the answer, and what the cache then holds. -/
structure Seen where
  answer : Except CacheError (Option Value)
  held : ContentKey → Option Value

def Outcome.valueless {σ : Type} (o : Outcome σ Unit) : Outcome σ (Option Value) :=
  (o.1, o.2.map fun _ => none)

structure View where
  pending : Pending
  held : ContentKey → Option Value

namespace View

def committed (t : View) : View :=
  ⟨.empty, fun key => (t.pending.entries.get? key).or
    (if key ∈ t.pending.missed then some .null
      else if t.pending.clearFirst then none else t.held key)⟩

def rolledBack (t : View) : View :=
  ⟨.empty, fun key => if key ∈ t.pending.missed then none else t.held key⟩

def next (t : View) : SessionRequest SessionCall → View
  | .call (.get key) => ⟨if t.held key = none then t.pending.miss key else t.pending, t.held⟩
  | .call (.put key v) =>
    ⟨{ t.pending with entries := t.pending.entries.insert key v }, t.held⟩
  | .call .clear => ⟨{ t.pending with clearFirst := true, entries := .empty }, t.held⟩
  | .commit => t.committed
  | .rollback => t.rolledBack

def answer (t : View) : SessionRequest SessionCall → Option Value
  | .call (.get key) => if t.pending.clearFirst then none else t.held key
  | _ => none

def seen (t : View) : List (SessionRequest SessionCall) → List Seen
  | [] => []
  | r :: rest => ⟨.ok (t.answer r), (t.next r).held⟩ :: seen (t.next r) rest

theorem committed_of_empty {t : View} (h : t.pending = .empty) : t.committed = t := by
  obtain ⟨p, held⟩ := t
  obtain rfl : p = .empty := h
  rfl

theorem rolledBack_of_empty {t : View} (h : t.pending = .empty) : t.rolledBack = t := by
  obtain ⟨p, held⟩ := t
  obtain rfl : p = .empty := h
  rfl

theorem next_distinct {t : View} (h : t.pending.entries.Distinct)
    (r : SessionRequest SessionCall) : (t.next r).pending.entries.Distinct := by
  cases r with
  | call c =>
    cases c with
    | get key =>
      change (if t.held key = none then t.pending.miss key else t.pending).entries.Distinct
      split
      · rw [Pending.miss_entries]
        exact h
      · exact h
    | put key v => exact h.insert key v
    | clear => exact Store.distinct_empty
  | commit => exact Store.distinct_empty
  | rollback => exact Store.distinct_empty

end View

namespace Transaction

variable {σ : Type}

def answer (order : FlushOrder) (d : Provider σ) (s : Pending × σ) :
    SessionRequest SessionCall → Outcome (Pending × σ) (Option Value)
  | .call c => (provider d).call s c.toCall
  | .commit => Outcome.valueless (commitBy order d s)
  | .rollback => Outcome.valueless (rollbackBy order d s)

def seen (d : Provider Store) (s : Pending × Store) :
    List (SessionRequest SessionCall × FlushOrder) → List Seen
  | [] => []
  | (r, order) :: rest =>
    let o := answer order d s r
    ⟨o.2, o.1.2.get?⟩ :: seen d o.1 rest

def view (s : Pending × Store) : View := ⟨s.1, s.2.get?⟩

variable {p : Pending} {s : Store} {order : FlushOrder}

theorem call_store (id : String) (p : Pending) (s : Store) (c : SessionCall) :
    (provider (Store.provider id)).call (p, s) c.toCall =
      ((((view (p, s)).next (.call c)).pending, s), .ok ((view (p, s)).answer (.call c))) := by
  cases c with
  | get key => exact get_store id p s key
  | put key v => rfl
  | clear => rfl

theorem commitBy_view (id : String) (ho : order.Permutes) (hp : p.entries.Distinct) (s : Store) :
    ∃ s', commitBy order (Store.provider id) (p, s) = ((.empty, s'), .ok ()) ∧
      view (.empty, s') = (view (p, s)).committed := by
  obtain ⟨s', hcommit, hs'⟩ := commitBy_store id ho hp s
  exact ⟨s', hcommit, congrArg (View.mk .empty) (funext hs')⟩

theorem rollbackBy_view (id : String) (ho : order.Permutes) (p : Pending) (s : Store) :
    ∃ s', rollbackBy order (Store.provider id) (p, s) = ((.empty, s'), .ok ()) ∧
      view (.empty, s') = (view (p, s)).rolledBack := by
  refine ⟨_, rfl, congrArg (View.mk .empty) (funext fun key => ?_)⟩
  have hmem : key ∈ order.released p.missed ↔ key ∈ p.missed := (ho.released p.missed).mem_iff
  rw [get?_release]
  simp only [hmem]
  rfl

theorem answer_view (id : String) (ho : order.Permutes) (hp : p.entries.Distinct) (s : Store)
    (r : SessionRequest SessionCall) :
    ∃ s', answer order (Store.provider id) (p, s) r = (s', .ok ((view (p, s)).answer r)) ∧
      view s' = (view (p, s)).next r := by
  cases r with
  | call c =>
    refine ⟨_, call_store id p s c, ?_⟩
    cases c <;> rfl
  | commit =>
    obtain ⟨s', hcommit, hs'⟩ := commitBy_view id ho hp s
    exact ⟨(.empty, s'), by rw [answer, hcommit]; rfl, hs'⟩
  | rollback =>
    obtain ⟨s', hrollback, hs'⟩ := rollbackBy_view id ho p s
    exact ⟨(.empty, s'), by rw [answer, hrollback]; rfl, hs'⟩

theorem seen_view (id : String) {history : List (SessionRequest SessionCall × FlushOrder)}
    (ho : ∀ e ∈ history, e.2.Permutes) (s : Pending × Store) (hs : s.1.entries.Distinct) :
    seen (Store.provider id) s history = (view s).seen (history.map (·.1)) := by
  induction history generalizing s with
  | nil => rfl
  | cons e rest ih =>
    obtain ⟨r, order⟩ := e
    obtain ⟨s', hanswer, hs'⟩ := answer_view id (ho _ List.mem_cons_self) hs s.2 r
    have hdistinct : s'.1.entries.Distinct := by
      have hnext := View.next_distinct (t := view s) hs r
      rw [← hs'] at hnext
      exact hnext
    have hrest := ih (fun e he => ho e (List.mem_cons_of_mem _ he)) s' hdistinct
    rw [seen, hanswer, List.map_cons, View.seen, ← hs', hrest]
    rfl

end Transaction

end PropTree
