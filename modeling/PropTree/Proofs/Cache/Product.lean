import Mathlib.Logic.Function.Basic
import PropTree.Cache.Manager
import PropTree.Proofs.Assoc
import PropTree.Proofs.Cache.OnPart
import PropTree.Proofs.Cache.Overlay
import PropTree.Proofs.Cache.View

set_option autoImplicit false

/-!
# A manager is the product of its transactions
-/

namespace PropTree

structure EndOrder.Permutes (order : EndOrder) : Prop where
  sessions : ∀ ids, (order.sessions ids).Perm ids
  tables : ∀ id, (order.tables id).Permutes

namespace Manager

variable {σ γ : Type}

def call (cacheOf : γ → Provider σ) (s : Manager γ × σ) (cache : γ) :
    SessionCall → Outcome (Manager γ × σ) (Option Value)
  | .get key => get cacheOf s cache key
  | .put key v => Outcome.valueless (put cacheOf s cache key v)
  | .clear => Outcome.valueless (clear cacheOf s cache)

def answer (cacheOf : γ → Provider σ) (order : EndOrder) (s : Manager γ × σ) :
    SessionRequest (γ × SessionCall) → Outcome (Manager γ × σ) (Option Value)
  | .call (cache, c) => call cacheOf s cache c
  | .commit => Outcome.valueless (commitBy cacheOf order s)
  | .rollback => Outcome.valueless (rollbackBy cacheOf order s)

theorem call_eq_within (cacheOf : γ → Provider σ) (s : Manager γ × σ) (cache : γ)
    (c : SessionCall) :
    call cacheOf s cache c =
      within cacheOf s cache fun d t => (Transaction.provider d).call t c.toCall := by
  cases c <;> rfl

def Sound (ids : γ → String) (m : Manager γ) : Prop :=
  ∀ id session, m.sessions.get? id = some session →
    ids session.1 = id ∧ session.2.entries.Distinct

variable {ids : γ → String} {m : Manager γ} {p : Pending}

theorem sound_empty (ids : γ → String) : Sound ids {} := fun _ _ h => nomatch h

theorem Sound.insert (hm : m.Sound ids) (cache : γ) (hp : p.entries.Distinct) :
    Sound ids ⟨m.sessions.insert (ids cache) (cache, p)⟩ := by
  intro id session hget
  rw [Assoc.get?_insert] at hget
  split at hget
  · rename_i hid
    obtain rfl := Option.some.inj hget
    exact ⟨hid.symm, hp⟩
  · exact hm id session hget

variable [DecidableEq γ]

def requestOn (cache : γ) :
    SessionRequest (γ × SessionCall) → Option (SessionRequest SessionCall)
  | .call (other, c) => if other = cache then some (.call c) else none
  | .commit => some .commit
  | .rollback => some .rollback

def stores (ids : γ → String) (cache : γ) : Provider (γ → Store) :=
  (Store.provider (ids cache)).onPart (· cache) fun held s => Function.update held cache s

/-- What is seen of a run on one of the stores. -/
def seenOn (ids : γ → String) (cache : γ) (s : Manager γ × (γ → Store)) :
    List (SessionRequest (γ × SessionCall) × EndOrder) → List Seen
  | [] => []
  | (r, order) :: rest =>
    let o := answer (stores ids) order s r
    match requestOn cache r with
    | none => seenOn ids cache o.1 rest
    | some _ => ⟨o.2, (o.1.2 cache).get?⟩ :: seenOn ids cache o.1 rest

def pendingOf (ids : γ → String) (m : Manager γ) (cache : γ) : Pending :=
  (m.session (stores ids) cache).2

def viewOn (ids : γ → String) (s : Manager γ × (γ → Store)) (cache : γ) : View :=
  ⟨s.1.pendingOf ids cache, (s.2 cache).get?⟩

variable {cache other : γ}

theorem isPart_store (cache : γ) :
    IsPart (fun held : γ → Store => held cache) fun held s => Function.update held cache s where
  part_withPart _ _ := Function.update_self ..
  withPart_withPart _ _ _ := Function.update_idem ..
  withPart_part _ := Function.update_eq_self ..

theorem pendingOf_eq (ids : γ → String) (m : Manager γ) (cache : γ) :
    m.pendingOf ids cache = ((m.sessions.get? (ids cache)).map (·.2)).getD .empty := by
  change ((m.sessions.get? (ids cache)).getD (cache, .empty)).2 = _
  cases m.sessions.get? (ids cache) <;> rfl

theorem Sound.session_eq (hids : Function.Injective ids) (hm : m.Sound ids) (cache : γ) :
    m.session (stores ids) cache = (cache, m.pendingOf ids cache) := by
  refine Prod.ext ?_ rfl
  change ((m.sessions.get? (ids cache)).getD (cache, .empty)).1 = cache
  cases hget : m.sessions.get? (ids cache) with
  | none => rfl
  | some session => exact hids (hm _ _ hget).1

theorem Sound.distinct (hm : m.Sound ids) (cache : γ) :
    (m.pendingOf ids cache).entries.Distinct := by
  rw [pendingOf_eq]
  cases hget : m.sessions.get? (ids cache) with
  | none => exact Store.distinct_empty
  | some session => exact (hm _ _ hget).2

/-! ### What a request does to every view -/

variable {s : Manager γ × (γ → Store)}

theorem viewOn_insert_self (ids : γ → String) (m : Manager γ) (cache : γ) (p : Pending)
    (held : γ → Store) (st : Store) :
    viewOn ids (⟨m.sessions.insert (ids cache) (cache, p)⟩, Function.update held cache st) cache =
      ⟨p, st.get?⟩ := by
  have hpending : pendingOf ids ⟨m.sessions.insert (ids cache) (cache, p)⟩ cache = p := by
    rw [pendingOf_eq, Assoc.get?_insert_self]
    rfl
  have hheld : Function.update held cache st cache = st := Function.update_self ..
  exact congrArg₂ View.mk hpending (congrArg Store.get? hheld)

theorem viewOn_insert_of_ne (hids : Function.Injective ids) (h : other ≠ cache)
    (m : Manager γ) (p : Pending) (held : γ → Store) (st : Store) :
    viewOn ids (⟨m.sessions.insert (ids cache) (cache, p)⟩, Function.update held cache st) other =
      viewOn ids (m, held) other := by
  have hpending : pendingOf ids ⟨m.sessions.insert (ids cache) (cache, p)⟩ other =
      m.pendingOf ids other := by
    rw [pendingOf_eq, pendingOf_eq, Assoc.get?_insert_of_ne _ (hids.ne h)]
  have hheld : Function.update held cache st other = held other := Function.update_of_ne h ..
  exact congrArg₂ View.mk hpending (congrArg Store.get? hheld)

theorem call_stores (ids : γ → String) (cache : γ) (p : Pending) (held : γ → Store)
    (c : SessionCall) :
    let t : View := ⟨p, (held cache).get?⟩
    (Transaction.provider (stores ids cache)).call (p, held) c.toCall =
      (((t.next (.call c)).pending, Function.update held cache (held cache)),
        .ok (t.answer (.call c))) := by
  cases c with
  | get key =>
    have hget := Transaction.get_onPart (· cache) (fun held s => Function.update held cache s)
      (Store.provider (ids cache)) p held key
    rw [Transaction.get_store] at hget
    exact hget
  | put key v =>
    rw [Function.update_eq_self]
    rfl
  | clear =>
    rw [Function.update_eq_self]
    rfl

theorem call_viewOn (hids : Function.Injective ids) (hs : s.1.Sound ids) (cache : γ)
    (c : SessionCall) :
    ∃ s', call (stores ids) s cache c = (s', .ok ((viewOn ids s cache).answer (.call c))) ∧
      s'.1.Sound ids ∧ viewOn ids s' cache = (viewOn ids s cache).next (.call c) ∧
      ∀ other, other ≠ cache → viewOn ids s' other = viewOn ids s other := by
  obtain ⟨m, held⟩ := s
  let t : View := viewOn ids (m, held) cache
  let p : Pending := (t.next (.call c)).pending
  have hp : p.entries.Distinct := View.next_distinct (hs.distinct cache) (.call c)
  refine ⟨(⟨m.sessions.insert (ids cache) (cache, p)⟩,
    Function.update held cache (held cache)), ?_, hs.insert cache hp, ?_, ?_⟩
  · have hsession : m.session (stores ids) cache = (cache, m.pendingOf ids cache) :=
      hs.session_eq hids cache
    rw [call_eq_within, within, hsession, call_stores]
    rfl
  · rw [viewOn_insert_self]
    cases c <;> rfl
  · intro other hother
    exact viewOn_insert_of_ne hids hother m p held (held cache)

/-- Over a store, `finish` does to the view what `settle` says. -/
structure Settles (ids : γ → String)
    (finish : Provider (γ → Store) → Pending × (γ → Store) → Outcome (Pending × (γ → Store)) Unit)
    (settle : View → View) : Prop where
  finish : ∀ cache p held, p.entries.Distinct →
    ∃ st, finish (stores ids cache) (p, held) =
        ((.empty, Function.update held cache st), .ok ()) ∧
      ⟨.empty, st.get?⟩ = settle ⟨p, (held cache).get?⟩
  settle_of_empty : ∀ t : View, t.pending = .empty → settle t = t

variable {order : EndOrder} {settle : View → View}
variable {finish : Provider (γ → Store) → Pending × (γ → Store) →
  Outcome (Pending × (γ → Store)) Unit}

theorem settles_commitBy (ids : γ → String) (ho : order.Permutes) :
    Settles ids (fun d t => Transaction.commitBy (order.tables d.id) d t) View.committed where
  finish cache p held hp := by
    obtain ⟨st, hcommit, hst⟩ :=
      Transaction.commitBy_view (ids cache) (ho.tables (ids cache)) hp (held cache)
    refine ⟨st, ?_, hst⟩
    have hpart := Transaction.commitBy_onPart (isPart_store cache) (order.tables (ids cache))
      (Store.provider (ids cache)) p held
    rw [hcommit] at hpart
    exact hpart
  settle_of_empty _ := View.committed_of_empty

theorem settles_rollbackBy (ids : γ → String) (ho : order.Permutes) :
    Settles ids (fun d t => Transaction.rollbackBy (order.tables d.id) d t) View.rolledBack where
  finish cache p held _ := by
    obtain ⟨st, hrollback, hst⟩ :=
      Transaction.rollbackBy_view (ids cache) (ho.tables (ids cache)) p (held cache)
    refine ⟨st, ?_, hst⟩
    have hpart := Transaction.rollbackBy_onPart (isPart_store cache) (order.tables (ids cache))
      (Store.provider (ids cache)) p held
    rw [hrollback] at hpart
    exact hpart
  settle_of_empty _ := View.rolledBack_of_empty

theorem viewOn_pending_of_none (held : γ → Store)
    (h : m.sessions.get? (ids cache) = none) : (viewOn ids (m, held) cache).pending = .empty := by
  change m.pendingOf ids cache = .empty
  rw [pendingOf_eq, h]
  rfl

theorem endSessions_viewOn (hids : Function.Injective ids) (h : Settles ids finish settle)
    (l : List String) (hs : s.1.Sound ids) :
    ∃ s', endSessions (stores ids) finish l s = (s', .ok ()) ∧ s'.1.Sound ids ∧
      ∀ cache, viewOn ids s' cache =
        if ids cache ∈ l then settle (viewOn ids s cache) else viewOn ids s cache := by
  induction l generalizing s with
  | nil => exact ⟨s, rfl, hs, fun cache => rfl⟩
  | cons id rest ih =>
    obtain ⟨m, held⟩ := s
    cases hget : m.sessions.get? id with
    | none =>
      obtain ⟨s', hend, hsound, hview⟩ := ih hs
      refine ⟨s', ?_, hsound, fun cache => ?_⟩
      · rw [endSessions, hget]
        exact hend
      · rw [hview]
        by_cases hid : ids cache = id
        · -- nothing is buffered under this id, so there is nothing to settle
          subst hid
          have hsame := h.settle_of_empty _ (viewOn_pending_of_none held hget)
          rw [hsame, ite_self, ite_self]
        · simp only [List.mem_cons, hid, false_or]
    | some session =>
      obtain ⟨cache, p⟩ := session
      obtain ⟨hid, hp⟩ := hs id (cache, p) hget
      obtain rfl : ids cache = id := hid
      obtain ⟨st, hfinish, hsettle⟩ := h.finish cache p held hp
      obtain ⟨s', hend, hsound, hview⟩ := ih (hs.insert cache Store.distinct_empty)
        (s := (⟨m.sessions.insert (ids cache) (cache, .empty)⟩, Function.update held cache st))
      refine ⟨s', ?_, hsound, fun other => ?_⟩
      · rw [endSessions, hget]
        simp only [hfinish]
        exact hend
      · rw [hview]
        by_cases hother : other = cache
        · -- settled here, so the rest of the list finds its view settled
          subst hother
          have hpending : m.pendingOf ids other = p := by
            rw [pendingOf_eq, hget]
            rfl
          have hbefore : viewOn ids (m, held) other = ⟨p, (held other).get?⟩ :=
            congrArg (View.mk · _) hpending
          rw [viewOn_insert_self, if_pos List.mem_cons_self, hbefore, ← hsettle,
            h.settle_of_empty _ rfl, ite_self]
        · have hne : ids other ≠ ids cache := hids.ne hother
          rw [viewOn_insert_of_ne hids hother]
          simp only [List.mem_cons, hne, false_or]

theorem endAll_viewOn (hids : Function.Injective ids) (h : Settles ids finish settle)
    (ho : order.Permutes) (hs : s.1.Sound ids) :
    ∃ s', endSessions (stores ids) finish (order.sessions s.1.sessions.keys) s = (s', .ok ()) ∧
      s'.1.Sound ids ∧ ∀ cache, viewOn ids s' cache = settle (viewOn ids s cache) := by
  obtain ⟨s', hend, hsound, hview⟩ :=
    endSessions_viewOn hids h (order.sessions s.1.sessions.keys) hs
  refine ⟨s', hend, hsound, fun cache => ?_⟩
  rw [hview]
  split
  · rfl
  · rename_i hout
    have habsent : s.1.sessions.get? (ids cache) = none := by
      rw [(ho.sessions _).mem_iff, Assoc.mem_keys_iff] at hout
      exact Option.not_isSome_iff_eq_none.1 hout
    exact (h.settle_of_empty _ (viewOn_pending_of_none s.2 habsent)).symm

theorem answer_viewOn (hids : Function.Injective ids) (ho : order.Permutes) (hs : s.1.Sound ids)
    (r : SessionRequest (γ × SessionCall)) :
    ∃ s' a, answer (stores ids) order s r = (s', a) ∧ s'.1.Sound ids ∧
      ∀ cache, match requestOn cache r with
        | none => viewOn ids s' cache = viewOn ids s cache
        | some own => a = .ok ((viewOn ids s cache).answer own) ∧
          viewOn ids s' cache = (viewOn ids s cache).next own := by
  cases r with
  | call c =>
    obtain ⟨called, c⟩ := c
    obtain ⟨s', hcall, hsound, hown, hothers⟩ := call_viewOn hids hs called c
    refine ⟨s', _, hcall, hsound, fun cache => ?_⟩
    by_cases hcache : called = cache
    · subst hcache
      rw [requestOn, if_pos rfl]
      exact ⟨rfl, hown⟩
    · rw [requestOn, if_neg hcache]
      exact hothers cache (Ne.symm hcache)
  | commit =>
    obtain ⟨s', hend, hsound, hview⟩ := endAll_viewOn hids (settles_commitBy ids ho) ho hs
    exact ⟨s', .ok none, by rw [answer, commitBy, hend]; rfl, hsound,
      fun cache => ⟨rfl, hview cache⟩⟩
  | rollback =>
    obtain ⟨s', hend, hsound, hview⟩ := endAll_viewOn hids (settles_rollbackBy ids ho) ho hs
    exact ⟨s', .ok none, by rw [answer, rollbackBy, hend]; rfl, hsound,
      fun cache => ⟨rfl, hview cache⟩⟩

theorem seenOn_viewOn (hids : Function.Injective ids) (cache : γ)
    {history : List (SessionRequest (γ × SessionCall) × EndOrder)}
    (ho : ∀ e ∈ history, e.2.Permutes) (hs : s.1.Sound ids) :
    seenOn ids cache s history =
      (viewOn ids s cache).seen (history.filterMap fun e => requestOn cache e.1) := by
  induction history generalizing s with
  | nil => rfl
  | cons e rest ih =>
    obtain ⟨r, order⟩ := e
    obtain ⟨s', a, hanswer, hsound, hview⟩ :=
      answer_viewOn hids (ho _ List.mem_cons_self) hs r
    have hrest := ih (fun e he => ho e (List.mem_cons_of_mem _ he)) hsound
    have hcache := hview cache
    rw [seenOn, hanswer, List.filterMap_cons]
    cases hown : requestOn cache r with
    | none =>
      rw [hown] at hcache
      rw [← hcache]
      exact hrest
    | some own =>
      rw [hown] at hcache
      obtain ⟨rfl, hnext⟩ := hcache
      rw [View.seen, ← hnext]
      exact congrArg (List.cons _) hrest

/-- On each store a client of the manager sees what a client of a transaction
over that store alone does: the same answers to the calls for the store and to
the ends, and after each of them the same values in the store. -/
theorem seenOn_eq_seen (hids : Function.Injective ids) (held : γ → Store) (cache : γ)
    {history : List (SessionRequest (γ × SessionCall) × EndOrder)}
    (ho : ∀ e ∈ history, e.2.Permutes)
    {own : List (SessionRequest SessionCall × FlushOrder)} (hoOwn : ∀ e ∈ own, e.2.Permutes)
    (hown : own.map (·.1) = history.filterMap fun e => requestOn cache e.1) :
    seenOn ids cache ({}, held) history =
      Transaction.seen (Store.provider (ids cache)) (.empty, held cache) own := by
  have hstart : viewOn ids ({}, held) cache = Transaction.view (.empty, held cache) := rfl
  calc seenOn ids cache ({}, held) history
      = (viewOn ids ({}, held) cache).seen (history.filterMap fun e => requestOn cache e.1) :=
        seenOn_viewOn hids cache ho (sound_empty ids)
    _ = (Transaction.view (.empty, held cache)).seen (own.map (·.1)) := by rw [hstart, hown]
    _ = Transaction.seen (Store.provider (ids cache)) (.empty, held cache) own :=
        (Transaction.seen_view (ids cache) hoOwn (.empty, held cache) Store.distinct_empty).symm

def backwards : EndOrder := ⟨List.reverse, fun _ => Transaction.backwards⟩

theorem permutes_backwards : backwards.Permutes :=
  ⟨List.reverse_perm, fun _ => Transaction.permutes_backwards⟩

theorem permutes_stored : EndOrder.stored.Permutes :=
  ⟨fun _ => .refl _, fun _ => FlushOrder.permutes_stored⟩

/-- The second store joins after the first one was committed, and its clear is
given up. -/
theorem seenOn_eq_seen_joining :
    let ids := fun second : Bool => if second then "menus" else "names"
    let a := Transaction.nameKey "a"
    let history : List (SessionRequest (Bool × SessionCall) × EndOrder) :=
      [(.call (false, .get a), .stored), (.call (false, .put a (.integer 1)), .stored),
        (.commit, .stored), (.call (true, .put a (.integer 2)), .stored),
        (.call (false, .get a), .stored), (.commit, backwards), (.call (true, .clear), .stored),
        (.call (true, .get a), .stored), (.rollback, backwards), (.call (true, .get a), .stored)]
    let own : List (SessionRequest SessionCall × FlushOrder) :=
      [(.commit, .stored), (.call (.put a (.integer 2)), .stored), (.commit, .stored),
        (.call .clear, .stored), (.call (.get a), .stored), (.rollback, .stored),
        (.call (.get a), .stored)]
    seenOn ids true ({}, fun _ => .empty) history =
        Transaction.seen (Store.provider "menus") (.empty, .empty) own ∧
      (seenOn ids true ({}, fun _ => .empty) history).map (·.answer) =
        [.ok none, .ok none, .ok none, .ok none, .ok none, .ok none, .ok (some (.integer 2))] := by
  intro ids a history own
  have hids : Function.Injective ids := by
    intro b b' h
    cases b <;> cases b' <;> simp [ids] at h ⊢
  have ho : ∀ e ∈ history, e.2.Permutes := by
    simp [history, permutes_stored, permutes_backwards]
  have hoOwn : ∀ e ∈ own, e.2.Permutes := by simp [own, FlushOrder.permutes_stored]
  have hseen := seenOn_eq_seen hids (fun _ => .empty) true ho hoOwn rfl
  exact ⟨hseen, by decide⟩

end Manager

end PropTree
