import PropTree.Assoc
import PropTree.Cache.Transaction

set_option autoImplicit false

/-!
# Transactions over several caches

One transaction for each cache that a client touches, by the id of the cache. A
commit stops at the first transaction that fails.
-/

namespace PropTree

structure Manager (γ : Type) where
  sessions : Assoc (γ × Pending) := .empty

/-- In which order the transactions are gone through, and for each of them in
which order its tables are. -/
structure EndOrder where
  sessions : List String → List String
  tables : String → FlushOrder

def EndOrder.stored : EndOrder := ⟨id, fun _ => .stored⟩

namespace Manager

variable {σ γ : Type} (cacheOf : γ → Provider σ)

def session (m : Manager γ) (cache : γ) : γ × Pending :=
  (m.sessions.get? (cacheOf cache).id).getD (cache, .empty)

def within {α : Type} (s : Manager γ × σ) (cache : γ)
    (run : Provider σ → Pending × σ → Outcome (Pending × σ) α) : Outcome (Manager γ × σ) α :=
  let held := s.1.session cacheOf cache
  let o := run (cacheOf held.1) (held.2, s.2)
  ((⟨s.1.sessions.insert (cacheOf cache).id (held.1, o.1.1)⟩, o.1.2), o.2)

def get (s : Manager γ × σ) (cache : γ) (key : ContentKey) :
    Outcome (Manager γ × σ) (Option Value) :=
  within cacheOf s cache fun d t => (Transaction.provider d).get t key

def put (s : Manager γ × σ) (cache : γ) (key : ContentKey) (v : Value) :
    Outcome (Manager γ × σ) Unit :=
  within cacheOf s cache fun d t => (Transaction.provider d).put t key v

def clear (s : Manager γ × σ) (cache : γ) : Outcome (Manager γ × σ) Unit :=
  within cacheOf s cache fun d t => (Transaction.provider d).clear t

/-- End the sessions with the given ids, up to the first that fails. -/
def endSessions (finish : Provider σ → Pending × σ → Outcome (Pending × σ) Unit) :
    List String → Manager γ × σ → Outcome (Manager γ × σ) Unit
  | [], s => (s, .ok ())
  | id :: rest, s =>
    match s.1.sessions.get? id with
    | none => endSessions finish rest s
    | some (cache, pending) =>
      let o := finish (cacheOf cache) (pending, s.2)
      let s' := (⟨s.1.sessions.insert id (cache, o.1.1)⟩, o.1.2)
      match o.2 with
      | .error e => (s', .error e)
      | .ok () => endSessions finish rest s'

def commitBy (order : EndOrder) (s : Manager γ × σ) : Outcome (Manager γ × σ) Unit :=
  endSessions cacheOf (fun d t => Transaction.commitBy (order.tables d.id) d t)
    (order.sessions s.1.sessions.keys) s

def commit (s : Manager γ × σ) : Outcome (Manager γ × σ) Unit := commitBy cacheOf .stored s

def rollbackBy (order : EndOrder) (s : Manager γ × σ) : Outcome (Manager γ × σ) Unit :=
  endSessions cacheOf (fun d t => Transaction.rollbackBy (order.tables d.id) d t)
    (order.sessions s.1.sessions.keys) s

def rollback (s : Manager γ × σ) : Outcome (Manager γ × σ) Unit := rollbackBy cacheOf .stored s

end Manager

end PropTree
