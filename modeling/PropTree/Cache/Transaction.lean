import PropTree.Cache.Store

set_option autoImplicit false

/-!
# Transactions

A commit clears the cache below if asked to, then puts a null under every missed
key that got no value, then the buffered values; a layer of locks below is thereby
released from every missed key. The tables of a transaction have no order of their
own, so a commit takes the order to go through them.
-/

namespace PropTree

structure Pending where
  clearFirst : Bool := false
  entries : Store := .empty
  missed : List ContentKey := []
deriving DecidableEq, Repr

structure FlushOrder where
  nulls : List ContentKey → List ContentKey
  entries : List (ContentKey × Value) → List (ContentKey × Value)
  released : List ContentKey → List ContentKey

def FlushOrder.stored : FlushOrder := ⟨id, id, id⟩

namespace Pending

def empty : Pending := {}

def unfilled (p : Pending) : List ContentKey := p.missed.filter fun key => !p.entries.contains key

end Pending

namespace Transaction

variable {σ : Type}

/-- Put entries one after the other, each taking its key off the missed ones,
up to the first that fails. -/
def putAll (d : Provider σ) (below : σ) (missed : List ContentKey) :
    List (ContentKey × Value) → Outcome (List ContentKey × σ) Unit
  | [] => ((missed, below), .ok ())
  | (key, v) :: rest =>
    match d.put below key v with
    | (below', .error e) => ((missed, below'), .error e)
    | (below', .ok ()) => putAll d below' (missed.erase key) rest

def release (d : Provider σ) (below : σ) (keys : List ContentKey) : σ :=
  keys.foldl (fun s key => (d.remove s key).1) below

/-- What is left of the missed keys comes back with the state. -/
def flush (order : FlushOrder) (d : Provider σ) (p : Pending) (below : σ) :
    Outcome (List ContentKey × σ) Unit :=
  let writes := (order.nulls p.unfilled).map (fun key => (key, Value.null)) ++
    order.entries p.entries.entries
  if p.clearFirst then
    match d.clear below with
    | (below', .error e) => ((p.missed, below'), .error e)
    | (below', .ok ()) => putAll d below' p.missed writes
  else putAll d below p.missed writes

def commitBy (order : FlushOrder) (d : Provider σ) (s : Pending × σ) :
    Outcome (Pending × σ) Unit :=
  match flush order d s.1 s.2 with
  | ((_, below), .ok ()) => ((.empty, below), .ok ())
  | ((missed, below), .error e) =>
    ((.empty, release d below (order.released missed)), .error e)

def commit (d : Provider σ) (s : Pending × σ) : Outcome (Pending × σ) Unit :=
  commitBy .stored d s

def rollbackBy (order : FlushOrder) (d : Provider σ) (s : Pending × σ) :
    Outcome (Pending × σ) Unit :=
  ((.empty, release d s.2 (order.released s.1.missed)), .ok ())

def rollback (d : Provider σ) (s : Pending × σ) : Outcome (Pending × σ) Unit :=
  rollbackBy .stored d s

/-- A lookup sees the cache below, never the transaction's own puts, and
nothing at all after a clear. -/
def get (d : Provider σ) (s : Pending × σ) (key : ContentKey) :
    Outcome (Pending × σ) (Option Value) :=
  match d.get s.2 key with
  | (below, .error e) => ((s.1, below), .error e)
  | (below, .ok none) =>
    ((if key ∈ s.1.missed then s.1 else { s.1 with missed := s.1.missed ++ [key] }, below),
      .ok none)
  | (below, .ok (some v)) => ((s.1, below), .ok (if s.1.clearFirst then none else some v))

def provider (d : Provider σ) : Provider (Pending × σ) where
  id := d.id
  put s key v := (({ s.1 with entries := s.1.entries.insert key v }, s.2), .ok ())
  get s key := get d s key
  remove s _ := (s, .ok none)
  clear s := (({ s.1 with clearFirst := true, entries := .empty }, s.2), .ok ())
  size s := d.size s.2

end Transaction

end PropTree
