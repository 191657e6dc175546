import PropTree.Cache.Provider

set_option autoImplicit false

namespace PropTree

structure Hits where
  requests : Nat := 0
  hits : Nat := 0
deriving DecidableEq, Repr

namespace Hits

def ratio (h : Hits) : Binary64 := if h.requests = 0 then .zero else .ofRatio h.hits h.requests

variable {σ : Type}

/-- A lookup counts when it starts, and as a hit when it has found something. -/
def get (d : Provider σ) (s : Hits × σ) (key : ContentKey) : Outcome (Hits × σ) (Option Value) :=
  let asked := { s.1 with requests := s.1.requests + 1 }
  match d.get s.2 key with
  | (below, .ok (some v)) => (({ asked with hits := asked.hits + 1 }, below), .ok (some v))
  | (below, .ok none) => ((asked, below), .ok none)
  | (below, .error e) => ((asked, below), .error e)

def provider (d : Provider σ) : Provider (Hits × σ) where
  id := d.id
  put s key v := Provider.beside s.1 (d.put s.2 key v)
  get s key := get d s key
  remove s key := Provider.beside s.1 (d.remove s.2 key)
  clear s := Provider.beside s.1 (d.clear s.2)
  size s := d.size s.2

end Hits

end PropTree
