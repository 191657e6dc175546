import PropTree.Cache.Provider

set_option autoImplicit false

/-!
# Failing layers
-/

namespace PropTree

inductive CacheOperation where
  | put
  | get
  | remove
  | clear
deriving DecidableEq, Repr

namespace Fault

variable {σ : Type}

def refuse {α : Type} (failing : List CacheOperation) (operation : CacheOperation) (id : String)
    (s : σ) (o : Outcome σ α) : Outcome σ α :=
  if operation ∈ failing then (s, .error (.poisoned id)) else o

def provider (failing : List CacheOperation) (d : Provider σ) : Provider σ where
  id := d.id
  put s key v := refuse failing .put d.id s (d.put s key v)
  get s key := refuse failing .get d.id s (d.get s key)
  remove s key := refuse failing .remove d.id s (d.remove s key)
  clear s := refuse failing .clear d.id s (d.clear s)
  size s := d.size s

end Fault

end PropTree
