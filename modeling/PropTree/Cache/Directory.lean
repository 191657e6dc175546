import PropTree.Assoc
import PropTree.Cache.Error

set_option autoImplicit false

/-!
# One cache for each id

A call takes two steps that other clients may come between: a lookup and, if it
finds nothing, a second lookup that builds the cache when it is still missing.
-/

namespace PropTree

structure CacheDirectory (γ : Type) where
  caches : Assoc γ := .empty

namespace CacheDirectory

variable {σ γ : Type}

def find? (r : CacheDirectory γ) (id : String) : Option γ := r.caches.get? id

def contains (r : CacheDirectory γ) (id : String) : Bool := r.caches.contains id

def ids (r : CacheDirectory γ) : List String := r.caches.keys

def size (r : CacheDirectory γ) : Nat := r.caches.size

/-- The second step. `idOf` tells the id of a cache in the state the build
leaves. -/
def createMissing (idOf : σ → γ → String) (s : CacheDirectory γ × σ) (id : String)
    (build : σ → σ × Except CacheError γ) : (CacheDirectory γ × σ) × Except CacheError γ :=
  match s.1.find? id with
  | some cache => (s, .ok cache)
  | none =>
    match build s.2 with
    | (below, .error e) => ((s.1, below), .error e)
    | (below, .ok cache) =>
      if idOf below cache = id then
        ((⟨s.1.caches.insert id cache⟩, below), .ok cache)
      else ((s.1, below), .error (.construction id (.misnamed (idOf below cache))))

def getOrCreate (idOf : σ → γ → String) (s : CacheDirectory γ × σ) (id : String)
    (build : σ → σ × Except CacheError γ) : (CacheDirectory γ × σ) × Except CacheError γ :=
  match s.1.find? id with
  | some cache => (s, .ok cache)
  | none => createMissing idOf s id build

end CacheDirectory

end PropTree
