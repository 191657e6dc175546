import PropTree.Cache.Provider

set_option autoImplicit false

/-!
# Least recently used eviction

The keys in use, most recent first, are kept in a `RecencyTable`; a plain list of
keys is one.
-/

namespace PropTree

structure Capacity where
  val : Nat
  pos : 0 < val
deriving DecidableEq, Repr

def Capacity.default : Capacity := ⟨1024, by decide⟩

def Capacity.ofNat (n : Nat) : Except CacheError Capacity :=
  if h : 0 < n then .ok ⟨n, h⟩ else .error (.invalidSettings .lruCapacity)

/-- The operations on a table of keys in use. A push hands back a key if it
replaced one or drove one out. -/
structure RecencyTable (ρ : Type) where
  push : ContentKey → ρ → ρ × Option ContentKey
  touch : ContentKey → ρ → ρ
  drop : ContentKey → ρ → ρ
  clear : ρ → ρ

namespace Recency

def touch (key : ContentKey) (keys : List ContentKey) : List ContentKey :=
  if key ∈ keys then key :: keys.erase key else keys

/-- Put a key to the front, in place of itself if it is there already. A new one
in a full list drives out the last. -/
def push (capacity : Capacity) (key : ContentKey) (keys : List ContentKey) :
    List ContentKey × Option ContentKey :=
  if key ∈ keys then (touch key keys, some key)
  else if keys.length < capacity.val then (key :: keys, none)
  else (key :: keys.dropLast, keys.getLast?)

def table (capacity : Capacity) : RecencyTable (List ContentKey) where
  push := push capacity
  touch := touch
  drop key keys := keys.erase key
  clear _ := []

end Recency

namespace Lru

variable {σ ρ : Type}

/-- A key that was only replaced keeps its value. -/
def put (table : RecencyTable ρ) (d : Provider σ) (s : ρ × σ) (key : ContentKey) (v : Value) :
    Outcome (ρ × σ) Unit :=
  match d.put s.2 key v with
  | (below, .error e) => ((s.1, below), .error e)
  | (below, .ok ()) =>
    let pushed := table.push key s.1
    match pushed.2.filter (· ≠ key) with
    | none => ((pushed.1, below), .ok ())
    | some old =>
      match d.remove below old with
      | (below', .error e) => ((pushed.1, below'), .error e)
      | (below', .ok _) => ((pushed.1, below'), .ok ())

/-- A lookup counts as a use before the layer below answers. -/
def layer (table : RecencyTable ρ) (d : Provider σ) : Provider (ρ × σ) where
  id := d.id
  put s key v := put table d s key v
  get s key := Provider.beside (table.touch key s.1) (d.get s.2 key)
  remove s key := Provider.beside (table.drop key s.1) (d.remove s.2 key)
  clear s := Provider.beside (table.clear s.1) (d.clear s.2)
  size s := d.size s.2

end Lru

end PropTree
