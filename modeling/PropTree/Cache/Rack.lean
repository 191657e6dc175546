import PropTree.Cache.Fault
import PropTree.Cache.Manager
import PropTree.Cache.Settings

set_option autoImplicit false

/-!
# Racks of shared layers

Each layer names the one it stands on by its position, so two layers may share
what is below them, and every layer stays usable by itself.
-/

namespace PropTree

inductive Layer where
  | store (id : String)
  | lru (base : Nat) (capacity : Capacity)
  | hits (base : Nat)
  | locks (base : Nat) (timeout : Option Nat)
  | transaction (base : Nat)
  | fault (base : Nat) (failing : List CacheOperation)
  | stack (id : String) (capacity : Option Capacity) (settings : Settings)
deriving Repr

inductive Cell where
  | none
  | store (s : Store)
  | keys (keys : List ContentKey)
  | hits (h : Hits)
  | pending (p : Pending)
  | stack (s : StackState (List ContentKey))
deriving Repr

namespace Cell

def store? : Cell → Store
  | .store s => s
  | _ => .empty

def keys? : Cell → List ContentKey
  | .keys ks => ks
  | _ => []

def hits? : Cell → Hits
  | .hits h => h
  | _ => {}

def pending? : Cell → Pending
  | .pending p => p
  | _ => .empty

def stack? : Cell → StackState (List ContentKey)
  | .stack s => s
  | _ => Settings.initial []

end Cell

abbrev Cells := List Cell

structure Rack where
  layers : List Layer := []
  cells : Cells := []
deriving Repr

namespace Rack

/-- A provider whose own state is the cell at a position, next to the states
of all layers. -/
def mount {ω : Type} (i : Nat) (read : Cell → ω) (write : ω → Cell)
    (p : Provider (ω × Cells)) : Provider Cells :=
  p.onPart (fun cells => (read (cells.getD i .none), cells)) fun _ s => s.2.set i (write s.1)

def ground {ω : Type} (i : Nat) (read : Cell → ω) (write : ω → Cell) (p : Provider ω) :
    Provider Cells :=
  p.onPart (fun cells => read (cells.getD i .none)) fun cells s => cells.set i (write s)

def provider? (layers : List Layer) (i : Nat) : Option (Provider Cells) :=
  let below (base : Nat) (_ : base < i) : Option (Provider Cells) := provider? layers base
  match layers[i]? with
  | none => none
  | some (.store id) => some (ground i Cell.store? .store (Store.provider id))
  | some (.stack id capacity settings) =>
    some (ground i Cell.stack? .stack (settings.stack Recency.table id capacity))
  | some (.lru base capacity) =>
    if h : base < i then
      (below base h).map fun d => mount i Cell.keys? .keys (Lru.layer (Recency.table capacity) d)
    else none
  | some (.hits base) =>
    if h : base < i then
      (below base h).map fun d => mount i Cell.hits? .hits (Hits.provider d)
    else none
  | some (.locks base timeout) =>
    if h : base < i then
      (below base h).map fun d => mount i Cell.keys? .keys (Locks.provider timeout d)
    else none
  | some (.transaction base) =>
    if h : base < i then
      (below base h).map fun d => mount i Cell.pending? .pending (Transaction.provider d)
    else none
  | some (.fault base failing) =>
    if h : base < i then (below base h).map fun d => Fault.provider failing d else none
termination_by i

def absent : Provider Cells where
  id := ""
  put s _ _ := (s, .ok ())
  get s _ := (s, .ok none)
  remove s _ := (s, .ok none)
  clear s := (s, .ok ())
  size _ := 0

def provider (layers : List Layer) (i : Nat) : Provider Cells :=
  (provider? layers i).getD absent

def add (r : Rack) (layer : Layer) (cell : Cell) : Rack × Nat :=
  (⟨r.layers ++ [layer], r.cells ++ [cell]⟩, r.layers.length)

def addLayer (r : Rack) (layer : Layer) : Rack × Nat :=
  r.add layer <| match layer with
    | .store _ => .store .empty
    | .lru _ _ => .keys []
    | .hits _ => .hits {}
    | .locks _ _ => .keys []
    | .transaction _ => .pending .empty
    | .fault _ _ => .none
    | .stack _ _ _ => .stack (Settings.initial [])

def addBuilt (r : Rack) (id : String) (s : Settings) : Rack × Except CacheError Nat :=
  match s.build Recency.table id, s.capacity? with
  | .ok _, .ok capacity =>
    let (r', i) := r.addLayer (.stack id capacity s)
    (r', .ok i)
  | .error e, _ => (r, .error e)
  | .ok _, .error e => (r, .error e)

def idOf (r : Rack) (i : Nat) : String := (provider r.layers i).id

def base? : Layer → Option Nat
  | .store _ => none
  | .lru base _ => some base
  | .hits base => some base
  | .locks base _ => some base
  | .transaction base => some base
  | .fault base _ => some base
  | .stack _ _ _ => none

def lift {α : Type} (r : Rack) (o : Outcome Cells α) : Outcome Rack α :=
  (⟨r.layers, o.1⟩, o.2)

def put (r : Rack) (i : Nat) (key : ContentKey) (v : Value) : Outcome Rack Unit :=
  r.lift ((provider r.layers i).put r.cells key v)

def get (r : Rack) (i : Nat) (key : ContentKey) : Outcome Rack (Option Value) :=
  r.lift ((provider r.layers i).get r.cells key)

def remove (r : Rack) (i : Nat) (key : ContentKey) : Outcome Rack (Option Value) :=
  r.lift ((provider r.layers i).remove r.cells key)

def clear (r : Rack) (i : Nat) : Outcome Rack Unit :=
  r.lift ((provider r.layers i).clear r.cells)

def size (r : Rack) (i : Nat) : Nat := (provider r.layers i).size r.cells

def finish (r : Rack) (i : Nat)
    (run : Provider Cells → Pending × Cells → Outcome (Pending × Cells) Unit) :
    Outcome Rack Unit :=
  match r.layers[i]? with
  | some (.transaction base) =>
    let o := run (provider r.layers base) ((r.cells.getD i .none).pending?, r.cells)
    (⟨r.layers, o.1.2.set i (.pending o.1.1)⟩, o.2)
  | _ => (r, .ok ())

def commit (r : Rack) (i : Nat) : Outcome Rack Unit := r.finish i Transaction.commit

def rollback (r : Rack) (i : Nat) : Outcome Rack Unit := r.finish i Transaction.rollback

def manage {α : Type} (r : Rack) (m : Manager Nat)
    (run : (Nat → Provider Cells) → Manager Nat × Cells → Outcome (Manager Nat × Cells) α) :
    (Rack × Manager Nat) × Except CacheError α :=
  let o := run (provider r.layers) (m, r.cells)
  ((⟨r.layers, o.1.2⟩, o.1.1), o.2)

end Rack

end PropTree
