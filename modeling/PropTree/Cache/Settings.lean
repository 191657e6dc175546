import PropTree.Cache.Hits
import PropTree.Cache.Locks
import PropTree.Cache.Lru
import PropTree.Cache.Store
import PropTree.Document.Basic

set_option autoImplicit false

namespace PropTree

inductive Eviction where
  | lru
  | unbounded
deriving DecidableEq, Repr

def Eviction.text : Eviction → String
  | .lru => "lru"
  | .unbounded => "unbounded"

def Eviction.ofText? : String → Option Eviction
  | "lru" => some .lru
  | "unbounded" => some .unbounded
  | _ => none

structure Settings where
  eviction : Eviction := .lru
  size : Nat := 1024
  blocking : Bool := false
  timeoutMs : Option Nat := none
  logging : Bool := true
deriving DecidableEq, Repr

abbrev StackState (ρ : Type) := List ContentKey × Hits × ρ × Store

namespace Settings

variable {ρ : Type}

def default : Settings := {}

def withTimeout (s : Settings) (ms : Nat) : Settings :=
  { s with blocking := true, timeoutMs := some ms }

def validate (s : Settings) : Except CacheError Unit :=
  if s.eviction = .lru ∧ s.size = 0 then .error (.invalidSettings .lruSize)
  else if s.timeoutMs.isSome ∧ s.blocking = false then
    .error (.invalidSettings .timeoutWithoutBlocking)
  else .ok ()

/-- The store under eviction, under counting, under locks, as far as asked. -/
def stack (tables : Capacity → RecencyTable ρ) (id : String) (capacity : Option Capacity)
    (s : Settings) : Provider (StackState ρ) :=
  let evicting := Provider.optionally (fun c => Lru.layer (tables c)) capacity (Store.provider id)
  let counting := Provider.optionally (fun (_ : Unit) d => Hits.provider d)
    (if s.logging then some () else none) evicting
  Provider.optionally Locks.provider (if s.blocking then some s.timeoutMs else none) counting

def capacity? (s : Settings) : Except CacheError (Option Capacity) :=
  match s.eviction with
  | .lru => (Capacity.ofNat s.size).map some
  | .unbounded => .ok none

def build (tables : Capacity → RecencyTable ρ) (id : String) (s : Settings) :
    Except CacheError (Provider (StackState ρ)) :=
  if id.isEmpty then .error (.construction id .emptyId)
  else do
    s.validate
    let capacity ← s.capacity?
    .ok (s.stack tables id capacity)

def initial (recent : ρ) : StackState ρ := ([], {}, recent, .empty)

/-! ## Settings as documents -/

def flag? : Document → Option Bool
  | .bool b => some b
  | _ => none

def natural? : Document → Option Nat
  | .integer n => if 0 ≤ n.val then some n.val.toNat else none
  | _ => none

def timeout? : Document → Option (Option Nat)
  | .null => some none
  | d => (natural? d).map some

def eviction? : Document → Option Eviction
  | .string s => Eviction.ofText? s
  | .object ⟨[(key, .null)]⟩ => Eviction.ofText? key
  | _ => none

def withField (s : Settings) (name : String) (d : Document) : Option Settings :=
  match name with
  | "eviction" => (eviction? d).map fun e => { s with eviction := e }
  | "size" => (natural? d).map fun n => { s with size := n }
  | "blocking" => (flag? d).map fun b => { s with blocking := b }
  | "blocking_timeout_ms" => (timeout? d).map fun t => { s with timeoutMs := t }
  | "logging" => (flag? d).map fun b => { s with logging := b }
  | _ => none

def fieldNames : List String :=
  ["eviction", "size", "blocking", "blocking_timeout_ms", "logging"]

/-- An object of known fields, or an array of their values from the first on. -/
def ofDocument? : Document → Option Settings
  | .object entries =>
    entries.entries.foldlM (fun s (entry : String × Document) => s.withField entry.1 entry.2)
      default
  | .array items =>
    if items.length ≤ fieldNames.length then
      (fieldNames.zip items).foldlM
        (fun s (entry : String × Document) => s.withField entry.1 entry.2) default
    else none
  | _ => none

end Settings

end PropTree
