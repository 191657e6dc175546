import Mathlib.Logic.Function.Basic
import Mathlib.Logic.Relation
import PropTree.Cache.Locks
import PropTree.Cache.Store
import PropTree.Proofs.Cache.Calls

set_option autoImplicit false

/-!
# Locks step by step

Clients of a layer of locks over a store, side by side. A call is cut where others
may come between, and a call that nobody disturbs is a path of these steps.
-/

namespace PropTree

namespace Locks

inductive Stage where
  | idle
  | waiting (key : ContentKey)
  | looking (key : ContentKey)
  | found (key : ContentKey) (v : Value)
  | storing (key : ContentKey) (v : Value)
  | releasing (key : ContentKey)
deriving DecidableEq, Repr

/-- `owed` has the keys that the client missed and did not put or remove yet. -/
structure Client where
  stage : Stage := .idle
  owed : List ContentKey := []
deriving DecidableEq, Repr

inductive Event where
  | callGet (key : ContentKey)
  | acquire (key : ContentKey)
  | timeOut (key : ContentKey)
  | lookup (key : ContentKey) (answer : Option Value)
  | callPut (key : ContentKey) (v : Value)
  | store (key : ContentKey) (v : Value)
  | callRemove (key : ContentKey)
  | release (key : ContentKey)
  | clear
deriving DecidableEq, Repr

abbrev ClientState := Client × List ContentKey × Store

inductive Moves (timeout : Option Nat) : ClientState → Event → ClientState → Prop
  | callGet {owed : List ContentKey} {locked : List ContentKey} {s : Store} (key : ContentKey) :
    Moves timeout (⟨.idle, owed⟩, locked, s) (.callGet key) (⟨.waiting key, owed⟩, locked, s)
  | acquire {owed locked locked' : List ContentKey} {s : Store} {key : ContentKey}
    (taken : Locks.acquire locked key = some locked') :
    Moves timeout (⟨.waiting key, owed⟩, locked, s) (.acquire key)
      (⟨.looking key, owed⟩, locked', s)
  | timeOut {owed locked : List ContentKey} {s : Store} {key : ContentKey}
      (limited : timeout.isSome) (blocked : Locks.acquire locked key = none) :
    Moves timeout (⟨.waiting key, owed⟩, locked, s) (.timeOut key) (⟨.idle, owed⟩, locked, s)
  | hit {owed locked : List ContentKey} {s : Store} {key : ContentKey} {v : Value}
    (present : s.get? key = some v) :
    Moves timeout (⟨.looking key, owed⟩, locked, s) (.lookup key (some v))
      (⟨.found key v, owed⟩, locked, s)
  | miss {owed locked : List ContentKey} {s : Store} {key : ContentKey}
      (absent : s.get? key = none) :
    Moves timeout (⟨.looking key, owed⟩, locked, s) (.lookup key none)
      (⟨.idle, key :: owed⟩, locked, s)
  | answer {owed locked : List ContentKey} {s : Store} {key : ContentKey} {v : Value} :
    Moves timeout (⟨.found key v, owed⟩, locked, s) (.release key)
      (⟨.idle, owed⟩, Locks.release locked key, s)
  | callPut {owed locked : List ContentKey} {s : Store} {key : ContentKey} (v : Value)
      (missed : key ∈ owed) :
    Moves timeout (⟨.idle, owed⟩, locked, s) (.callPut key v) (⟨.storing key v, owed⟩, locked, s)
  | store {owed locked : List ContentKey} {s : Store} {key : ContentKey} {v : Value} :
    Moves timeout (⟨.storing key v, owed⟩, locked, s) (.store key v)
      (⟨.releasing key, owed⟩, locked, s.insert key v)
  | callRemove {owed locked : List ContentKey} {s : Store} {key : ContentKey}
      (missed : key ∈ owed) :
    Moves timeout (⟨.idle, owed⟩, locked, s) (.callRemove key) (⟨.releasing key, owed⟩, locked, s)
  | release {owed locked : List ContentKey} {s : Store} {key : ContentKey} :
    Moves timeout (⟨.releasing key, owed⟩, locked, s) (.release key)
      (⟨.idle, owed.erase key⟩, Locks.release locked key, s)
  | clear {owed locked : List ContentKey} {s : Store} :
    Moves timeout (⟨.idle, owed⟩, locked, s) .clear (⟨.idle, owed⟩, locked, .empty)

/-- The calls that a client may make: a put or a remove only answers a miss. -/
def Client.May (c : Client) : CacheCall → Prop
  | .put key _ | .remove key => key ∈ c.owed
  | .get _ | .clear => True

def owedAfter (owed : List ContentKey) :
    CacheCall → Except CacheError (Option Value) → List ContentKey
  | .get key, .ok none => key :: owed
  | .put key _, _ | .remove key, _ => owed.erase key
  | _, _ => owed

/-- A get without a limit that finds its key locked goes on waiting. -/
def stageAfter : CacheCall → Except CacheError (Option Value) → Stage
  | .get _, .error (.wouldWait _ key) => .waiting key
  | _, _ => .idle

abbrev Path (timeout : Option Nat) : ClientState → ClientState → Prop :=
  Relation.ReflTransGen fun x y => ∃ e, Moves timeout x e y

/-- A call in one piece, as the layer carries it out, is a path of steps. -/
theorem path_call (timeout : Option Nat) (id : String) (owed : List ContentKey)
    (s : List ContentKey × Store) {call : CacheCall} (h : Client.May ⟨.idle, owed⟩ call) :
    let o := (provider timeout (Store.provider id)).call s call
    Path timeout (⟨.idle, owed⟩, s) (⟨stageAfter call o.2, owedAfter owed call o.2⟩, o.1) := by
  obtain ⟨locked, s⟩ := s
  cases call with
  | get key =>
    have hwait : Path timeout (⟨.idle, owed⟩, locked, s) (⟨.waiting key, owed⟩, locked, s) :=
      .single ⟨_, .callGet key⟩
    dsimp only [Provider.call, provider]
    unfold get
    cases hlocked : acquire locked key with
    | none =>
      cases timeout with
      | none => exact hwait
      | some ms => exact hwait.tail ⟨_, .timeOut rfl hlocked⟩
    | some locked' =>
      have hlook := hwait.tail ⟨_, .acquire hlocked⟩
      have hget : (Store.provider id).get s key = (s, .ok (s.get? key)) := rfl
      simp only [hget]
      cases hs : s.get? key with
      | none => exact hlook.tail ⟨_, .miss hs⟩
      | some v => exact (hlook.tail ⟨_, .hit hs⟩).tail ⟨_, .answer⟩
  | put key v =>
    exact ((Relation.ReflTransGen.single ⟨_, .callPut v h⟩).tail ⟨_, .store⟩).tail ⟨_, .release⟩
  | remove key => exact (Relation.ReflTransGen.single ⟨_, .callRemove h⟩).tail ⟨_, .release⟩
  | clear => exact .single ⟨_, .clear⟩

structure World (ι : Type) where
  client : ι → Client
  locked : List ContentKey
  store : Store

variable {ι : Type}

def World.start (s : Store) : World ι := ⟨fun _ => {}, [], s⟩

variable [DecidableEq ι]

def World.move (w : World ι) (i : ι) (x : ClientState) : World ι :=
  ⟨Function.update w.client i x.1, x.2.1, x.2.2⟩

theorem World.move_client (w : World ι) (i j : ι) (x : ClientState) :
    (w.move i x).client j = if j = i then x.1 else w.client j :=
  Function.update_apply ..

inductive Step (timeout : Option Nat) : World ι → ι × Event → World ι → Prop
  | mk {w : World ι} {i : ι} {e : Event} {x : ClientState}
    (moves : Moves timeout (w.client i, w.locked, w.store) e x) :
    Step timeout w (i, e) (w.move i x)

inductive Run (timeout : Option Nat) : World ι → List (ι × Event) → World ι → Prop
  | nil (w : World ι) : Run timeout w [] w
  | cons {w u w' : World ι} {e : ι × Event} {events : List (ι × Event)}
    (step : Step timeout w e u) (rest : Run timeout u events w') : Run timeout w (e :: events) w'

theorem run_append {timeout : Option Nat} {w w' : World ι} {events events' : List (ι × Event)} :
    Run timeout w (events ++ events') w' ↔
      ∃ u, Run timeout w events u ∧ Run timeout u events' w' := by
  constructor
  · intro h
    induction events generalizing w with
    | nil => exact ⟨w, .nil w, h⟩
    | cons e events ih =>
      cases h with
      | cons step rest =>
        obtain ⟨u, hu, hu'⟩ := ih rest
        exact ⟨u, .cons step hu, hu'⟩
  · rintro ⟨u, h, h'⟩
    induction h with
    | nil => exact h'
    | cons step _ ih => exact .cons step (ih h')

end Locks

end PropTree
