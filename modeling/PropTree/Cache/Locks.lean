import PropTree.Cache.Provider

set_option autoImplicit false

/-!
# One computation per key

A lookup that finds nothing leaves its key locked for the client, who is expected
to put a value or to give up by a remove. Another lookup of a locked key waits,
at most for the timeout if there is one.
-/

namespace PropTree

namespace Locks

/-- The locked keys after a lookup took the key, unless it is locked. -/
def acquire (locked : List ContentKey) (key : ContentKey) : Option (List ContentKey) :=
  if key ∈ locked then none else some (key :: locked)

def release (locked : List ContentKey) (key : ContentKey) : List ContentKey :=
  locked.filter (· ≠ key)

theorem acquire_eq_some {locked locked' : List ContentKey} {key : ContentKey}
    (h : acquire locked key = some locked') : key ∉ locked ∧ locked' = key :: locked := by
  unfold acquire at h
  split at h
  · nomatch h
  · rename_i hfree
    exact ⟨hfree, (Option.some.inj h).symm⟩

theorem acquire_eq_none_iff {locked : List ContentKey} {key : ContentKey} :
    acquire locked key = none ↔ key ∈ locked := by
  unfold acquire
  split <;> simp_all

theorem mem_release {locked : List ContentKey} {key other : ContentKey} :
    other ∈ release locked key ↔ other ≠ key ∧ other ∈ locked := by
  simp [release, and_comm]

theorem release_cons_self {locked : List ContentKey} {key : ContentKey} (h : key ∉ locked) :
    release (key :: locked) key = locked := by
  have hkept : ∀ k ∈ locked, decide (k ≠ key) = true := by
    intro k hk
    exact decide_eq_true fun hkey => h (hkey ▸ hk)
  rw [release, List.filter_cons_of_neg (by simp), List.filter_eq_self.2 hkept]

/-- What a lookup of a key ends with that stays locked all the time. -/
def blocked (cache : String) (timeout : Option Nat) (key : ContentKey) : CacheError :=
  match timeout with
  | some ms => .lockTimeout cache key ms
  | none => .wouldWait cache key

variable {σ : Type}

def put (d : Provider σ) (s : List ContentKey × σ) (key : ContentKey) (v : Value) :
    Outcome (List ContentKey × σ) Unit :=
  Provider.beside (release s.1 key) (d.put s.2 key v)

def get (timeout : Option Nat) (d : Provider σ) (s : List ContentKey × σ) (key : ContentKey) :
    Outcome (List ContentKey × σ) (Option Value) :=
  match acquire s.1 key with
  | none => (s, .error (blocked d.id timeout key))
  | some locked =>
    match d.get s.2 key with
    | (below, .ok none) => ((locked, below), .ok none)
    | (below, found) => ((release locked key, below), found)

/-- A remove only releases the key; what the layer below holds stays. -/
def remove (s : List ContentKey × σ) (key : ContentKey) :
    Outcome (List ContentKey × σ) (Option Value) :=
  ((release s.1 key, s.2), .ok none)

def provider (timeout : Option Nat) (d : Provider σ) : Provider (List ContentKey × σ) where
  id := d.id
  put s key v := put d s key v
  get s key := get timeout d s key
  remove s key := remove s key
  clear s := Provider.beside s.1 (d.clear s.2)
  size s := d.size s.2

end Locks

end PropTree
