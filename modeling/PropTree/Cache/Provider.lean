import PropTree.Cache.Error

set_option autoImplicit false

/-!
# Cache providers

What each operation of a cache does to a state `σ`, also when it fails. A decorator
has a state of its own next to that of the layer below.
-/

namespace PropTree

abbrev Outcome (σ α : Type) := σ × Except CacheError α

structure Provider (σ : Type) where
  id : String
  put : σ → ContentKey → Value → Outcome σ Unit
  get : σ → ContentKey → Outcome σ (Option Value)
  remove : σ → ContentKey → Outcome σ (Option Value)
  clear : σ → Outcome σ Unit
  size : σ → Nat

namespace Provider

variable {σ τ ω : Type}

def beside {α : Type} (own : ω) (o : Outcome σ α) : Outcome (ω × σ) α := ((own, o.1), o.2)

def passing (d : Provider σ) : Provider (ω × σ) where
  id := d.id
  put s key v := beside s.1 (d.put s.2 key v)
  get s key := beside s.1 (d.get s.2 key)
  remove s key := beside s.1 (d.remove s.2 key)
  clear s := beside s.1 (d.clear s.2)
  size s := d.size s.2

def optionally {α : Type} (decorate : α → Provider σ → Provider (ω × σ)) (a : Option α)
    (d : Provider σ) : Provider (ω × σ) :=
  match a with
  | some a => decorate a d
  | none => d.passing

/-- The same provider on a state that contains the one it works on. -/
def onPart (p : Provider σ) (part : τ → σ) (withPart : τ → σ → τ) : Provider τ where
  id := p.id
  put s key v := let o := p.put (part s) key v; (withPart s o.1, o.2)
  get s key := let o := p.get (part s) key; (withPart s o.1, o.2)
  remove s key := let o := p.remove (part s) key; (withPart s o.1, o.2)
  clear s := let o := p.clear (part s); (withPart s o.1, o.2)
  size s := p.size (part s)

end Provider

end PropTree
