import PropTree.Cache.Provider

set_option autoImplicit false

namespace PropTree

inductive CacheCall where
  | get (key : ContentKey)
  | put (key : ContentKey) (v : Value)
  | remove (key : ContentKey)
  | clear
deriving DecidableEq, Repr

namespace Provider

variable {σ : Type}

/-- A put and a clear answer with no value. -/
def call (d : Provider σ) (s : σ) : CacheCall → Outcome σ (Option Value)
  | .get key => d.get s key
  | .put key v => ((d.put s key v).1, (d.put s key v).2.map fun _ => none)
  | .remove key => d.remove s key
  | .clear => ((d.clear s).1, (d.clear s).2.map fun _ => none)

def after (d : Provider σ) (s : σ) (calls : List CacheCall) : σ :=
  calls.foldl (fun s c => (d.call s c).1) s

theorem after_concat (d : Provider σ) (s : σ) (calls : List CacheCall) (c : CacheCall) :
    d.after s (calls ++ [c]) = (d.call (d.after s calls) c).1 := by
  rw [after, List.foldl_append]
  rfl

end Provider

end PropTree
