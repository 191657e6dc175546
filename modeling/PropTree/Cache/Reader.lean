import PropTree.Cache.Rack

set_option autoImplicit false

namespace PropTree

structure Reader where
  layer : Nat
  key : ContentKey
  answer : Option (Except CacheError (Option Value)) := none

namespace Reader

/-- Does the lookup wait? A lookup with no time to wait does not. -/
def waits : Except CacheError (Option Value) → Bool
  | .error (.lockTimeout _ _ timeout) => timeout ≠ 0
  | .error (.wouldWait _ _) => true
  | _ => false

def poll (rack : Rack) (r : Reader) : Rack × Reader :=
  match r.answer with
  | some _ => (rack, r)
  | none =>
    let o := rack.get r.layer r.key
    if waits o.2 then (rack, r) else (o.1, { r with answer := some o.2 })

def pollAll (rack : Rack) : List Reader → Rack × List Reader
  | [] => (rack, [])
  | r :: rest =>
    let one := poll rack r
    let all := pollAll one.1 rest
    (all.1, one.2 :: all.2)

/-- The answer of the reader. If nobody has released the key by now, that is
the end of its wait. -/
def join (rack : Rack) (r : Reader) : Rack × Except CacheError (Option Value) :=
  match r.answer with
  | some a => (rack, a)
  | none => rack.get r.layer r.key

end Reader

end PropTree
