import PropTree.Cache.Key

set_option autoImplicit false

namespace PropTree

inductive SettingsFault where
  | lruCapacity
  | lruSize
  | timeoutWithoutBlocking
deriving DecidableEq, Repr

def SettingsFault.message : SettingsFault → String
  | .lruCapacity => "lru capacity must be at least 1"
  | .lruSize => "size must be at least 1 for lru eviction"
  | .timeoutWithoutBlocking => "blocking_timeout_ms is set but blocking is disabled"

inductive ConstructionFault where
  | emptyId
  | misnamed (actual : String)
deriving DecidableEq, Repr

def ConstructionFault.message : ConstructionFault → String
  | .emptyId => "a cache needs a non-empty id"
  | .misnamed actual => "builder returned a cache named '" ++ actual ++ "'"

inductive CacheError where
  | lockTimeout (cache : String) (key : ContentKey) (timeout : Nat)
  /-- The key is locked, and there is no limit to the wait for it. -/
  | wouldWait (cache : String) (key : ContentKey)
  | poisoned (cache : String)
  | invalidSettings (fault : SettingsFault)
  | construction (id : String) (fault : ConstructionFault)
deriving DecidableEq, Repr

/-- Milliseconds in the largest unit that leaves a whole part, without zeros
at the end. -/
def durationText (ms : Nat) : String :=
  if ms = 0 then "0ns"
  else if ms < 1000 then toString ms ++ "ms"
  else
    let whole := toString (ms / 1000)
    let rest := ms % 1000
    if rest = 0 then whole ++ "s"
    else
      let digits := (Nat.toDigits 10 (1000 + rest)).drop 1
      let kept := (digits.reverse.dropWhile (· = '0')).reverse
      whole ++ "." ++ String.ofList kept ++ "s"

namespace CacheError

def messageWith (keyText : Key → String) : CacheError → String
  | .lockTimeout cache key timeout =>
    "timed out after " ++ durationText timeout ++ " waiting for key '" ++ keyText key.key ++
      "' in cache '" ++ cache ++ "'"
  | .wouldWait cache key =>
    "waiting for key '" ++ keyText key.key ++ "' in cache '" ++ cache ++ "'"
  | .poisoned cache => "cache '" ++ cache ++ "' is poisoned"
  | .invalidSettings fault => "invalid cache settings: " ++ fault.message
  | .construction id fault => "cannot construct cache '" ++ id ++ "': " ++ fault.message

def message (e : CacheError) : String := e.messageWith Key.text

end CacheError

end PropTree
