import TinyMachine.Lib.Table

/-! The cache of execution results, which keeps a result for some time under
the digest of its language and code. -/
namespace TinyMachine
open Lib

/-- Instants and durations are counted in nanoseconds. -/
structure CacheEntry where
  result : String
  createdAt : Nat
  ttl : Nat
  deriving DecidableEq, Repr

def CacheEntry.isExpired (entry : CacheEntry) (now : Nat) : Bool := entry.ttl ≤ now - entry.createdAt

inductive CacheError where
  | full (max : Nat)
  deriving DecidableEq, Repr

def CacheError.display : CacheError → String
  | full max => s!"Cache is full (max {max} entries). Evict entries or increase capacity."

/-- What is hashed for a language and code. -/
def hashedBytes (code lang : String) : List UInt8 :=
  lang.toUTF8.data.toList ++ ":".toUTF8.data.toList ++ code.toUTF8.data.toList

structure ExecutionCache where
  entries : Table String CacheEntry
  maxEntries : Nat
  defaultTtl : Nat

namespace ExecutionCache

def defaultMaxEntries : Nat := 10000

def defaultTtlSecs : Nat := 3600

def new : ExecutionCache := ⟨∅, defaultMaxEntries, defaultTtlSecs * 1000000000⟩

variable (blake3 : List UInt8 → String)

/-- The hex digest that is the key. -/
def hash (code lang : String) : String := blake3 (hashedBytes code lang)

variable (cache : ExecutionCache)

def get (code lang : String) (now : Nat) : Option String :=
  (cache.entries.lookup (hash blake3 code lang)).bind fun entry =>
    if entry.isExpired now then none else some entry.result

/-- What has not expired when the clock is read for its key. -/
def live (clock : String → Nat) : Table String CacheEntry :=
  cache.entries.retain fun key entry => ¬ entry.isExpired (clock key)

def set (code lang result : String) (clock : String → Nat) (now : Nat) : Except CacheError Unit × ExecutionCache :=
  let entries := cache.live clock
  if cache.maxEntries ≤ entries.entries.length then
    (.error (.full cache.maxEntries), { cache with entries := entries })
  else
    (.ok (), { cache with entries := entries.insert (hash blake3 code lang) ⟨result, now, cache.defaultTtl⟩ })

def clear : ExecutionCache := { cache with entries := ∅ }

def len : Nat := cache.entries.entries.length

def evictExpired (clock : String → Nat) : Nat × ExecutionCache :=
  (cache.len - (cache.live clock).entries.length, { cache with entries := cache.live clock })

def setMaxEntries (max : Nat) : ExecutionCache := { cache with maxEntries := max }

def setDefaultTtl (ttl : Nat) : ExecutionCache := { cache with defaultTtl := ttl }

end ExecutionCache
end TinyMachine
