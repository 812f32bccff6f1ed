import EnhancedAgentBus.Json.Text
import EnhancedAgentBus.Lib.Async
import EnhancedAgentBus.Lib.Dict
import Mathlib.Data.List.Infix

/-!
# The constitutional context cache

A cache in two tiers: L1 is an ordered dictionary of the process, L2 is Redis.  A call of the cache
is a program of operations.  What it does between two awaits of Redis is an operation on L1, and a
command takes effect in Redis at some moment of its await; so other calls may run between any two
operations of a call.

The ghosts say what one map with expiry would hold.  `latest` is the life of the latest set of each
key, up to its invalidation; a pattern takes a key that is in L1 when its turn comes, and any other
at once.  `owner` numbers the latest set or invalidation of a key, and `pending` tells that it has
still to reach L2.  An operation that writes to L2 carries the life, or the number, it belongs to.
No branch reads a ghost.

The prefix of the keys in L2, the content hash of an entry, the statistics, and the list that
`get_constitutional_context` returns are left out.
-/

namespace EnhancedAgentBus.ContextMemory

open Async Async.Prog

/-! ## Values -/

/-- A value of the cache: JSON data, or an object with parts that are not.  `written` is the object
with the `str` of each such part in its place. -/
inductive Value where
  | json (v : Json)
  | other (object : ℕ) (written : Json)

namespace Value

def serializable : Value → Json
  | json v => v
  | other _ written => written

/-- `json_dumps(serializable, default=str)` -/
def dumps (layout : JsonText.Layout) (value : Value) : List Char :=
  JsonText.write layout 0 value.serializable

/-- `json_loads`: `null` is nothing, and so is a text that raises a `ValueError`. -/
def loads (text : List Char) : Option Value :=
  match JsonText.loads text with
  | none | some .null => none
  | some v => some (.json v)

def Survives (layout : JsonText.Layout) (value : Value) : Prop :=
  ∀ v, loads (value.dumps layout) = some v → v = value

end Value

/-! ## The tiers -/

/-- What the configuration says; `layout` is how the JSON library lays a text out. -/
structure CacheConfig where
  l1MaxEntries : ℕ := 1000
  l1TtlSeconds : ℤ := 300
  /-- `self.config.l2_enabled and self._redis_client` -/
  l2 : Bool := false
  layout : JsonText.Layout := JsonText.compact

structure CacheEntry where
  value : Value
  expiresAt : ℤ
  isConstitutional : Bool

structure Life where
  set : ℕ
  value : Value
  expires : ℤ

def seconds (n : ℤ) : ℤ := n * 1000000

/-- `ttl_seconds or self.config.l1_ttl_seconds` -/
def CacheConfig.ttl (config : CacheConfig) : Option ℤ → ℤ
  | none => config.l1TtlSeconds
  | some ttlSeconds => if ttlSeconds = 0 then config.l1TtlSeconds else ttlSeconds

def CacheConfig.asked (config : CacheConfig) (ttlSeconds : Option ℤ) : ℤ :=
  ttlSeconds.getD config.l1TtlSeconds

def evictOne (l1 : Dict String CacheEntry) : Dict String CacheEntry :=
  match l1.entries.find? fun e => !e.2.isConstitutional with
  | some (key, _) => l1.erase key
  | none =>
    match l1.entries with
    | [] => l1
    | (key, _) :: _ => l1.erase key

/-- `while len(self._l1_cache) >= self.config.l1_max_entries: self._evict_one()` -/
def evict (l1MaxEntries : ℕ) (l1 : Dict String CacheEntry) : Dict String CacheEntry :=
  evictOne^[l1.entries.length + 1 - l1MaxEntries] l1

theorem get_of_get_evictOne {l1 : Dict String CacheEntry} {key : String} {e : CacheEntry}
    (h : (evictOne l1).get key = some e) : l1.get key = some e := by
  have herase {k : String} (h : (l1.erase k).get key = some e) : l1.get key = some e := by
    rw [Dict.get_erase] at h
    split at h
    · cases h
    · exact h
  rw [evictOne] at h
  split at h
  · exact herase h
  · split at h
    · exact h
    · exact herase h

theorem get_of_get_evict {n : ℕ} {l1 : Dict String CacheEntry} {key : String} {e : CacheEntry}
    (h : (evict n l1).get key = some e) : l1.get key = some e := by
  rw [evict] at h
  generalize l1.entries.length + 1 - n = count at h
  induction count generalizing l1 with
  | zero => exact h
  | succ count ih => exact get_of_get_evictOne (ih h)

structure Tiers where
  now : ℤ := 0
  l1 : Dict String CacheEntry := Dict.empty
  /-- the text under a key, and when it expires -/
  l2 : String → Option (List Char × ℤ) := fun _ => none
  latest : String → Option Life := fun _ => none
  owner : String → ℕ := fun _ => 0
  pending : String → Bool := fun _ => false
  count : ℕ := 0

def Tiers.Current (s : Tiers) (key : String) (value : Value) : Prop :=
  ∃ life, s.latest key = some life ∧ life.value = value ∧ s.now ≤ life.expires

/-! ## Operations -/

/-- Where a `set` comes from: from a caller, or from a `get` that has read L2 when `source` was the
latest life of the key. -/
inductive Origin where
  | call
  | promotion (source : Option Life)

/-- `pattern in key` -/
def contains (pattern key : String) : Bool := decide (pattern.toList <:+: key.toList)

inductive Op where
  /-- the entry of `get` in L1 -/
  | lookup (key : String)
  /-- what `set` does in L1 -/
  | store (origin : Origin) (key : String) (value : Value) (ttlSeconds : Option ℤ)
      (isConstitutional : Bool)
  /-- what `invalidate` does in L1 -/
  | drop (key : String)
  /-- `[k for k in self._l1_cache.keys() if pattern in k]` -/
  | matching (pattern : String)
  | redisGet (key : String)
  | setex (origin : Origin) (life : Option Life) (key : String) (ttl : ℤ) (text : List Char)
  | redisDelete (owner : ℕ) (key : String)

/-- What an operation answers; `setex` refuses a time to live that is not positive. -/
abbrev Op.Resp : Op → Type
  | lookup _ => Option Value
  | store .. => Option Life
  | drop _ => Bool × ℕ
  | matching _ => List String
  | redisGet _ => Option (List Char) × Option Life
  | setex .. => Bool
  | redisDelete .. => Unit

namespace Tiers

def lookup (s : Tiers) (key : String) : Option Value × Tiers :=
  match s.l1.get key with
  | none => (none, s)
  | some entry =>
    if entry.expiresAt < s.now then (none, s)
    else (some entry.value, { s with l1 := s.l1.moveToEnd key })

def storeL1 (config : CacheConfig) (s : Tiers) (key : String) (entry : CacheEntry) : Tiers :=
  { s with l1 := ((evict config.l1MaxEntries s.l1).set key entry).moveToEnd key }

def begin (config : CacheConfig) (s : Tiers) (key : String) (life : Option Life) : Tiers :=
  { s with
    latest := Function.update s.latest key life
    owner := Function.update s.owner key s.count
    pending := Function.update s.pending key config.l2
    count := s.count + 1 }

def store (config : CacheConfig) (s : Tiers) (origin : Origin) (key : String) (value : Value)
    (ttlSeconds : Option ℤ) (isConstitutional : Bool) : Option Life × Tiers :=
  let stored := s.storeL1 config key
    ⟨value, s.now + seconds (config.ttl ttlSeconds), isConstitutional⟩
  match origin with
  | .promotion source => (source, stored)
  | .call =>
    let life : Life := ⟨s.count, value, s.now + seconds (config.asked ttlSeconds)⟩
    (some life, stored.begin config key (some life))

/-- `del self._l1_cache[key]`, if it is there. -/
def drop (config : CacheConfig) (s : Tiers) (key : String) : (Bool × ℕ) × Tiers :=
  (((s.l1.get key).isSome, s.count), { s with l1 := s.l1.erase key }.begin config key none)

/-- The keys that a pattern finds; a key that it does not find, though it matches, is invalid. -/
def matching (s : Tiers) (pattern : String) : List String × Tiers :=
  (s.l1.keys.filter (contains pattern),
    { s with
      latest := fun key =>
        if contains pattern key ∧ key ∉ s.l1.keys then none else s.latest key })

def visible (s : Tiers) (key : String) : Option (List Char) :=
  (s.l2 key).bind fun (text, expires) => if s.now ≤ expires then some text else none

theorem visible_of_l2 {s : Tiers} {key : String} {text : List Char} {expires : ℤ}
    (h : s.l2 key = some (text, expires)) (hvalid : s.now ≤ expires) :
    s.visible key = some text := by
  rw [visible, h, Option.bind_some]
  exact if_pos hvalid

def setex (s : Tiers) (life : Option Life) (key : String) (ttl : ℤ) (text : List Char) :
    Bool × Tiers :=
  if ttl ≤ 0 then (false, s)
  else
    (true,
      { s with
        l2 := Function.update s.l2 key (some (text, s.now + seconds ttl))
        pending := Function.update s.pending key
          (s.pending key && life.all fun life => life.set ≠ s.owner key) })

def redisDelete (s : Tiers) (owner : ℕ) (key : String) : Tiers :=
  { s with
    l2 := Function.update s.l2 key none
    pending := Function.update s.pending key (s.pending key && owner ≠ s.owner key) }

/-- An operation is performed.  Where L1 may hold no entry, the loop of `set` does not end. -/
def perform (config : CacheConfig) (s : Tiers) : (o : Op) → Option (o.Resp × Tiers)
  | .lookup key => some (s.lookup key)
  | .store origin key value ttlSeconds isConstitutional =>
    if config.l1MaxEntries = 0 then none
    else some (s.store config origin key value ttlSeconds isConstitutional)
  | .drop key => some (s.drop config key)
  | .matching pattern => some (s.matching pattern)
  | .redisGet key => some ((s.visible key, s.latest key), s)
  | .setex _ life key ttl text => some (s.setex life key ttl text)
  | .redisDelete owner key => some ((), s.redisDelete owner key)

end Tiers

/-! ## The code -/

/-- Redis answers `SETEX` with an error, which is none of those that are caught. -/
inductive RedisError where
  | responseError

abbrev Code (α : Type) := Prog Op Op.Resp RedisError α

/-- Context that is always cached; its object is written as its `str`. -/
structure ContextChunk where
  chunkId : String
  object : ℕ
  str : String

def ContextChunk.value (chunk : ContextChunk) : Value := .other chunk.object (.str chunk.str)

section

variable (config : CacheConfig)

/-- `_get_from_l2`, with the ghost of the moment. -/
def getFromL2 (key : String) : Code (Option Value × Option Life) := do
  let answer ← perform (Op.redisGet key)
  return (answer.1.bind Value.loads, answer.2)

def setToL2 (origin : Origin) (life : Option Life) (key : String) (value : Value) (ttl : ℤ) :
    Code Bool := do
  if ← perform (Op.setex origin life key ttl (value.dumps config.layout)) then return true
  else .raise .responseError

def deleteFromL2 (owner : ℕ) (key : String) : Code Unit := perform (Op.redisDelete owner key)

def set (origin : Origin) (key : String) (value : Value) (ttlSeconds : Option ℤ)
    (isConstitutional : Bool) : Code Bool := do
  let life ← perform (Op.store origin key value ttlSeconds isConstitutional)
  if config.l2 then
    let _ ← setToL2 config origin life key value (config.ttl ttlSeconds)
    return true
  else return true

/-- `get`; `none` is the default that the caller gave. -/
def get (key : String) : Code (Option Value) := do
  match ← perform (Op.lookup key) with
  | some value => return some value
  | none =>
    if config.l2 then
      match ← getFromL2 key with
      | (some value, source) =>
        -- Promote to L1
        let _ ← set config (.promotion source) key value none false
        return some value
      | (none, _) => return none
    else return none

/-- `set_constitutional_context`, chunk by chunk. -/
def setConstitutionalContext : List ContextChunk → Code Unit
  | [] => return ()
  | chunk :: rest => do
    let _ ← set config .call ("constitutional:" ++ chunk.chunkId) chunk.value
      (some (config.l1TtlSeconds * 10)) true
    setConstitutionalContext rest

def invalidate (key : String) : Code Bool := do
  let answer ← perform (Op.drop key)
  if config.l2 then
    deleteFromL2 answer.2 key
    return answer.1
  else return answer.1

/-- `for key in keys_to_remove: await self.invalidate(key)` -/
def invalidateAll : List String → Code Unit
  | [] => return ()
  | key :: rest => do
    let _ ← invalidate config key
    invalidateAll rest

def invalidatePattern (pattern : String) : Code ℕ := do
  let keys ← perform (Op.matching pattern)
  invalidateAll config keys
  return keys.length

end

end EnhancedAgentBus.ContextMemory
