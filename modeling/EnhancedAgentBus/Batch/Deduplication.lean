import EnhancedAgentBus.Batch.Models
import EnhancedAgentBus.Lib.Dict
import EnhancedAgentBus.Lib.Repeats
import Mathlib.Algebra.Order.Ring.Rat
import Mathlib.Data.Finset.Card
import Mathlib.Data.String.Basic

/-!
# The deduplication middleware

Items are told apart by the digest of a text of five of their fields.  The digest of what was let
pass is kept in a cache that evicts the digest set least recently, and the instant at which it was
let pass in a table of its own.  The cache loses a digest only where it is full, and then the first
one (`LRUCache.set_spec`).
-/

namespace EnhancedAgentBus.Batch

/-! ## The cache -/

/-- `KeyError`: `popitem` of an empty dictionary. -/
inductive CacheError where
  | dictionaryIsEmpty
  deriving DecidableEq

/-- `str(e)` -/
def CacheError.text : CacheError → String
  | .dictionaryIsEmpty => "'dictionary is empty'"

structure LRUCache where
  maxsize : ℤ
  cache : Dict String Bool := Dict.empty

namespace LRUCache

variable (c : LRUCache)

/-- `key in cache` -/
def contains (key : String) : Bool := key ∈ c.cache.keys

/-- `len(cache)` -/
def len : ℕ := c.cache.keys.length

/-- `set`: the key comes last, and the first one goes where there is no room for a new key. -/
def set (key : String) (value : Bool) : Except CacheError LRUCache :=
  if key ∈ c.cache.keys then .ok { c with cache := (c.cache.erase key).set key value }
  else if c.maxsize ≤ c.len then
    if c.len = 0 then .error .dictionaryIsEmpty
    else .ok { c with cache := (c.cache.drop 1).set key value }
  else .ok { c with cache := c.cache.set key value }

end LRUCache

/-! ## The middleware -/

/-- `BatchDeduplicationMiddleware` -/
structure Deduplication where
  failClosed : Bool := true
  dedupWindowSec : ℤ := 300
  cache : LRUCache
  seenTimestamps : Dict String ℚ := Dict.empty

/-- What the clock reads while an item is looked at: in `_is_duplicate`, and when it is let pass. -/
structure Reading where
  checkedAt : ℚ
  stampedAt : ℚ

structure Arrival where
  item : BatchRequestItem
  reading : Reading

structure BatchDeduplicationException where
  message : String
  cacheSize : ℕ
  deriving DecidableEq

section Middleware

variable [PrintTable] (digest : String → String)

def contentStr (item : BatchRequestItem) : String :=
  "|".intercalate
    [if item.tenantId = "" then "default" else item.tenantId,
      item.fromAgent,
      item.messageType,
      if item.content = [] then "" else String.ofList (Json.pyStr (.obj item.content)),
      toString (if item.priority = 0 then 1 else item.priority)]

def computeMessageId (item : BatchRequestItem) : String := digest (contentStr item)

namespace Deduplication

variable (mw : Deduplication)

def isDuplicate (now : ℚ) (messageId : String) : Bool × Deduplication :=
  if mw.cache.contains messageId then
    if now - (mw.seenTimestamps.get messageId).getD 0 ≤ mw.dedupWindowSec then (true, mw)
    else (false, { mw with seenTimestamps := mw.seenTimestamps.erase messageId })
  else (false, mw)

/-- One turn of the loop of `process`: whether the item is a duplicate. -/
def visit (a : Arrival) : Except (CacheError × Deduplication) (Bool × Deduplication) :=
  let messageId := computeMessageId digest a.item
  match mw.isDuplicate a.reading.checkedAt messageId with
  | (true, mw) => .ok (true, mw)
  | (false, mw) =>
    match mw.cache.set messageId true with
    | .error e => .error (e, mw)
    | .ok cache => .ok (false,
        { mw with
          cache := cache
          seenTimestamps := mw.seenTimestamps.set messageId a.reading.stampedAt })

/-- What the loop of `process` has come to. -/
structure Swept where
  uniqueItems : List BatchRequestItem
  dedupCount : ℕ
  middleware : Deduplication

/-- The loop of `process`. -/
def sweep (mw : Deduplication) (uniqueItems : List BatchRequestItem) (dedupCount : ℕ) :
    List Arrival → Except (CacheError × Deduplication) Swept
  | [] => .ok ⟨uniqueItems, dedupCount, mw⟩
  | a :: rest =>
    match mw.visit digest a with
    | .error e => .error e
    | .ok (true, mw) => sweep mw uniqueItems (dedupCount + 1) rest
    | .ok (false, mw) => sweep mw (uniqueItems ++ [a.item]) dedupCount rest

def cleanOldTimestamps (currentTime : ℚ) : Deduplication :=
  { mw with
    seenTimestamps := mw.seenTimestamps.filterValues fun t =>
      ¬(currentTime - t > mw.dedupWindowSec) }

end Deduplication

def arrivalsFrom (clock : ℕ → Reading) (index : ℕ) : List BatchRequestItem → List Arrival
  | [] => []
  | item :: rest => ⟨item, clock index⟩ :: arrivalsFrom clock (index + 1) rest

/-- `process`, up to the call of the next middleware. -/
def Deduplication.process (mw : Deduplication) (clock : ℕ → Reading) (cleanedAt : ℚ)
    (context : BatchPipelineContext) :
    Except BatchDeduplicationException BatchPipelineContext × Deduplication :=
  if ¬context.deduplicate then (.ok context, mw)
  else if context.batchItems = [] then (.ok context, mw)
  else
    match mw.sweep digest [] 0 (arrivalsFrom clock 0 context.batchItems) with
    | .ok swept =>
      (.ok { context with
          batchItems := swept.uniqueItems
          deduplicatedCount := swept.dedupCount
          batchSize := swept.uniqueItems.length },
        swept.middleware.cleanOldTimestamps cleanedAt)
    | .error (e, mw) =>
      if mw.failClosed then (.error ⟨"Deduplication failed: " ++ e.text, mw.cache.len⟩, mw)
      else
        (.ok { context with
            earlyResult := some
              { isValid := false
                errors := ["Deduplication failed: " ++ e.text]
                validationStage := some "deduplication" } },
          mw)

end Middleware

/-! ## What the cache keeps -/

namespace LRUCache

def keys (c : LRUCache) : List String := c.cache.keys

theorem set_spec {c : LRUCache} (hpos : 0 < c.maxsize) (key : String) (value : Bool) :
    ∃ c' rest, c.set key value = .ok c' ∧ c'.maxsize = c.maxsize ∧ c'.keys = rest ++ [key] ∧
      rest.Sublist c.keys ∧
      ∀ k ∈ c.keys, k ≠ key → k ∉ rest → c.maxsize ≤ c.len ∧ ∃ tail, c.keys = k :: tail := by
  rw [set]
  by_cases hmem : key ∈ c.cache.keys
  · rw [if_pos hmem]
    refine ⟨_, (c.cache.erase key).keys, rfl, rfl, Dict.keys_set_of_new ?_,
      List.filter_sublist.map _, fun k hk hne hlost => absurd ?_ hlost⟩
    · intro h
      obtain ⟨v, hv⟩ := Dict.mem_keys_iff.mp h
      rw [Dict.get_erase, if_pos rfl] at hv
      cases hv
    · obtain ⟨v, hv⟩ := Dict.mem_keys_iff.mp hk
      exact Dict.mem_keys_iff.mpr ⟨v, by rw [Dict.get_erase, if_neg hne, hv]⟩
  · rw [if_neg hmem]
    by_cases hfull : c.maxsize ≤ c.len
    · rw [if_pos hfull, if_neg (by omega)]
      have htail : (c.cache.drop 1).keys = c.keys.tail := by
        rw [Dict.keys, Dict.drop, List.map_drop, List.drop_one]
        rfl
      refine ⟨_, c.keys.tail, rfl, rfl, ?_, List.tail_sublist _, fun k hk hne hlost => ⟨hfull, ?_⟩⟩
      · rw [keys, Dict.keys_set_of_new, htail]
        exact htail ▸ fun h => hmem ((List.tail_sublist _).mem h)
      · rcases hkeys : c.keys with _ | ⟨first, tail⟩
        · exact absurd (hkeys ▸ hk) List.not_mem_nil
        · rw [hkeys] at hk hlost
          rcases List.mem_cons.mp hk with rfl | hin
          · exact ⟨tail, rfl⟩
          · exact absurd hin hlost
    · rw [if_neg hfull]
      exact ⟨_, c.keys, rfl, rfl, Dict.keys_set_of_new hmem, List.Sublist.refl _,
        fun k hk _ hlost => absurd hk hlost⟩

end LRUCache

end EnhancedAgentBus.Batch
