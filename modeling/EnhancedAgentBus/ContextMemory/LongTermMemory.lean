import EnhancedAgentBus.Lib.Dict
import EnhancedAgentBus.Lib.Machine
import Mathlib.Algebra.Order.Ring.Rat
import Mathlib.Data.List.Perm.Basic

/-!
# Episodic memory

An episodic entry is kept twice: in the cache of the store, and as a row of its SQLite table.
`retrieve_episodic` looks in the cache for an entry id and in the table for everything else.

* A cached entry is returned as it is, whatever the other filters, the limit and the offset say.
* The query knows neither the entry id nor the offset, and takes an empty filter for none.
* Consolidation deletes from the cache alone; the rows stay, and a query caches them again.

Every call is a coroutine that never suspends, so a run of the store is a list of calls.  Its ghosts
are what was stored and which ids consolidation has removed; no function of the source reads them.
A time counts microseconds: `isoformat` texts of one zone sort like the times themselves.

An entry's outcome, context and embedding go into the row and come back with it; nothing reads
them, and they are left out, as are the metrics and the audit trail.
-/

namespace EnhancedAgentBus.ContextMemory

open Machine

/-! ## Entries -/

structure Memory where
  entryId : String
  sessionId : String
  tenantId : String
  timestamp : ℤ
  eventType : String
  content : String
deriving DecidableEq, Repr

structure EpisodicMemoryEntry extends Memory where
  relevanceDecay : ℚ := 1
  accessCount : ℕ := 0
  lastAccessed : Option ℤ := none
deriving DecidableEq

namespace EpisodicMemoryEntry

def decayRelevance (now : ℤ) (entry : EpisodicMemoryEntry) : EpisodicMemoryEntry :=
  { entry with
    relevanceDecay := max (1 / 10) (1 - 1 / 100 * ((now - entry.timestamp : ℤ) / 3600000000)) }

def recordAccess (now : ℤ) (entry : EpisodicMemoryEntry) : EpisodicMemoryEntry :=
  { entry with accessCount := entry.accessCount + 1, lastAccessed := some now }

end EpisodicMemoryEntry

/-- The filters of a retrieval; `none` is a filter that is not given. -/
structure Filters where
  entryId : Option String := none
  sessionId : Option String := none
  tenantId : Option String := none
  eventType : Option String := none
deriving DecidableEq, Repr

def Filters.select (filters : Filters) (memory : Memory) : Bool :=
  filters.entryId.all (· = memory.entryId) && filters.sessionId.all (· = memory.sessionId) &&
    filters.tenantId.all (· = memory.tenantId) && filters.eventType.all (· = memory.eventType)

/-- A filter of the query: `if value: query += " AND column = ?"`. -/
def narrows (value : Option String) (column : String) : Bool :=
  value.all fun value => value = "" || value = column

def Filters.whereClause (filters : Filters) (memory : Memory) : Bool :=
  narrows filters.sessionId memory.sessionId && narrows filters.tenantId memory.tenantId &&
    narrows filters.eventType memory.eventType

theorem narrows_of_all {value : Option String} {column : String}
    (h : value.all (· = column) = true) : narrows value column = true := by
  rcases value with _ | value
  · rfl
  · have heq : value = column := of_decide_eq_true h
    simp [narrows, heq]

theorem Filters.whereClause_of_select {filters : Filters} {memory : Memory}
    (h : filters.select memory) : filters.whereClause memory := by
  simp only [select, Bool.and_eq_true] at h
  obtain ⟨⟨⟨-, hsession⟩, htenant⟩, hevent⟩ := h
  simp only [whereClause, Bool.and_eq_true]
  exact ⟨⟨narrows_of_all hsession, narrows_of_all htenant⟩, narrows_of_all hevent⟩

theorem Filters.tenantId_of_select {filters : Filters} {memory : Memory} {tenantId : String}
    (h : filters.select memory) (hgiven : filters.tenantId = some tenantId) :
    memory.tenantId = tenantId := by
  simp only [select, Bool.and_eq_true, hgiven, Option.all_some, decide_eq_true_eq] at h
  exact h.1.2.symm

/-! ## The table -/

/-- `episodic_memory`, with `entry_id TEXT PRIMARY KEY`. -/
structure EpisodicTable where
  rows : List EpisodicMemoryEntry
  primaryKey : (rows.map (·.entryId)).Nodup

def EpisodicTable.empty : EpisodicTable := ⟨[], List.nodup_nil⟩

/-- `INSERT OR REPLACE INTO episodic_memory` -/
def EpisodicTable.insertOrReplace (table : EpisodicTable) (entry : EpisodicMemoryEntry) :
    EpisodicTable where
  rows := table.rows.filter (·.entryId ≠ entry.entryId) ++ [entry]
  primaryKey := by
    rw [List.map_append, List.nodup_append]
    refine ⟨table.primaryKey.sublist (List.filter_sublist.map _), List.nodup_singleton _, ?_⟩
    rintro id hid _ hnew rfl
    obtain ⟨row, hrow, rfl⟩ := List.mem_map.mp hid
    exact of_decide_eq_true (List.mem_filter.mp hrow).2 (List.mem_singleton.mp hnew)

/-- What SQLite and the clock answer a retrieval with: the query goes through or raises one of the
errors that are caught, and rows with one timestamp come in some order. -/
structure Answer where
  served : Bool := true
  rank : String → ℕ := fun _ => 0
  now : ℤ

/-- `ORDER BY timestamp DESC` -/
def Answer.newestFirst (answer : Answer) (rows : List EpisodicMemoryEntry) :
    List EpisodicMemoryEntry :=
  rows.mergeSort fun a b => decide (b.timestamp < a.timestamp) ||
    (decide (a.timestamp = b.timestamp) && decide (answer.rank a.entryId ≤ answer.rank b.entryId))

/-- `LIMIT ? OFFSET ?`: a negative limit is none, a negative offset is 0. -/
def page (limit offset : ℤ) (rows : List EpisodicMemoryEntry) : List EpisodicMemoryEntry :=
  if limit < 0 then rows.drop offset.toNat else (rows.drop offset.toNat).take limit.toNat

def Bindable (n : ℤ) : Prop := -2 ^ 63 ≤ n ∧ n < 2 ^ 63

instance (n : ℤ) : Decidable (Bindable n) := inferInstanceAs (Decidable (_ ∧ _))

theorem Answer.newestFirst_perm (answer : Answer) (rows : List EpisodicMemoryEntry) :
    (answer.newestFirst rows).Perm rows :=
  List.mergeSort_perm ..

theorem Answer.newestFirst_pairwise (answer : Answer) (rows : List EpisodicMemoryEntry) :
    (answer.newestFirst rows).Pairwise fun a b => b.timestamp ≤ a.timestamp := by
  have hsorted : (answer.newestFirst rows).Pairwise fun a b =>
      (decide (b.timestamp < a.timestamp) || (decide (a.timestamp = b.timestamp) &&
        decide (answer.rank a.entryId ≤ answer.rank b.entryId))) = true := by
    apply List.pairwise_mergeSort
    · intro a b c hab hbc
      simp only [Bool.or_eq_true, Bool.and_eq_true, decide_eq_true_eq] at hab hbc ⊢
      omega
    · intro a b
      simp only [Bool.or_eq_true, Bool.and_eq_true, decide_eq_true_eq]
      omega
  refine hsorted.imp fun {a b} hab => ?_
  simp only [Bool.or_eq_true, Bool.and_eq_true, decide_eq_true_eq] at hab
  omega

/-! ## The store -/

structure LongTermMemoryConfig where
  retentionDays : ℕ := 365
  enablePersistence : Bool := true

structure LongTermMemoryStore where
  config : LongTermMemoryConfig
  episodicCache : Dict String EpisodicMemoryEntry
  /-- `_db_connection is not None` -/
  dbConnection : Bool
  episodicMemory : EpisodicTable
  /-- Ghost: what has been stored. -/
  stored : List Memory
  /-- Ghost: the ids that consolidation has removed. -/
  removed : List String

inductive ConsolidationStrategy
  | timeBased
  | accessBased
  | relevanceBased
  | similarityBased
deriving DecidableEq, Repr

namespace LongTermMemoryStore

def opened (config : LongTermMemoryConfig) (dbConnection : Bool) (table : EpisodicTable) :
    LongTermMemoryStore where
  config := config
  episodicCache := Dict.empty
  dbConnection := dbConnection
  episodicMemory := table
  stored := table.rows.map (·.toMemory)
  removed := []

/-- `self.config.enable_persistence and self._db_connection` -/
def persistent (store : LongTermMemoryStore) : Bool :=
  store.config.enablePersistence && store.dbConnection

/-- `_persist_episodic`; an error of the insert is caught and logged. -/
def persistEpisodic (store : LongTermMemoryStore) (entry : EpisodicMemoryEntry) (written : Bool) :
    LongTermMemoryStore :=
  if store.dbConnection && written then
    { store with episodicMemory := store.episodicMemory.insertOrReplace entry }
  else store

def storeEpisodic (store : LongTermMemoryStore) (memory : Memory) (written : Bool) :
    LongTermMemoryStore :=
  let entry : EpisodicMemoryEntry := { memory with }
  let cached := { store with
    episodicCache := store.episodicCache.set memory.entryId entry
    stored := store.stored ++ [memory] }
  if store.persistent then cached.persistEpisodic entry written else cached

/-- `_query_episodic`; `none` is the `OverflowError` of a bound that SQLite has no integer for. -/
def queryEpisodic (store : LongTermMemoryStore) (filters : Filters) (limit offset : ℤ)
    (answer : Answer) : Option (List EpisodicMemoryEntry) :=
  if ¬store.dbConnection then some []
  else if ¬(Bindable limit ∧ Bindable offset) then none
  else if ¬answer.served then some []
  else some (page limit offset
    (answer.newestFirst (store.episodicMemory.rows.filter (filters.whereClause ·.toMemory))))

/-- `if entry_id and entry_id in self._episodic_cache`, with what is there. -/
def cacheHit (store : LongTermMemoryStore) : Option String → Option (String × EpisodicMemoryEntry)
  | none => none
  | some entryId =>
    if entryId = "" then none else (store.episodicCache.get entryId).map fun e => (entryId, e)

/-- `retrieve_episodic`: what it returns, if it does not raise, and the store afterwards.  The query
is not given the offset of the call. -/
def retrieveEpisodic (store : LongTermMemoryStore) (filters : Filters) (limit _offset : ℤ)
    (answer : Answer) : Option (List EpisodicMemoryEntry) × LongTermMemoryStore :=
  match store.cacheHit filters.entryId with
  | some (entryId, entry) =>
    let entry := entry.recordAccess answer.now
    (some [entry], { store with episodicCache := store.episodicCache.set entryId entry })
  | none =>
    match if store.persistent then store.queryEpisodic filters limit 0 answer else some [] with
    | none => (none, store)
    | some entries =>
      (some entries,
        { store with
          episodicCache :=
            entries.foldl (fun cache e => cache.set e.entryId e) store.episodicCache })

def forget (store : LongTermMemoryStore) (delete : EpisodicMemoryEntry → Bool) :
    LongTermMemoryStore :=
  { store with
    episodicCache := store.episodicCache.filterValues fun e => !delete e
    removed := store.removed ++
      (store.episodicCache.entries.filter fun e => delete e.2).map Prod.fst }

/-- Consolidate entries based on age; an old entry with more than 5 accesses counts as archived, and
stays. -/
def consolidateTimeBased (now : ℤ) (store : LongTermMemoryStore) : LongTermMemoryStore :=
  let cutoff := now - store.config.retentionDays * 86400000000
  store.forget fun e => decide (e.timestamp < cutoff) && !decide (5 < e.accessCount)

def consolidateAccessBased (now : ℤ) (store : LongTermMemoryStore) : LongTermMemoryStore :=
  store.forget fun e =>
    decide (e.accessCount = 0) && decide (7 < (now - e.timestamp) / 86400000000)

def consolidateRelevanceBased (now : ℤ) (store : LongTermMemoryStore) : LongTermMemoryStore :=
  let decayed := { store with
    episodicCache := store.episodicCache.mapValues (EpisodicMemoryEntry.decayRelevance now) }
  decayed.forget fun e => decide (e.relevanceDecay < 1 / 5)

/-- `consolidate`; the similarity-based strategy has no handler. -/
def consolidate (store : LongTermMemoryStore) (now : ℤ) :
    ConsolidationStrategy → LongTermMemoryStore
  | .timeBased => store.consolidateTimeBased now
  | .accessBased => store.consolidateAccessBased now
  | .relevanceBased => store.consolidateRelevanceBased now
  | .similarityBased => store

end LongTermMemoryStore

/-! ## Runs -/

inductive Call
  | storeEpisodic (memory : Memory) (written : Bool)
  | retrieveEpisodic (filters : Filters) (limit offset : ℤ) (answer : Answer)
  | consolidate (strategy : ConsolidationStrategy) (now : ℤ)

namespace LongTermMemoryStore

/-- One call.  The id of a new entry is a `uuid4`, which has not been drawn before. -/
def step (store : LongTermMemoryStore) : Call → LongTermMemoryStore
  | .storeEpisodic memory written =>
    if memory.entryId ∈ store.stored.map (·.entryId) then store
    else store.storeEpisodic memory written
  | .retrieveEpisodic filters limit offset answer =>
    (store.retrieveEpisodic filters limit offset answer).2
  | .consolidate strategy now => store.consolidate now strategy

def live (store : LongTermMemoryStore) : List Memory :=
  store.stored.filter (·.entryId ∉ store.removed)

theorem mem_live {store : LongTermMemoryStore} {memory : Memory} :
    memory ∈ store.live ↔ memory ∈ store.stored ∧ memory.entryId ∉ store.removed := by
  simp [live]

/-- What a retrieval is to return: the live entries that match every given filter, ranked newest
first, from `offset` on for at most `limit` entries. -/
def Selected (store : LongTermMemoryStore) (filters : Filters) (limit offset : ℤ)
    (entries : List EpisodicMemoryEntry) : Prop :=
  ∃ ranked : List Memory,
    ranked.Perm (store.live.filter filters.select) ∧
      ranked.Pairwise (fun a b => b.timestamp ≤ a.timestamp) ∧
        entries.map (·.toMemory) = (ranked.drop offset.toNat).take limit.toNat

/-- A retrieval returns what it is to return, nothing of another tenant and nothing removed. -/
structure Retrieves (store : LongTermMemoryStore) (filters : Filters) (limit offset : ℤ)
    (entries : List EpisodicMemoryEntry) : Prop where
  selected : store.Selected filters limit offset entries
  tenant : ∀ tenantId, filters.tenantId = some tenantId → ∀ e ∈ entries, e.tenantId = tenantId
  present : ∀ e ∈ entries, e.entryId ∉ store.removed

def Answers (store : LongTermMemoryStore) : Call → Prop
  | .retrieveEpisodic filters limit offset answer =>
    ∃ entries, (store.retrieveEpisodic filters limit offset answer).1 = some entries ∧
      store.Retrieves filters limit offset entries
  | _ => True

def HitMeets (store : LongTermMemoryStore) (filters : Filters) (limit offset : ℤ)
    (entry : EpisodicMemoryEntry) : Prop :=
  entry.entryId ∉ store.removed ∧ filters.select entry.toMemory ∧ 0 < limit ∧ offset ≤ 0

def Served (store : LongTermMemoryStore) (answer : Answer) : Prop :=
  store.persistent ∧ answer.served

instance (store : LongTermMemoryStore) (answer : Answer) : Decidable (store.Served answer) :=
  inferInstanceAs (Decidable (_ ∧ _))

structure MissMeets (store : LongTermMemoryStore) (filters : Filters) (limit offset : ℤ)
    (answer : Answer) : Prop where
  bindable : store.persistent → Bindable limit
  /-- A row that the query selects was not removed, and matches the filters that the query drops. -/
  sound : store.Served answer → ∀ row ∈ store.episodicMemory.rows,
    filters.whereClause row.toMemory → row.entryId ∉ store.removed ∧ filters.select row.toMemory
  /-- An entry that is to be found is a row of a table that is read. -/
  complete : ∀ memory ∈ store.live, filters.select memory → store.Served answer ∧
    memory ∈ store.episodicMemory.rows.map (·.toMemory)
  /-- Where there is something to be found, it is asked for from the start, with a bound. -/
  window : (∃ memory ∈ store.live, filters.select memory) → 0 ≤ limit ∧ offset ≤ 0

def Meets (store : LongTermMemoryStore) : Call → Prop
  | .retrieveEpisodic filters limit offset answer =>
    match store.cacheHit filters.entryId with
    | some (_, entry) => store.HitMeets filters limit offset entry
    | none => store.MissMeets filters limit offset answer
  | _ => True

/-! ## What every state keeps -/

structure Consistent (store : LongTermMemoryStore) : Prop where
  ids : (store.stored.map (·.entryId)).Nodup
  rows : ∀ row ∈ store.episodicMemory.rows, row.toMemory ∈ store.stored
  cache : ∀ {entryId entry}, store.episodicCache.get entryId = some entry →
    entry.entryId = entryId ∧ entry.toMemory ∈ store.stored

theorem consistent_opened (config : LongTermMemoryConfig) (dbConnection : Bool)
    (table : EpisodicTable) : Consistent (opened config dbConnection table) where
  ids := by
    have heq : (table.rows.map (·.toMemory)).map (·.entryId) = table.rows.map (·.entryId) :=
      List.map_map
    exact heq ▸ table.primaryKey
  rows := fun row hrow => List.mem_map_of_mem hrow
  cache := fun hget => nomatch hget

variable {store : LongTermMemoryStore} {filters : Filters} {limit offset : ℤ} {answer : Answer}

theorem cacheHit_eq_some {entryId? : Option String} {entryId : String}
    {entry : EpisodicMemoryEntry} (h : store.cacheHit entryId? = some (entryId, entry)) :
    entryId? = some entryId ∧ store.episodicCache.get entryId = some entry := by
  rcases entryId? with _ | id
  · cases h
  · rw [cacheHit] at h
    split at h
    · cases h
    · obtain ⟨e, hget, heq⟩ := Option.map_eq_some_iff.mp h
      cases heq
      exact ⟨rfl, hget⟩

theorem mem_rows_of_queryEpisodic {entries : List EpisodicMemoryEntry}
    (h : store.queryEpisodic filters limit offset answer = some entries)
    {entry : EpisodicMemoryEntry} (hmem : entry ∈ entries) :
    entry ∈ store.episodicMemory.rows := by
  have hpage (rows : List EpisodicMemoryEntry) (hin : entry ∈ page limit offset rows) :
      entry ∈ rows := by
    rw [page] at hin
    split at hin
    · exact List.mem_of_mem_drop hin
    · exact List.mem_of_mem_drop (List.mem_of_mem_take hin)
  rw [queryEpisodic] at h
  split at h
  · cases h
    cases hmem
  · split at h
    · cases h
    · split at h
      · cases h
        cases hmem
      · cases h
        have hrow := (answer.newestFirst_perm _).mem_iff.mp (hpage _ hmem)
        exact (List.mem_filter.mp hrow).1

namespace Consistent

theorem set_cache (hs : store.Consistent) {entryId : String} {entry : EpisodicMemoryEntry}
    (hkey : entry.entryId = entryId) (hstored : entry.toMemory ∈ store.stored) :
    Consistent { store with episodicCache := store.episodicCache.set entryId entry } where
  ids := hs.ids
  rows := hs.rows
  cache := by
    intro id e hget
    rcases Dict.get_set_cases hget with ⟨rfl, rfl⟩ | ⟨-, hget⟩
    · exact ⟨hkey, hstored⟩
    · exact hs.cache hget

theorem foldl_set (hs : store.Consistent) {entries : List EpisodicMemoryEntry}
    (hstored : ∀ e ∈ entries, e.toMemory ∈ store.stored) :
    Consistent { store with
      episodicCache :=
        entries.foldl (fun cache e => cache.set e.entryId e) store.episodicCache } := by
  induction entries generalizing store with
  | nil => exact hs
  | cons e rest ih =>
    rw [List.foldl_cons]
    exact ih (hs.set_cache rfl (hstored e (List.mem_cons_self ..)))
      fun e' he' => hstored e' (List.mem_cons_of_mem _ he')

theorem forget (hs : store.Consistent) (delete : EpisodicMemoryEntry → Bool) :
    (store.forget delete).Consistent where
  ids := hs.ids
  rows := hs.rows
  cache := by
    intro id e hget
    rw [LongTermMemoryStore.forget, Dict.get_filterValues, Option.filter_eq_some_iff] at hget
    exact hs.cache hget.1

theorem storeEpisodic (hs : store.Consistent) {memory : Memory} (written : Bool)
    (hnew : memory.entryId ∉ store.stored.map (·.entryId)) :
    (store.storeEpisodic memory written).Consistent := by
  have hcached : Consistent { store with
      episodicCache := store.episodicCache.set memory.entryId { memory with }
      stored := store.stored ++ [memory] } := by
    have happended : Consistent { store with stored := store.stored ++ [memory] } :=
      { ids := by
          rw [List.map_append, List.nodup_append]
          refine ⟨hs.ids, List.nodup_singleton _, ?_⟩
          rintro id hid _ hlast rfl
          have hlast : id = memory.entryId := List.mem_singleton.mp hlast
          exact hnew (hlast ▸ hid)
        rows := fun row hrow => List.mem_append_left _ (hs.rows row hrow)
        cache := fun hget => ⟨(hs.cache hget).1, List.mem_append_left _ (hs.cache hget).2⟩ }
    exact happended.set_cache rfl (List.mem_append_right _ (List.mem_singleton_self memory))
  rw [LongTermMemoryStore.storeEpisodic]
  split
  · rw [persistEpisodic]
    split
    · refine ⟨hcached.ids, ?_, hcached.cache⟩
      intro row hrow
      rcases List.mem_append.mp hrow with hold | hlast
      · exact hcached.rows row (List.mem_filter.mp hold).1
      · rw [List.mem_singleton.mp hlast]
        exact List.mem_append_right _ (List.mem_singleton_self memory)
    · exact hcached
  · exact hcached

theorem retrieveEpisodic (hs : store.Consistent) :
    (store.retrieveEpisodic filters limit offset answer).2.Consistent := by
  rw [LongTermMemoryStore.retrieveEpisodic]
  split
  · rename_i entryId entry hhit
    obtain ⟨-, hget⟩ := cacheHit_eq_some hhit
    obtain ⟨hkey, hstored⟩ := hs.cache hget
    have hrecorded : (entry.recordAccess answer.now).entryId = entryId := hkey
    exact hs.set_cache hrecorded hstored
  · split
    · exact hs
    · rename_i entries hentries
      refine hs.foldl_set fun e he => ?_
      split at hentries
      · exact hs.rows e (mem_rows_of_queryEpisodic hentries he)
      · cases hentries
        cases he

theorem consolidate (hs : store.Consistent) (strategy : ConsolidationStrategy) (now : ℤ) :
    (store.consolidate now strategy).Consistent := by
  cases strategy with
  | timeBased => exact hs.forget _
  | accessBased => exact hs.forget _
  | relevanceBased =>
    have hdecayed : Consistent { store with
        episodicCache :=
          store.episodicCache.mapValues (EpisodicMemoryEntry.decayRelevance now) } := by
      refine ⟨hs.ids, hs.rows, ?_⟩
      intro id e hget
      rw [Dict.get_mapValues] at hget
      obtain ⟨e', hget', rfl⟩ := Option.map_eq_some_iff.mp hget
      have hold := hs.cache hget'
      exact hold
    exact hdecayed.forget _
  | similarityBased => exact hs

theorem step (hs : store.Consistent) (call : Call) : (store.step call).Consistent := by
  cases call with
  | storeEpisodic memory written =>
    rw [LongTermMemoryStore.step]
    split
    · exact hs
    · next hnew => exact hs.storeEpisodic written hnew
  | retrieveEpisodic filters limit offset answer => exact hs.retrieveEpisodic
  | consolidate strategy now => exact hs.consolidate strategy now

theorem eq_of_entryId (hs : store.Consistent) {a b : Memory} (ha : a ∈ store.stored)
    (hb : b ∈ store.stored) (hid : a.entryId = b.entryId) : a = b :=
  List.inj_on_of_nodup_map hs.ids ha hb hid

theorem nodup_selected (hs : store.Consistent) (filters : Filters) :
    (store.live.filter filters.select).Nodup :=
  (hs.ids.of_map _).sublist (List.filter_sublist.trans List.filter_sublist)

end Consistent

/-! ## Retrieval -/

theorem Selected.mem_live {entries : List EpisodicMemoryEntry}
    (h : store.Selected filters limit offset entries) {entry : EpisodicMemoryEntry}
    (hmem : entry ∈ entries) : entry.toMemory ∈ store.live ∧ filters.select entry.toMemory := by
  obtain ⟨ranked, hperm, -, heq⟩ := h
  have hin : entry.toMemory ∈ entries.map (·.toMemory) := List.mem_map_of_mem hmem
  rw [heq] at hin
  have hranked := List.mem_of_mem_drop (List.mem_of_mem_take hin)
  exact List.mem_filter.mp (hperm.mem_iff.mp hranked)

theorem Selected.retrieves {entries : List EpisodicMemoryEntry}
    (h : store.Selected filters limit offset entries) :
    store.Retrieves filters limit offset entries where
  selected := h
  tenant := fun _ hgiven _ he => Filters.tenantId_of_select (h.mem_live he).2 hgiven
  present := fun _ he => (LongTermMemoryStore.mem_live.mp (h.mem_live he).1).2

theorem Consistent.selected_hit (hs : store.Consistent) {entryId : String}
    {entry : EpisodicMemoryEntry} (hgiven : filters.entryId = some entryId)
    (hget : store.episodicCache.get entryId = some entry)
    (hmeets : store.HitMeets filters limit offset entry) (now : ℤ) :
    store.Selected filters limit offset [entry.recordAccess now] := by
  obtain ⟨hpresent, hselect, hlimit, hoffset⟩ := hmeets
  obtain ⟨hkey, hstored⟩ := hs.cache hget
  have hlive : entry.toMemory ∈ store.live := LongTermMemoryStore.mem_live.mpr ⟨hstored, hpresent⟩
  have honly : ∀ memory ∈ store.live.filter filters.select, memory = entry.toMemory := by
    intro memory hmem
    obtain ⟨hmem, hmatch⟩ := List.mem_filter.mp hmem
    simp only [Filters.select, hgiven, Option.all_some, Bool.and_eq_true,
      decide_eq_true_eq] at hmatch
    exact hs.eq_of_entryId (LongTermMemoryStore.mem_live.mp hmem).1 hstored
      (hmatch.1.1.1.symm.trans hkey.symm)
  refine ⟨[entry.toMemory], ?_, List.pairwise_singleton .., ?_⟩
  · refine (List.perm_ext_iff_of_nodup (List.nodup_singleton _) (hs.nodup_selected filters)).mpr ?_
    intro memory
    rw [List.mem_singleton]
    constructor
    · rintro rfl
      exact List.mem_filter.mpr ⟨hlive, hselect⟩
    · exact honly memory
  · rw [Int.toNat_of_nonpos hoffset, List.drop_zero, List.take_of_length_le]
    · rfl
    · rw [List.length_singleton]
      omega

theorem selected_nil (hnone : ∀ memory ∈ store.live, ¬filters.select memory) :
    store.Selected filters limit offset [] := by
  have hempty : store.live.filter filters.select = [] := List.filter_eq_nil_iff.mpr hnone
  refine ⟨[], ?_, List.Pairwise.nil, ?_⟩
  · rw [hempty]
  · rw [List.drop_nil, List.take_nil, List.map_nil]

theorem Consistent.perm_rows (hs : store.Consistent)
    (hmeets : store.MissMeets filters limit offset answer) (hserved : store.Served answer) :
    ((store.episodicMemory.rows.filter (filters.whereClause ·.toMemory)).map (·.toMemory)).Perm
      (store.live.filter filters.select) := by
  have hnodup : (store.episodicMemory.rows.map (·.toMemory)).Nodup := by
    have hkeys : ((store.episodicMemory.rows.map (·.toMemory)).map (·.entryId)).Nodup := by
      rw [List.map_map]
      exact store.episodicMemory.primaryKey
    exact hkeys.of_map _
  refine (List.perm_ext_iff_of_nodup (hnodup.sublist (List.filter_sublist.map _))
    (hs.nodup_selected filters)).mpr ?_
  intro memory
  rw [List.mem_filter, List.mem_map]
  constructor
  · rintro ⟨row, hrow, rfl⟩
    obtain ⟨hrow, hwhere⟩ := List.mem_filter.mp hrow
    obtain ⟨hpresent, hselect⟩ := hmeets.sound hserved row hrow hwhere
    exact ⟨LongTermMemoryStore.mem_live.mpr ⟨hs.rows row hrow, hpresent⟩, hselect⟩
  · rintro ⟨hlive, hselect⟩
    obtain ⟨-, hin⟩ := hmeets.complete memory hlive hselect
    obtain ⟨row, hrow, rfl⟩ := List.mem_map.mp hin
    exact ⟨row, List.mem_filter.mpr ⟨hrow, Filters.whereClause_of_select hselect⟩, rfl⟩

theorem Consistent.selected_page (hs : store.Consistent)
    (hmeets : store.MissMeets filters limit offset answer) (hserved : store.Served answer) :
    store.Selected filters limit offset (page limit 0
      (answer.newestFirst
        (store.episodicMemory.rows.filter (filters.whereClause ·.toMemory)))) := by
  have hperm := hs.perm_rows hmeets hserved
  generalize store.episodicMemory.rows.filter (filters.whereClause ·.toMemory) = rows at hperm ⊢
  refine ⟨(answer.newestFirst rows).map (·.toMemory), ?_, ?_, ?_⟩
  · exact ((answer.newestFirst_perm rows).map _).trans hperm
  · exact List.pairwise_map.mpr (answer.newestFirst_pairwise rows)
  · by_cases hsome : ∃ memory ∈ store.live, filters.select memory
    · obtain ⟨hlimit, hoffset⟩ := hmeets.window hsome
      rw [page, if_neg hlimit.not_gt, Int.toNat_of_nonpos hoffset, Int.toNat_zero, List.drop_zero,
        List.drop_zero, List.map_take]
    · have hempty : store.live.filter filters.select = [] :=
        List.filter_eq_nil_iff.mpr fun memory hmem hselect => hsome ⟨memory, hmem, hselect⟩
      rw [hempty, List.perm_nil, List.map_eq_nil_iff] at hperm
      subst hperm
      have hnone : answer.newestFirst [] = [] := (answer.newestFirst_perm []).eq_nil
      rw [hnone, page]
      simp

theorem Consistent.answers_miss (hs : store.Consistent)
    (hmiss : store.cacheHit filters.entryId = none)
    (hmeets : store.MissMeets filters limit offset answer) :
    store.Answers (.retrieveEpisodic filters limit offset answer) := by
  have hunserved (h : ¬store.Served answer) : store.Selected filters limit offset [] :=
    selected_nil fun memory hmem hselect => h (hmeets.complete memory hmem hselect).1
  show ∃ entries, (store.retrieveEpisodic filters limit offset answer).1 = some entries ∧ _
  rw [LongTermMemoryStore.retrieveEpisodic, hmiss]
  dsimp only
  by_cases hpersistent : store.persistent
  · have hconnected : store.dbConnection = true := (Bool.and_eq_true _ _ ▸ hpersistent).2
    rw [if_pos hpersistent, queryEpisodic, if_neg (not_not.mpr hconnected),
      if_neg (not_not.mpr ⟨hmeets.bindable hpersistent, by decide⟩)]
    by_cases hserved : answer.served
    · rw [if_neg (not_not.mpr hserved)]
      exact ⟨_, rfl, (hs.selected_page hmeets ⟨hpersistent, hserved⟩).retrieves⟩
    · rw [if_pos hserved]
      exact ⟨[], rfl, (hunserved fun h => hserved h.2).retrieves⟩
  · rw [if_neg hpersistent]
    exact ⟨[], rfl, (hunserved fun h => hpersistent h.1).retrieves⟩

theorem Consistent.answers (hs : store.Consistent) {call : Call} (hmeets : store.Meets call) :
    store.Answers call := by
  cases call with
  | storeEpisodic memory written => trivial
  | consolidate strategy now => trivial
  | retrieveEpisodic filters limit offset answer =>
    rw [Meets] at hmeets
    split at hmeets
    · rename_i entryId entry hhit
      obtain ⟨hgiven, hget⟩ := cacheHit_eq_some hhit
      have hselected := hs.selected_hit hgiven hget hmeets answer.now
      refine ⟨[entry.recordAccess answer.now], ?_, hselected.retrieves⟩
      rw [LongTermMemoryStore.retrieveEpisodic, hhit]
    · next hmiss => exact hs.answers_miss hmiss hmeets

/-- **Retrieval**: in a run of the store whose retrievals all meet the condition, each returns what
its filters select. -/
theorem answers_along (config : LongTermMemoryConfig) (dbConnection : Bool)
    (table : EpisodicTable) {calls : List Call}
    (h : Along step Meets (opened config dbConnection table) calls) :
    Along step Answers (opened config dbConnection table) calls :=
  h.imp Consistent (consistent_opened config dbConnection table) fun _ call hs hmeets =>
    ⟨hs.answers hmeets, hs.step call⟩

def twoTenants : List Call :=
  [.storeEpisodic ⟨"e1", "s1", "acme", 5, "decision", "grant"⟩ true,
    .storeEpisodic ⟨"e2", "s1", "globex", 9, "decision", "deny"⟩ true,
    .retrieveEpisodic { entryId := some "e1", tenantId := some "acme" } 100 0 { now := 10 },
    .retrieveEpisodic { tenantId := some "globex" } 100 0 { now := 11 }]

theorem answers_along_twoTenants :
    Along step Answers (opened {} true EpisodicTable.empty) twoTenants := by
  refine answers_along {} true EpisodicTable.empty ⟨trivial, trivial, ?_, ?_, trivial⟩
  · exact ⟨by decide, by decide, by decide, by decide⟩
  · exact ⟨by decide, by decide, by decide, by decide⟩

def otherTenant : List Call :=
  [.storeEpisodic ⟨"e1", "s1", "acme", 5, "decision", "grant"⟩ true,
    .retrieveEpisodic { entryId := some "e1", tenantId := some "globex" } 100 0 { now := 10 }]

theorem not_answers_otherTenant :
    ¬∀ config dbConnection table calls,
      Along step Answers (opened config dbConnection table) calls := by
  intro h
  obtain ⟨-, ⟨entries, heq, hretrieves⟩, -⟩ := h {} true EpisodicTable.empty otherTenant
  cases heq
  have htenant := hretrieves.tenant "globex" rfl _ (List.mem_singleton_self _)
  exact absurd htenant (by decide)

end LongTermMemoryStore

end EnhancedAgentBus.ContextMemory
