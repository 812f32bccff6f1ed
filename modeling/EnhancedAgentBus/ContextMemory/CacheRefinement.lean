import EnhancedAgentBus.ContextMemory.ContextCache
import EnhancedAgentBus.Lib.Machine

/-!
# The cache against one map with expiry

The calls of a cache are interleaved at their operations, and time passes between them.  A call of
`get` remembers which values its key had in the map with expiry (`Tiers.Current`) at one of its own
operations; `Faithful` asks that it returns one of these, or nothing, and that a promotion writes
the latest value, with no more than the rest of its life.

The tiers do not keep to the map by themselves.  `Careful` names, operation by operation, what goes
wrong otherwise: values that JSON does not bring back, a read of L2 before the latest set or
invalidation of the key is there, writes that reach L2 out of order or late, a promotion that comes
after a newer set or would last longer than what it promotes, a pattern that has to find a key which
is in L2 alone.

### What is load-bearing

Every operation keeps `Coherent` on its own, whatever program it is in.  What a program must be told
for this (that the value it promotes is the one it has read, and so on) is `Linked`, and
`Request.code_safe` shows that the code asks nothing else.
-/

namespace EnhancedAgentBus.ContextMemory

open Async Async.Prog Machine

/-! ## Runs -/

inductive Request where
  | set (key : String) (value : Value) (ttlSeconds : Option ℤ) (isConstitutional : Bool)
  | setConstitutionalContext (chunks : List ContextChunk)
  | get (key : String)
  | invalidate (key : String)
  | invalidatePattern (pattern : String)

/-- The code of a call; only a `get` returns a value. -/
def Request.code (config : CacheConfig) : Request → Code (Option Value)
  | .set key value ttlSeconds isConstitutional => do
    let _ ← ContextMemory.set config .call key value ttlSeconds isConstitutional
    return none
  | .setConstitutionalContext chunks => do
    ContextMemory.setConstitutionalContext config chunks
    return none
  | .get key => ContextMemory.get config key
  | .invalidate key => do
    let _ ← ContextMemory.invalidate config key
    return none
  | .invalidatePattern pattern => do
    let _ ← ContextMemory.invalidatePattern config pattern
    return none

/-- A call under way.  `seen` is a ghost: the values that the key of a `get` had at one of its
operations. -/
structure Running where
  request : Request
  rest : Code (Option Value)
  seen : Value → Prop

structure Cache where
  tiers : Tiers := {}
  calls : ℕ → Option Running := fun _ => none

inductive Event where
  | call (n : ℕ) (request : Request)
  /-- the next operation of a call -/
  | act (n : ℕ)
  | wait (microseconds : ℕ)

def Request.gets : Request → Option String
  | .get key => some key
  | _ => none

/-- What a call has seen after an operation, with what its key had then. -/
def Sees (request : Request) (seen : Value → Prop) (s : Tiers) (value : Value) : Prop :=
  seen value ∨ ∃ key, request.gets = some key ∧ s.Current key value

namespace Cache

variable (config : CacheConfig)

def step (s : Cache) : Event → Cache
  | .call n request =>
    match s.calls n with
    | some _ => s
    | none =>
      { s with
        calls := Function.update s.calls n
          (some ⟨request, request.code config, fun _ => False⟩) }
  | .act n =>
    match s.calls n with
    | some ⟨request, .await o k, seen⟩ =>
      match s.tiers.perform config o with
      | none => s
      | some (r, tiers) =>
        { tiers := tiers
          calls := Function.update s.calls n
            (some ⟨request, k r, Sees request seen s.tiers⟩) }
    | _ => s
  | .wait microseconds => { s with tiers := { s.tiers with now := s.tiers.now + microseconds } }

def next (s : Cache) (n : ℕ) : Option Op :=
  match s.calls n with
  | some ⟨_, .await o _, _⟩ => some o
  | _ => none

end Cache

/-! ## The claim on a run, and the condition -/

section

variable (config : CacheConfig)

/-- A promotion writes the latest value of the key into L1, to expire no later than it does; and in
L2 it does so as well, where no newer set or invalidation is on its way. -/
def Op.Moves (s : Tiers) : Op → Prop
  | .store (.promotion _) key value ttlSeconds _ =>
    ∃ life, s.latest key = some life ∧ life.value = value ∧
      s.now + seconds (config.ttl ttlSeconds) ≤ life.expires
  | .setex (.promotion _) _ key ttl _ =>
    s.pending key = false →
      ∃ life, s.latest key = some life ∧ s.now + seconds ttl ≤ life.expires
  | _ => True

/-- What a `get` has returned is a value that its key had, at one of its operations. -/
def Cache.GetsCurrent (s : Cache) : Prop :=
  ∀ n running value, s.calls n = some running → running.rest = .done (some value) →
    running.seen value

/-- The cache keeps to the map with expiry in an event. -/
def Cache.Faithful (s : Cache) (e : Event) : Prop :=
  (s.step config e).GetsCurrent ∧ ∀ n o, e = .act n → s.next n = some o → o.Moves config s.tiers

def Op.Careful (s : Tiers) : Op → Prop
  -- a time to live of 0 is taken for none, and what L2 is to hold must survive JSON
  | .store .call _ value ttlSeconds _ =>
    (ttlSeconds = some 0 → config.l1TtlSeconds ≤ 0) ∧
      (config.l2 = true → value.Survives config.layout)
  -- no set or invalidation since the read, and enough life left for the default
  | .store (.promotion source) key _ ttlSeconds _ =>
    s.latest key = source ∧
      ∀ life, source = some life → s.now + seconds (config.ttl ttlSeconds) ≤ life.expires
  -- the latest set or invalidation has reached L2
  | .redisGet key => s.pending key = false
  -- in order and in time, or followed by the latest set or invalidation
  | .setex _ life key ttl _ =>
    (s.latest key = life ∧ ∀ l, life = some l → s.now + seconds ttl ≤ l.expires) ∨
      (s.pending key = true ∧ ∀ l, life = some l → l.set ≠ s.owner key)
  -- a key that L1 does not hold is not in L2 either
  | .matching pattern => ∀ key, contains pattern key = true → key ∉ s.l1.keys →
      s.latest key ≠ none → s.pending key = false → s.visible key = none
  | _ => True

def Cache.Careful (s : Cache) (e : Event) : Prop :=
  ∀ n o, e = .act n → s.next n = some o → o.Careful config s.tiers

/-! ## What every state keeps -/

/-- The tiers hold nothing but what the map with expiry holds; in L2, where the latest set or
invalidation of the key has reached it. -/
structure Coherent (s : Tiers) : Prop where
  off : config.l2 = false → ∀ key, s.l2 key = none
  survives : config.l2 = true → ∀ key life, s.latest key = some life →
    life.value.Survives config.layout
  l1 : ∀ key entry, s.l1.get key = some entry → s.now ≤ entry.expiresAt →
    ∃ life, s.latest key = some life ∧ life.value = entry.value ∧ entry.expiresAt ≤ life.expires
  l2 : ∀ key text expires, s.pending key = false → s.l2 key = some (text, expires) →
    s.now ≤ expires → ∃ life, s.latest key = some life ∧
      (∀ value, Value.loads text = some value → value = life.value) ∧ expires ≤ life.expires

/-- What an operation of a call owes to the operations before it. -/
def Op.Linked (request : Request) : Op → Prop
  | .lookup key => request.gets = some key
  | .redisGet key => request.gets = some key
  | .store (.promotion source) _ value _ _ => ∃ life, source = some life ∧ life.value = value
  | .setex _ life _ _ text => config.l2 = true ∧
      ∃ l, life = some l ∧ ∀ value, Value.loads text = some value → value = l.value
  | _ => True

/-- What a call learns from an answer; `seen` grows. -/
def Told (seen : Value → Prop) : (o : Op) → o.Resp → (Value → Prop) → Prop
  | .lookup _, found, seen' =>
    (∀ value, seen value → seen' value) ∧ ∀ value, found = some value → seen' value
  | .redisGet _, answer, seen' =>
    (∀ value, seen value → seen' value) ∧ ∀ value, answer.1.bind Value.loads = some value →
      seen' value ∧ value.Survives config.layout ∧
        ∃ life, answer.2 = some life ∧ life.value = value
  | .store .call _ value _ _, life, seen' =>
    (∀ value, seen value → seen' value) ∧ (config.l2 = true → value.Survives config.layout) ∧
      ∃ l, life = some l ∧ l.value = value
  | .store (.promotion source) _ _ _ _, life, seen' =>
    (∀ value, seen value → seen' value) ∧ life = source
  | _, _, seen' => ∀ value, seen value → seen' value

/-! ## The code asks nothing else -/

variable {config} {request : Request} {seen : Value → Prop}

def Grows (seen seen' : Value → Prop) : Prop := ∀ value, seen value → seen' value

theorem setToL2_safe {origin : Origin} {life : Life} {key : String} {value : Value} {ttl : ℤ}
    (hon : config.l2 = true) (hlife : life.value = value)
    (hsurvives : value.Survives config.layout) :
    Safe (Told config) (fun _ => Op.Linked config request)
      (setToL2 config origin (some life) key value ttl) seen (fun _ => Grows seen)
      fun _ _ => True := by
  rw [setToL2, safe_bind, safe_perform]
  refine ⟨⟨hon, life, rfl, fun v hv => (hsurvives v hv).trans hlife.symm⟩, ?_⟩
  intro accepted seen' hgrows
  cases accepted with
  | true => exact hgrows
  | false => trivial

theorem set_safe {origin : Origin} {key : String} {value : Value} {ttlSeconds : Option ℤ}
    {isConstitutional : Bool}
    (horigin : ∀ source, origin = .promotion source →
      value.Survives config.layout ∧ ∃ life, source = some life ∧ life.value = value) :
    Safe (Told config) (fun _ => Op.Linked config request)
      (set config origin key value ttlSeconds isConstitutional) seen (fun _ => Grows seen)
      fun _ _ => True := by
  rw [set, safe_bind, safe_perform]
  have hrest {life : Life} {seen' : Value → Prop} (hgrows : Grows seen seen')
      (hlife : life.value = value) (hsurvives : config.l2 = true → value.Survives config.layout) :
      Safe (Told config) (fun _ => Op.Linked config request)
        (if config.l2 then do
          let _ ← setToL2 config origin (some life) key value (config.ttl ttlSeconds)
          return true
        else return true) seen' (fun _ => Grows seen) fun _ _ => True := by
    split
    · rename_i hon
      rw [safe_bind]
      exact (setToL2_safe hon hlife (hsurvives hon)).mono
        (fun _ _ hgrows' v hv => hgrows' v (hgrows v hv)) fun _ _ => id
    · exact hgrows
  cases origin with
  | call =>
    refine ⟨trivial, ?_⟩
    rintro _ seen' ⟨hgrows, hsurvives, life, rfl, hlife⟩
    exact hrest hgrows hlife hsurvives
  | promotion source =>
    obtain ⟨hsurvives, life, rfl, hlife⟩ := horigin source rfl
    refine ⟨⟨life, rfl, hlife⟩, ?_⟩
    rintro _ seen' ⟨hgrows, rfl⟩
    exact hrest hgrows hlife fun _ => hsurvives

theorem set_call_safe (key : String) (value : Value) (ttlSeconds : Option ℤ)
    (isConstitutional : Bool) :
    Safe (Told config) (fun _ => Op.Linked config request)
      (set config .call key value ttlSeconds isConstitutional) seen (fun _ => Grows seen)
      fun _ _ => True :=
  set_safe fun _ h => nomatch h

theorem get_safe {key : String} (hgets : request.gets = some key) :
    Safe (Told config) (fun _ => Op.Linked config request) (get config key) seen
      (fun result seen' => ∀ value, result = some value → seen' value) fun _ _ => True := by
  rw [get, safe_bind, safe_perform]
  refine ⟨hgets, ?_⟩
  rintro found seen' ⟨-, hfound⟩
  cases found with
  | some value => exact hfound
  | none =>
    dsimp only
    split
    · rw [safe_bind, getFromL2, safe_bind, safe_perform]
      refine ⟨hgets, ?_⟩
      rintro ⟨text, source⟩ seen'' ⟨-, hread⟩
      generalize text.bind Value.loads = loaded at hread ⊢
      rcases loaded with _ | value
      · exact fun _ h => by cases h
      · obtain ⟨hseen, hsurvives, hsource⟩ := hread value rfl
        rw [safe_pure]
        dsimp only
        rw [safe_bind]
        refine (set_safe ?_).mono ?_ fun _ _ => id
        · rintro _ ⟨⟩
          exact ⟨hsurvives, hsource⟩
        · intro _ _ hgrows v hv
          cases hv
          exact hgrows value hseen
    · exact fun _ h => by cases h

theorem setConstitutionalContext_safe (chunks : List ContextChunk) :
    Safe (Told config) (fun _ => Op.Linked config request)
      (setConstitutionalContext config chunks) seen (fun _ _ => True) fun _ _ => True := by
  induction chunks generalizing seen with
  | nil => trivial
  | cons chunk rest ih =>
    rw [setConstitutionalContext, safe_bind]
    exact (set_call_safe _ _ _ _).mono (fun _ _ _ => ih) fun _ _ => id

theorem invalidate_safe (key : String) :
    Safe (Told config) (fun _ => Op.Linked config request) (invalidate config key) seen
      (fun _ _ => True) fun _ _ => True := by
  rw [invalidate, safe_bind, safe_perform]
  refine ⟨trivial, fun answer _ _ => ?_⟩
  split
  · rw [safe_bind, deleteFromL2, safe_perform]
    exact ⟨trivial, fun _ _ _ => trivial⟩
  · trivial

theorem invalidatePattern_safe (pattern : String) :
    Safe (Told config) (fun _ => Op.Linked config request) (invalidatePattern config pattern) seen
      (fun _ _ => True) fun _ _ => True := by
  have hall (keys : List String) (seen' : Value → Prop) :
      Safe (Told config) (fun _ => Op.Linked config request) (invalidateAll config keys) seen'
        (fun _ _ => True) fun _ _ => True := by
    induction keys generalizing seen' with
    | nil => trivial
    | cons key rest ih =>
      rw [invalidateAll, safe_bind]
      exact (invalidate_safe key).mono (fun _ seen'' _ => ih seen'') fun _ _ => id
  rw [invalidatePattern, safe_bind, safe_perform]
  refine ⟨trivial, fun keys seen' _ => ?_⟩
  rw [safe_bind]
  exact (hall keys seen').mono (fun _ _ _ => trivial) fun _ _ => id

/-- **The code of every call** asks only what it has been told. -/
theorem Request.code_safe (request : Request) :
    Safe (Told config) (fun _ => Op.Linked config request) (request.code config) seen
      (fun result seen' => ∀ value, result = some value → seen' value) fun _ _ => True := by
  cases request with
  | set key value ttlSeconds isConstitutional =>
    rw [code, safe_bind]
    exact (set_call_safe _ _ _ _).mono (fun _ _ _ _ h => nomatch h) fun _ _ => id
  | setConstitutionalContext chunks =>
    rw [code, safe_bind]
    exact (setConstitutionalContext_safe chunks).mono (fun _ _ _ _ h => nomatch h) fun _ _ => id
  | get key => exact get_safe rfl
  | invalidate key =>
    rw [code, safe_bind]
    exact (invalidate_safe key).mono (fun _ _ _ _ h => nomatch h) fun _ _ => id
  | invalidatePattern pattern =>
    rw [code, safe_bind]
    exact (invalidatePattern_safe pattern).mono (fun _ _ _ _ h => nomatch h) fun _ _ => id

/-! ## Every operation keeps the tiers coherent -/

section Perform

variable {s : Tiers}

theorem Coherent.current_of_l1 (hs : Coherent config s) {key : String} {entry : CacheEntry}
    (hget : s.l1.get key = some entry) (hvalid : s.now ≤ entry.expiresAt) :
    s.Current key entry.value := by
  obtain ⟨life, hlatest, hvalue, hexpires⟩ := hs.l1 key entry hget hvalid
  exact ⟨life, hlatest, hvalue, hvalid.trans hexpires⟩

theorem Coherent.current_of_l2 (hs : Coherent config s) {key : String} {value : Value}
    (hreached : s.pending key = false)
    (hread : (s.visible key).bind Value.loads = some value) :
    s.Current key value ∧ value.Survives config.layout ∧
      ∃ life, s.latest key = some life ∧ life.value = value := by
  obtain ⟨text, hvisible, hloads⟩ := Option.bind_eq_some_iff.mp hread
  obtain ⟨⟨text', expires⟩, hl2, hvalid⟩ := Option.bind_eq_some_iff.mp hvisible
  dsimp only at hvalid
  split at hvalid
  · rename_i hnow
    cases hvalid
    obtain ⟨life, hlatest, hvalue, hexpires⟩ := hs.l2 key text expires hreached hl2 hnow
    have heq : value = life.value := hvalue value hloads
    have hon : config.l2 = true := by
      by_contra hoff
      rw [hs.off (Bool.eq_false_of_not_eq_true hoff)] at hl2
      cases hl2
    exact ⟨⟨life, hlatest, heq.symm, hnow.trans hexpires⟩,
      heq ▸ hs.survives hon key life hlatest, life, hlatest, heq.symm⟩
  · cases hvalid

theorem Coherent.moveToEnd (hs : Coherent config s) (key : String) :
    Coherent config { s with l1 := s.l1.moveToEnd key } where
  off := hs.off
  survives := hs.survives
  l1 := fun key' entry hget => hs.l1 key' entry (Dict.get_moveToEnd s.l1 key key' ▸ hget)
  l2 := hs.l2

theorem Coherent.storeL1 (hs : Coherent config s) {key : String} {entry : CacheEntry} {life : Life}
    (hlatest : s.latest key = some life) (hvalue : life.value = entry.value)
    (hexpires : entry.expiresAt ≤ life.expires) : Coherent config (s.storeL1 config key entry) where
  off := hs.off
  survives := hs.survives
  l1 := by
    intro key' entry' hget hvalid
    rw [Tiers.storeL1, Dict.get_moveToEnd] at hget
    rcases Dict.get_set_cases hget with ⟨rfl, rfl⟩ | ⟨-, hget⟩
    · exact ⟨life, hlatest, hvalue, hexpires⟩
    · exact hs.l1 key' entry' (get_of_get_evict hget) hvalid
  l2 := hs.l2

theorem CacheConfig.ttl_le_asked {ttlSeconds : Option ℤ}
    (h : ttlSeconds = some 0 → config.l1TtlSeconds ≤ 0) :
    config.ttl ttlSeconds ≤ config.asked ttlSeconds := by
  rcases ttlSeconds with _ | n
  · exact le_rfl
  · rw [CacheConfig.ttl]
    split
    · rename_i hzero
      subst hzero
      exact h rfl
    · exact le_rfl

theorem seconds_mono {m n : ℤ} (h : m ≤ n) : seconds m ≤ seconds n :=
  mul_le_mul_of_nonneg_right h (by decide)

theorem Coherent.begin (hs : Coherent config s) {key : String} {life : Option Life}
    {l1 : Dict String CacheEntry}
    (hsurvives : ∀ l, life = some l → config.l2 = true → l.value.Survives config.layout)
    (hnew : ∀ entry, l1.get key = some entry →
      ∃ l, life = some l ∧ l.value = entry.value ∧ entry.expiresAt ≤ l.expires)
    (hold : ∀ key' entry, key' ≠ key → l1.get key' = some entry → s.l1.get key' = some entry) :
    Coherent config ({ s with l1 := l1 }.begin config key life) where
  off := hs.off
  survives := by
    intro hon key' life' hlatest
    by_cases hkey : key' = key
    · subst hkey
      simp only [Tiers.begin, Function.update_self] at hlatest
      exact hsurvives life' hlatest hon
    · simp only [Tiers.begin, Function.update_of_ne hkey] at hlatest
      exact hs.survives hon key' life' hlatest
  l1 := by
    intro key' entry hget hvalid
    by_cases hkey : key' = key
    · subst hkey
      simp only [Tiers.begin, Function.update_self]
      exact hnew entry hget
    · simp only [Tiers.begin, Function.update_of_ne hkey]
      exact hs.l1 key' entry (hold key' entry hkey hget) hvalid
  l2 := by
    intro key' text expires hreached hl2 hvalid
    by_cases hkey : key' = key
    · subst hkey
      simp only [Tiers.begin, Function.update_self] at hreached
      exact nomatch (hs.off hreached key').symm.trans hl2
    · simp only [Tiers.begin, Function.update_of_ne hkey] at hreached ⊢
      exact hs.l2 key' text expires hreached hl2 hvalid

theorem Coherent.drop (hs : Coherent config s) (key : String) :
    Coherent config (s.drop config key).2 := by
  refine hs.begin (fun _ h => nomatch h) ?_ ?_
  · intro entry hget
    rw [Dict.get_erase, if_pos rfl] at hget
    cases hget
  · intro key' entry hkey hget
    rw [Dict.get_erase, if_neg hkey] at hget
    exact hget

theorem Coherent.store_call (hs : Coherent config s) {key : String} {value : Value}
    {ttlSeconds : Option ℤ} {isConstitutional : Bool}
    (hcareful : (Op.store .call key value ttlSeconds isConstitutional).Careful config s) :
    Coherent config (s.store config .call key value ttlSeconds isConstitutional).2 := by
  obtain ⟨hzero, hsurvives⟩ := hcareful
  refine hs.begin ?_ ?_ ?_
  · rintro _ ⟨⟩
    exact hsurvives
  · intro entry hget
    rw [Dict.get_moveToEnd, Dict.get_set, if_pos rfl] at hget
    cases hget
    exact ⟨_, rfl, rfl, Int.add_le_add_left (seconds_mono (CacheConfig.ttl_le_asked hzero)) _⟩
  · intro key' entry hkey hget
    rw [Dict.get_moveToEnd, Dict.get_set, if_neg hkey] at hget
    exact get_of_get_evict hget

theorem Coherent.matching (hs : Coherent config s) {pattern : String}
    (hcareful : (Op.matching pattern).Careful config s) :
    Coherent config (s.matching pattern).2 := by
  have hlatest {key : String} {life : Life}
      (h : (s.matching pattern).2.latest key = some life) : s.latest key = some life := by
    simp only [Tiers.matching] at h
    split at h
    · cases h
    · exact h
  refine ⟨hs.off, fun hon key life h => hs.survives hon key life (hlatest h), ?_, ?_⟩
  · intro key entry hget hvalid
    have hin : key ∈ s.l1.keys := Dict.mem_keys_iff.mpr ⟨entry, hget⟩
    simp only [Tiers.matching]
    rw [if_neg fun h => h.2 hin]
    exact hs.l1 key entry hget hvalid
  · intro key text expires hreached hl2 hvalid
    obtain ⟨life, hlife, hrest⟩ := hs.l2 key text expires hreached hl2 hvalid
    have hheld : ¬(contains pattern key = true ∧ key ∉ s.l1.keys) := by
      rintro ⟨hcontains, hout⟩
      have hnone := hcareful key hcontains hout (hlife ▸ Option.some_ne_none life) hreached
      exact nomatch hnone.symm.trans (Tiers.visible_of_l2 hl2 hvalid)
    simp only [Tiers.matching]
    rw [if_neg hheld]
    exact ⟨life, hlife, hrest⟩

theorem Coherent.setex (hs : Coherent config s) {origin : Origin} {life : Option Life}
    {key : String} {ttl : ℤ} {text : List Char}
    (hlinked : (Op.setex origin life key ttl text).Linked config request)
    (hcareful : (Op.setex origin life key ttl text).Careful config s) :
    Coherent config (s.setex life key ttl text).2 := by
  obtain ⟨hon, l, rfl, hloads⟩ := hlinked
  rw [Tiers.setex]
  split
  · exact hs
  · refine ⟨fun hoff => (nomatch hon.symm.trans hoff), hs.survives, hs.l1, ?_⟩
    intro key' text' expires hreached hl2 hvalid
    by_cases hkey : key' = key
    · subst hkey
      simp only [Function.update_self] at hl2 hreached
      cases hl2
      rcases hcareful with ⟨hlatest, hexpires⟩ | ⟨hpending, howner⟩
      · exact ⟨l, hlatest, hloads, hexpires l rfl⟩
      · simp [hpending, howner l rfl] at hreached
    · simp only [Function.update_of_ne hkey] at hl2 hreached
      exact hs.l2 key' text' expires hreached hl2 hvalid

theorem Coherent.redisDelete (hs : Coherent config s) (owner : ℕ) (key : String) :
    Coherent config (s.redisDelete owner key) := by
  refine ⟨fun hoff key' => ?_, hs.survives, hs.l1, ?_⟩
  · by_cases hkey : key' = key
    · rw [hkey]
      exact Function.update_self ..
    · simp only [Tiers.redisDelete, Function.update_of_ne hkey]
      exact hs.off hoff key'
  · intro key' text expires hreached hl2 hvalid
    by_cases hkey : key' = key
    · subst hkey
      simp only [Tiers.redisDelete, Function.update_self] at hl2
      cases hl2
    · simp only [Tiers.redisDelete, Function.update_of_ne hkey] at hl2 hreached
      exact hs.l2 key' text expires hreached hl2 hvalid

theorem Coherent.wait (hs : Coherent config s) (microseconds : ℕ) :
    Coherent config { s with now := s.now + microseconds } where
  off := hs.off
  survives := hs.survives
  l1 := fun key entry hget hvalid =>
    hs.l1 key entry hget ((Int.le_add_of_nonneg_right (Int.natCast_nonneg _)).trans hvalid)
  l2 := fun key text expires hreached hl2 hvalid =>
    hs.l2 key text expires hreached hl2
      ((Int.le_add_of_nonneg_right (Int.natCast_nonneg _)).trans hvalid)

theorem grows_sees : Grows seen (Sees request seen s) := fun _ => .inl

/-- **An operation** of the code that meets the condition keeps the tiers coherent, and answers what
the map with expiry would. -/
theorem Coherent.perform (hs : Coherent config s) {o : Op} {r : o.Resp} {s' : Tiers}
    (hlinked : o.Linked config request) (hcareful : o.Careful config s)
    (h : s.perform config o = some (r, s')) :
    Coherent config s' ∧ Told config seen o r (Sees request seen s) := by
  cases o with
  | lookup key =>
    have heq : s.lookup key = (r, s') := Option.some_inj.mp h
    rw [Tiers.lookup] at heq
    split at heq
    · cases heq
      exact ⟨hs, grows_sees, fun _ hnone => nomatch hnone⟩
    · rename_i entry hget
      split at heq
      · cases heq
        exact ⟨hs, grows_sees, fun _ hnone => nomatch hnone⟩
      · rename_i hvalid
        cases heq
        refine ⟨hs.moveToEnd key, grows_sees, ?_⟩
        rintro _ ⟨⟩
        exact .inr ⟨key, hlinked, hs.current_of_l1 hget (not_lt.mp hvalid)⟩
  | store origin key value ttlSeconds isConstitutional =>
    rw [Tiers.perform] at h
    split at h
    · cases h
    · cases origin with
      | call =>
        cases Option.some_inj.mp h
        exact ⟨hs.store_call hcareful, grows_sees, hcareful.2, _, rfl, rfl⟩
      | promotion source =>
        obtain ⟨life, rfl, hvalue⟩ := hlinked
        cases Option.some_inj.mp h
        exact ⟨hs.storeL1 hcareful.1 hvalue (hcareful.2 life rfl), grows_sees, rfl⟩
  | drop key =>
    cases Option.some_inj.mp h
    exact ⟨hs.drop key, grows_sees⟩
  | matching pattern =>
    cases Option.some_inj.mp h
    exact ⟨hs.matching hcareful, grows_sees⟩
  | redisGet key =>
    cases Option.some_inj.mp h
    refine ⟨hs, grows_sees, fun value hread => ?_⟩
    obtain ⟨hcurrent, hsurvives, hlatest⟩ := hs.current_of_l2 hcareful hread
    exact ⟨.inr ⟨key, hlinked, hcurrent⟩, hsurvives, hlatest⟩
  | setex origin life key ttl text =>
    have heq : s.setex life key ttl text = (r, s') := Option.some_inj.mp h
    have hcoherent := hs.setex hlinked hcareful
    rw [heq] at hcoherent
    exact ⟨hcoherent, grows_sees⟩
  | redisDelete owner key =>
    cases Option.some_inj.mp h
    exact ⟨hs.redisDelete owner key, grows_sees⟩

theorem Op.moves {o : Op} (hlinked : o.Linked config request) (hcareful : o.Careful config s) :
    o.Moves config s := by
  cases o with
  | store origin key value ttlSeconds isConstitutional =>
    cases origin with
    | call => trivial
    | promotion source =>
      obtain ⟨life, rfl, hvalue⟩ := hlinked
      exact ⟨life, hcareful.1, hvalue, hcareful.2 life rfl⟩
  | setex origin life key ttl text =>
    cases origin with
    | call => trivial
    | promotion source =>
      obtain ⟨-, l, rfl, -⟩ := hlinked
      intro hreached
      rcases hcareful with ⟨hlatest, hexpires⟩ | ⟨hpending, -⟩
      · exact ⟨l, hlatest, hexpires l rfl⟩
      · exact nomatch hpending.symm.trans hreached
  | _ => trivial

end Perform

/-! ## Runs -/

/-- The tiers are coherent, and every call goes on as its code does. -/
structure Cache.Sound (config : CacheConfig) (s : Cache) : Prop where
  tiers : Coherent config s.tiers
  calls : ∀ n running, s.calls n = some running →
    Safe (Told config) (fun _ => Op.Linked config running.request) running.rest running.seen
      (fun result seen => ∀ value, result = some value → seen value) fun _ _ => True

theorem Cache.sound_init : Cache.Sound config {} where
  tiers := by
    refine ⟨fun _ _ => rfl, fun _ _ _ h => (nomatch h), fun _ _ h => (nomatch h), ?_⟩
    exact fun _ _ _ _ h => nomatch h
  calls := fun _ _ h => nomatch h

theorem Cache.Sound.update {s : Cache} (hs : s.Sound config) {n : ℕ} {running : Running}
    {tiers : Tiers} (htiers : Coherent config tiers)
    (hsafe : Safe (Told config) (fun _ => Op.Linked config running.request) running.rest
      running.seen (fun result seen => ∀ value, result = some value → seen value)
      fun _ _ => True) :
    Cache.Sound config ⟨tiers, Function.update s.calls n (some running)⟩ where
  tiers := htiers
  calls := by
    intro n' running' hrunning
    by_cases hn : n' = n
    · subst hn
      simp only [Function.update_self] at hrunning
      cases hrunning
      exact hsafe
    · simp only [Function.update_of_ne hn] at hrunning
      exact hs.calls n' running' hrunning

theorem Cache.Sound.step {s : Cache} (hs : s.Sound config) {e : Event}
    (hcareful : s.Careful config e) : (s.step config e).Sound config := by
  cases e with
  | call n request =>
    rw [Cache.step]
    split
    · exact hs
    · exact hs.update hs.tiers request.code_safe
  | act n =>
    rw [Cache.step]
    split
    · rename_i request o k seen hrunning
      have hsafe := hs.calls n _ hrunning
      have hnext : s.next n = some o := by rw [Cache.next, hrunning]
      split
      · exact hs
      · rename_i r tiers hperform
        have hanswered : Coherent config tiers ∧
            Told config seen o r (Sees request seen s.tiers) :=
          hs.tiers.perform hsafe.1 (hcareful n o rfl hnext) hperform
        obtain ⟨hcoherent, htold⟩ := hanswered
        exact hs.update hcoherent (hsafe.2 r _ htold)
    · exact hs
  | wait microseconds => exact ⟨hs.tiers.wait microseconds, hs.calls⟩

end

end EnhancedAgentBus.ContextMemory
