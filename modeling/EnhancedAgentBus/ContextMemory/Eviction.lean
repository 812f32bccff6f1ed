import EnhancedAgentBus.ContextMemory.CacheRefinement

/-!
# Eviction

A set evicts before it looks whether its key is there.  `Cache.keepsEntries_along_iff` finds nothing
else wrong: L1 is in the order of the latest uses of its keys (`Ordered`), whatever the calls do and
however they are interleaved, so what is evicted is the least recently used of the entries that may
go.
-/

namespace EnhancedAgentBus.ContextMemory

open Machine

/-- The cache, and the keys as they have been used, latest first. -/
structure Traced where
  cache : Cache := {}
  uses : List String := []

/-- The key that is used: one that is set, or that a `get` has found in L1. -/
def Op.used (s : Tiers) : Op → Option String
  | .store _ key _ _ _ => some key
  | .lookup key => (s.lookup key).1.map fun _ => key
  | _ => none

def Cache.used (s : Cache) : Event → List String
  | .act n => ((s.next n).bind (Op.used s.tiers)).toList
  | _ => []

namespace Traced

variable (config : CacheConfig)

def step (s : Traced) (e : Event) : Traced where
  cache := s.cache.step config e
  uses := s.cache.used e ++ s.uses

def l1 (s : Traced) : Dict String CacheEntry := s.cache.tiers.l1

end Traced

/-! ## The claim on a run, and the condition -/

/-- A constitutional entry goes only if there is no other, and of the entries of its kind the one
that has not been used for longest. -/
structure MayGo (uses : List String) (l1 : Dict String CacheEntry) (e : String × CacheEntry) :
    Prop where
  constitutional : e.2.isConstitutional = true → ∀ e' ∈ l1.entries, e'.2.isConstitutional = true
  oldest : ∀ e' ∈ l1.entries, e'.2.isConstitutional = e.2.isConstitutional → e' ≠ e →
    uses.idxOf e'.1 < uses.idxOf e.1

structure Sparing (config : CacheConfig) (uses : List String) (l1 : Dict String CacheEntry)
    (key : String) : Prop where
  each : ∀ i < l1.entries.length + 1 - config.l1MaxEntries, ∀ e ∈ (evictOne^[i] l1).entries,
    e ∉ (evictOne^[i + 1] l1).entries → MayGo uses (evictOne^[i] l1) e
  present : key ∈ l1.keys → evict config.l1MaxEntries l1 = l1

/-- `P` holds of L1 and the key, if the event is a set. -/
def Traced.OnSet (P : Traced → String → Prop) (s : Traced) (e : Event) : Prop :=
  ∀ n origin key value ttlSeconds isConstitutional, e = .act n →
    s.cache.next n = some (.store origin key value ttlSeconds isConstitutional) → P s key

/-- The cache keeps its entries as long as it can. -/
def Traced.KeepsEntries (config : CacheConfig) (s : Traced) (e : Event) : Prop :=
  (s.step config e).l1.entries.length ≤ config.l1MaxEntries ∧
    Traced.OnSet (fun s => Sparing config s.uses s.l1) s e

/-- No key is set that is there while L1 is full. -/
def Traced.SetsWithRoom (config : CacheConfig) : Traced → Event → Prop :=
  Traced.OnSet fun s key => key ∈ s.l1.keys → s.l1.entries.length < config.l1MaxEntries

/-! ## One entry -/

variable {config : CacheConfig} {uses : List String} {l1 : Dict String CacheEntry}

theorem entries_erase_of_eq {before after : List (String × CacheEntry)} {e : String × CacheEntry}
    (h : l1.entries = before ++ e :: after) : (l1.erase e.1).entries = before ++ after := by
  have hnodup := l1.nodup
  rw [h, List.map_append, List.map_cons, List.nodup_middle, List.nodup_cons, ← List.map_append]
    at hnodup
  show l1.entries.filter (fun e' => decide (e'.1 ≠ e.1)) = _
  rw [h, List.filter_append, List.filter_cons_of_neg (by simp), ← List.filter_append,
    List.filter_eq_self]
  intro e' he'
  have hne : e'.1 ≠ e.1 := fun heq => hnodup.1 (heq ▸ List.mem_map_of_mem he')
  simpa using hne

/-- What is evicted is the first entry of its kind, and constitutional only if all are. -/
theorem evictOne_cases (hne : l1.entries ≠ []) : ∃ before e after,
    l1.entries = before ++ e :: after ∧ (evictOne l1).entries = before ++ after ∧
      (∀ e' ∈ before, e'.2.isConstitutional ≠ e.2.isConstitutional) ∧
      (e.2.isConstitutional = true → ∀ e' ∈ l1.entries, e'.2.isConstitutional = true) := by
  rw [evictOne]
  split
  · rename_i key entry hfind
    obtain ⟨hkind, before, after, heq, hbefore⟩ := List.find?_eq_some_iff_append.mp hfind
    have hfalse : entry.isConstitutional = false := by simpa using hkind
    have herase := entries_erase_of_eq heq
    refine ⟨before, (key, entry), after, heq, herase, fun e' he' => ?_, fun h => ?_⟩
    · have htrue : e'.2.isConstitutional = true := by simpa using hbefore e' he'
      rw [htrue, hfalse]
      exact Bool.noConfusion
    · exact absurd (hfalse.symm.trans h) Bool.false_ne_true
  · rename_i hfind
    have hall : ∀ e' ∈ l1.entries, e'.2.isConstitutional = true := by
      simpa [List.find?_eq_none] using hfind
    split
    · rename_i hnil
      exact absurd hnil hne
    · rename_i key entry rest heq
      have herase := @entries_erase_of_eq l1 [] rest (key, entry) heq
      exact ⟨[], (key, entry), rest, heq, herase, fun e' he' => absurd he' List.not_mem_nil,
        fun _ => hall⟩

theorem evictOne_of_nil (h : l1.entries = []) : evictOne l1 = l1 := by
  rw [evictOne, h]
  rfl

theorem evictOne_sublist (l1 : Dict String CacheEntry) :
    ((evictOne l1).entries).Sublist l1.entries := by
  by_cases hne : l1.entries = []
  · rw [evictOne_of_nil hne]
  · obtain ⟨before, e, after, heq, hevict, -⟩ := evictOne_cases hne
    rw [heq, hevict]
    exact (List.sublist_cons_self e after).append_left before

theorem length_evictOne (l1 : Dict String CacheEntry) :
    (evictOne l1).entries.length = l1.entries.length - 1 := by
  by_cases hne : l1.entries = []
  · rw [evictOne_of_nil hne, hne]
    rfl
  · obtain ⟨before, e, after, heq, hevict, -⟩ := evictOne_cases hne
    rw [heq, hevict]
    simp only [List.length_append, List.length_cons]
    omega

theorem iterate_evictOne_sublist (i : ℕ) (l1 : Dict String CacheEntry) :
    ((evictOne^[i] l1).entries).Sublist l1.entries := by
  induction i generalizing l1 with
  | zero => exact List.Sublist.refl _
  | succ i ih => exact (ih (evictOne l1)).trans (evictOne_sublist l1)

theorem length_iterate_evictOne (i : ℕ) (l1 : Dict String CacheEntry) :
    (evictOne^[i] l1).entries.length = l1.entries.length - i := by
  induction i generalizing l1 with
  | zero => rfl
  | succ i ih =>
    rw [Function.iterate_succ_apply, ih, length_evictOne]
    omega

/-! ## The order of L1 -/

/-- The later an entry stands, the fewer uses ago its key was used. -/
def Ordered (uses : List String) (l1 : Dict String CacheEntry) : Prop :=
  l1.keys.Pairwise fun key key' => uses.idxOf key' < uses.idxOf key

theorem Ordered.sublist {l1' : Dict String CacheEntry} (h : Ordered uses l1)
    (hsub : l1'.entries.Sublist l1.entries) : Ordered uses l1' :=
  List.Pairwise.sublist (hsub.map _) h

/-- A key is used, and comes to the end. -/
theorem Ordered.use {l1' : Dict String CacheEntry} {key : String} (h : Ordered uses l1)
    (hkeys : l1'.keys = l1.keys.filter (· ≠ key) ++ [key]) : Ordered (key :: uses) l1' := by
  have hlater (k : String) (hk : k ≠ key) : (key :: uses).idxOf k = uses.idxOf k + 1 :=
    List.idxOf_cons_ne uses hk.symm
  rw [Ordered, hkeys, List.pairwise_append]
  refine ⟨(List.Pairwise.sublist List.filter_sublist h).imp_of_mem ?_,
    List.pairwise_singleton _ _, ?_⟩
  · intro k k' hk hk' hlt
    rw [hlater k (by simpa using (List.mem_filter.mp hk).2),
      hlater k' (by simpa using (List.mem_filter.mp hk').2)]
    exact Nat.succ_lt_succ hlt
  · intro k hk k' hk'
    rw [List.mem_singleton.mp hk', List.idxOf_cons_self,
      hlater k (by simpa using (List.mem_filter.mp hk).2)]
    exact Nat.succ_pos _

theorem Ordered.mayGo (h : Ordered uses l1) {e : String × CacheEntry} (he : e ∈ l1.entries)
    (hgone : e ∉ (evictOne l1).entries) : MayGo uses l1 e := by
  obtain ⟨before, victim, after, heq, hevict, hkind, hall⟩ :=
    evictOne_cases (List.ne_nil_of_mem he)
  have hvictim : e = victim := by
    rw [heq, List.mem_append, List.mem_cons] at he
    rw [hevict, List.mem_append] at hgone
    tauto
  subst hvictim
  refine ⟨hall, fun e' he' hsame hne => ?_⟩
  rw [heq, List.mem_append, List.mem_cons] at he'
  rcases he' with hbefore | rfl | hafter
  · exact absurd hsame (hkind e' hbefore)
  · exact absurd rfl hne
  · rw [Ordered, Dict.keys, heq, List.map_append, List.map_cons, List.pairwise_append] at h
    exact (List.pairwise_cons.mp h.2.1).1 e'.1 (List.mem_map_of_mem hafter)

/-- **A set** spares what it can, but for a key that is there while L1 is full. -/
theorem Ordered.sparing_iff (h : Ordered uses l1) {key : String} : Sparing config uses l1 key ↔
    (key ∈ l1.keys → l1.entries.length < config.l1MaxEntries) := by
  constructor
  · intro hsparing hkey
    have hlength := congrArg (fun d => d.entries.length) (hsparing.present hkey)
    have hpos : 0 < l1.entries.length := by
      rw [← List.length_map Prod.fst]
      exact List.length_pos_of_mem hkey
    rw [evict, length_iterate_evictOne] at hlength
    omega
  · intro hroom
    refine ⟨fun i _ e he hgone => ?_, fun hkey => ?_⟩
    · rw [Function.iterate_succ_apply'] at hgone
      exact (h.sublist (iterate_evictOne_sublist i l1)).mayGo he hgone
    · rw [evict, Nat.sub_eq_zero_of_le (hroom hkey)]
      rfl

/-! ## Runs -/

namespace Traced

structure Recent (config : CacheConfig) (uses : List String) (l1 : Dict String CacheEntry) :
    Prop where
  room : l1.entries.length ≤ config.l1MaxEntries
  ordered : Ordered uses l1

theorem Recent.sublist (h : Recent config uses l1) {l1' : Dict String CacheEntry}
    (hsub : l1'.entries.Sublist l1.entries) : Recent config uses l1' :=
  ⟨hsub.length_le.trans h.room, h.ordered.sublist hsub⟩

theorem Recent.use (h : Recent config uses l1) {key : String}
    {l1' : Dict String CacheEntry} (hkeys : l1'.keys = l1.keys.filter (· ≠ key) ++ [key])
    (hroom : key ∈ l1.keys ∨ l1.entries.length < config.l1MaxEntries) :
    Recent config (key :: uses) l1' := by
  refine ⟨?_, h.ordered.use hkeys⟩
  -- the key was there and moves to the end, or there is room for it
  have hlength : l1'.entries.length = (l1.keys.filter (· ≠ key)).length + 1 := by
    rw [← List.length_map Prod.fst]
    exact (congrArg List.length hkeys).trans (by simp)
  have hkeysLength : l1.keys.length = l1.entries.length := List.length_map _
  rcases hroom with hmem | hlt
  · have hfilter : (l1.keys.filter (· ≠ key)).length < l1.keys.length :=
      List.length_filter_lt_length_iff_exists.mpr ⟨key, hmem, by simp⟩
    have := h.room
    omega
  · have := List.length_filter_le (· ≠ key) l1.keys
    omega

theorem Recent.lookup {s : Tiers} (h : Recent config uses s.l1) (key : String) :
    Recent config ((Op.used s (.lookup key)).toList ++ uses) (s.lookup key).2.l1 := by
  rw [Op.used, Tiers.lookup]
  split
  · exact h
  · rename_i entry hget
    split
    · exact h
    · have hmem : key ∈ s.l1.keys := Dict.mem_keys_iff.mpr ⟨entry, hget⟩
      exact h.use (Dict.keys_moveToEnd hmem) (.inl hmem)

theorem Recent.store {s : Tiers} (hcapacity : 0 < config.l1MaxEntries)
    (h : Recent config uses s.l1) (origin : Origin) (key : String) (value : Value)
    (ttlSeconds : Option ℤ) (isConstitutional : Bool) :
    Recent config (key :: uses)
      (s.store config origin key value ttlSeconds isConstitutional).2.l1 := by
  have hl1 : (s.store config origin key value ttlSeconds isConstitutional).2.l1 =
      ((evict config.l1MaxEntries s.l1).set key
        ⟨value, s.now + seconds (config.ttl ttlSeconds), isConstitutional⟩).moveToEnd key := by
    cases origin <;> rfl
  rw [hl1]
  refine (h.sublist (iterate_evictOne_sublist _ s.l1)).use (Dict.keys_moveToEnd_set _ _ _) (.inr ?_)
  rw [length_iterate_evictOne]
  have := h.room
  omega

/-- **An operation** -/
theorem Recent.perform {s s' : Tiers} {o : Op} {r : o.Resp} (h : Recent config uses s.l1)
    (hperform : s.perform config o = some (r, s')) :
    Recent config ((o.used s).toList ++ uses) s'.l1 := by
  rcases o with key | ⟨origin, key, value, ttlSeconds, isConstitutional⟩ | key | pattern | key |
    ⟨origin, life, key, ttl, text⟩ | ⟨owner, key⟩
  · obtain rfl : (s.lookup key).2 = s' := congrArg Prod.snd (Option.some_inj.mp hperform)
    exact h.lookup key
  · rw [Tiers.perform] at hperform
    split at hperform
    · cases hperform
    · rename_i hcapacity
      obtain rfl : (s.store config origin key value ttlSeconds isConstitutional).2 = s' :=
        congrArg Prod.snd (Option.some_inj.mp hperform)
      exact h.store (Nat.pos_of_ne_zero hcapacity) origin key value ttlSeconds _
  · cases hperform
    exact h.sublist List.filter_sublist
  · cases hperform
    exact h
  · cases hperform
    exact h
  · obtain rfl : (s.setex life key ttl text).2 = s' :=
      congrArg Prod.snd (Option.some_inj.mp hperform)
    rw [Tiers.setex]
    split <;> exact h
  · cases hperform
    exact h

/-- A set that does not end finds no entry. -/
theorem Recent.stuck {s : Tiers} {o : Op} (h : Recent config uses s.l1)
    (hperform : s.perform config o = none) (uses' : List String) : Recent config uses' s.l1 := by
  rcases o with key | ⟨origin, key, value, ttlSeconds, isConstitutional⟩ | key | pattern | key |
    ⟨origin, life, key, ttl, text⟩ | ⟨owner, key⟩ <;> try cases hperform
  rw [Tiers.perform] at hperform
  split at hperform
  · rename_i hcapacity
    have hnil : s.l1.entries = [] :=
      List.length_eq_zero_iff.mp (Nat.le_zero.mp (hcapacity ▸ h.room))
    refine ⟨h.room, ?_⟩
    rw [Ordered, Dict.keys, hnil]
    exact List.Pairwise.nil
  · cases hperform

theorem Recent.step {s : Traced} (h : Recent config s.uses s.l1) (e : Event) :
    Recent config (s.step config e).uses (s.step config e).l1 := by
  rcases e with ⟨n, request⟩ | ⟨n⟩ | ⟨microseconds⟩
  · have hl1 : (s.step config (.call n request)).l1 = s.l1 := by
      simp only [Traced.step, Traced.l1, Cache.step]
      split <;> rfl
    rw [hl1]
    exact h
  · rw [Traced.step, Traced.l1]
    dsimp only
    rw [Cache.used, Cache.step, Cache.next]
    rcases hcall : s.cache.calls n with _ | ⟨request, _ | _ | ⟨o, k⟩, seen⟩
    · exact h
    · exact h
    · exact h
    · dsimp only
      rcases hperform : s.cache.tiers.perform config o with _ | ⟨r, tiers⟩
      · exact h.stuck hperform _
      · exact h.perform hperform
  · exact h

theorem Recent.run {s : Traced} (h : Recent config s.uses s.l1) (events : List Event) :
    Recent config (Machine.run (Traced.step config) s events).uses
      (Machine.run (Traced.step config) s events).l1 := by
  induction events generalizing s with
  | nil => exact h
  | cons e events ih => exact ih (h.step e)

end Traced

/-- **L1 is bounded**, after any calls, and what the next set evicts is the least recently used of
the entries that may go. -/
theorem Cache.evicts_leastRecent (config : CacheConfig) (events : List Event) :
    let s := run (Traced.step config) {} events
    s.l1.entries.length ≤ config.l1MaxEntries ∧ ∀ e ∈ s.l1.entries,
      e ∉ (evict config.l1MaxEntries s.l1).entries → MayGo s.uses s.l1 e := by
  intro s
  have hrecent : Traced.Recent config s.uses s.l1 :=
    .run (s := {}) ⟨Nat.zero_le _, List.Pairwise.nil⟩ events
  refine ⟨hrecent.room, fun e he hgone => hrecent.ordered.mayGo he ?_⟩
  -- with L1 bounded, a set evicts at most once
  rcases hrecent.room.lt_or_eq with hlt | heq
  · rw [evict, Nat.sub_eq_zero_of_le hlt] at hgone
    exact absurd he hgone
  · rwa [evict, heq, Nat.add_sub_cancel_left] at hgone

/-- **Entries are kept as long as they can be**, except that a set of a key that is there evicts
while L1 is full. -/
theorem Cache.keepsEntries_along_iff (config : CacheConfig) (events : List Event) :
    Along (Traced.step config) (Traced.KeepsEntries config) {} events ↔
      Along (Traced.step config) (Traced.SetsWithRoom config) {} events := by
  have hinit : Traced.Recent config [] Dict.empty := ⟨Nat.zero_le _, List.Pairwise.nil⟩
  refine along_iff (fun s => Traced.Recent config s.uses s.l1) hinit (fun s e hs => ?_)
    fun s e hs _ => hs.step e
  constructor
  · intro hkeeps n origin key value ttlSeconds isConstitutional he hnext
    exact hs.ordered.sparing_iff.mp
      (hkeeps.2 n origin key value ttlSeconds isConstitutional he hnext)
  · intro hroom
    refine ⟨(hs.step e).room, fun n origin key value ttlSeconds isConstitutional he hnext => ?_⟩
    exact hs.ordered.sparing_iff.mpr (hroom n origin key value ttlSeconds isConstitutional he hnext)

/-- "j" and "k" have room, but with "k" set again only one of them is left. -/
theorem Cache.setAgain_not_keepsEntries :
    ¬∀ config events, 1 ≤ config.l1MaxEntries →
      Along (Traced.step config) (Traced.KeepsEntries config) {} events := by
  intro h
  have hall := h { l1MaxEntries := 2 }
    [.call 0 (.set "j" (.json .null) none false), .act 0,
      .call 1 (.set "k" (.json .null) none false), .act 1,
      .call 2 (.set "k" (.json .null) none false), .act 2] (by decide)
  obtain ⟨-, -, -, -, -, ⟨-, hspares⟩, -⟩ := hall
  have hevict := (hspares 2 .call "k" (.json .null) none false rfl rfl).present (by decide)
  exact absurd (congrArg (fun d => d.entries.length) hevict) (by decide)

end EnhancedAgentBus.ContextMemory
