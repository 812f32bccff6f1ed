import EnhancedAgentBus.Batch.Deduplication
import Mathlib.Tactic.Linarith

/-!
# Which duplicates are true repeats

`Window` is what the cache and the table of instants say together, as long as the cache has room for
what is live: an identifier is a duplicate's exactly when an item with it was let pass within the
window (`Window.isDuplicate_iff`).  So along a run the middleware is a filter that remembers what it
let pass (`passes_swept`), and `dropsOnlyRepeats_iff` says on which items it removes true repeats
only.
-/

namespace EnhancedAgentBus.Batch

section Window

variable [PrintTable] (digest : String → String)

/-- What the middleware knows of the items it let pass. -/
structure Window (passed : List Arrival) (now : ℚ) (mw : Deduplication) : Prop where
  stamped : ∀ id t, mw.seenTimestamps.get id = some t →
    ∃ b ∈ passed, computeMessageId digest b.item = id ∧ b.reading.stampedAt = t
  cached : ∀ id ∈ mw.cache.keys, ∃ b ∈ passed, computeMessageId digest b.item = id
  live : ∀ b ∈ passed, now - b.reading.stampedAt ≤ mw.dedupWindowSec →
    computeMessageId digest b.item ∈ mw.cache.keys ∧
      ∃ t, mw.seenTimestamps.get (computeMessageId digest b.item) = some t ∧
        b.reading.stampedAt ≤ t
  /-- What comes later in the cache was let pass later. -/
  recent : mw.cache.keys.Pairwise fun id id' =>
    ∀ b ∈ passed, computeMessageId digest b.item = id →
      ∃ b' ∈ passed, computeMessageId digest b'.item = id' ∧
        b.reading.stampedAt ≤ b'.reading.stampedAt
  past : ∀ b ∈ passed, 0 ≤ b.reading.stampedAt ∧ b.reading.stampedAt ≤ now

/-- The texts of the items that are within the window. -/
def liveTexts (window : ℤ) (earlier : List Arrival) (now : ℚ) : Finset String :=
  ((earlier.filter fun b => now - b.reading.stampedAt ≤ window).map
    fun b => contentStr b.item).toFinset

variable {digest} {passed : List Arrival} {now : ℚ} {mw : Deduplication}

theorem Window.later (h : Window digest passed now mw) {now' : ℚ} (hle : now ≤ now') :
    Window digest passed now' mw := by
  refine ⟨h.stamped, h.cached, fun b hb hlive => h.live b hb ?_, h.recent, fun b hb => ?_⟩
  · linarith
  · exact ⟨(h.past b hb).1, (h.past b hb).2.trans hle⟩

/-- **What a duplicate is.** -/
theorem Window.isDuplicate_iff (h : Window digest passed now mw) (id : String) :
    (mw.isDuplicate now id).1 = true ↔
      ∃ b ∈ passed, computeMessageId digest b.item = id ∧
        now - b.reading.stampedAt ≤ mw.dedupWindowSec := by
  rw [Deduplication.isDuplicate]
  by_cases hmem : id ∈ mw.cache.keys
  · have hcontains : mw.cache.contains id = true := decide_eq_true hmem
    rw [if_pos hcontains]
    by_cases hlive : now - (mw.seenTimestamps.get id).getD 0 ≤ mw.dedupWindowSec
    · rw [if_pos hlive]
      refine iff_of_true rfl ?_
      cases hstamp : mw.seenTimestamps.get id with
      | some t =>
        obtain ⟨b, hb, hid, rfl⟩ := h.stamped id t hstamp
        rw [hstamp] at hlive
        exact ⟨b, hb, hid, hlive⟩
      | none =>
        -- the instant that is read instead is before every other
        obtain ⟨b, hb, hid⟩ := h.cached id hmem
        rw [hstamp, Option.getD_none] at hlive
        have hpast := (h.past b hb).1
        exact ⟨b, hb, hid, by linarith⟩
    · rw [if_neg hlive]
      refine iff_of_false Bool.false_ne_true ?_
      rintro ⟨b, hb, rfl, hwithin⟩
      obtain ⟨-, t, hstamp, hle⟩ := h.live b hb hwithin
      rw [hstamp, Option.getD_some] at hlive
      exact hlive (by linarith)
  · have hcontains : ¬mw.cache.contains id = true := fun h => hmem (of_decide_eq_true h)
    rw [if_neg hcontains]
    refine iff_of_false Bool.false_ne_true ?_
    rintro ⟨b, hb, rfl, hwithin⟩
    exact hmem (h.live b hb hwithin).1

theorem Window.after_look (h : Window digest passed now mw) {id : String}
    (hnew : (mw.isDuplicate now id).1 = false) :
    Window digest passed now (mw.isDuplicate now id).2 ∧
      (mw.isDuplicate now id).2.cache = mw.cache ∧
      (mw.isDuplicate now id).2.dedupWindowSec = mw.dedupWindowSec := by
  have hfresh : ∀ b ∈ passed, now - b.reading.stampedAt ≤ mw.dedupWindowSec →
      computeMessageId digest b.item ≠ id := by
    intro b hb hwithin hid
    rw [← Bool.not_eq_true] at hnew
    exact hnew ((h.isDuplicate_iff id).mpr ⟨b, hb, hid, hwithin⟩)
  rw [Deduplication.isDuplicate] at hnew ⊢
  split
  · rename_i hmem
    rw [if_pos hmem] at hnew
    split
    · rename_i hlive
      rw [if_pos hlive] at hnew
      cases hnew
    · refine ⟨⟨fun id' t hstamp => ?_, h.cached, fun b hb hwithin => ?_, h.recent, h.past⟩, rfl,
        rfl⟩
      · rw [Dict.get_erase] at hstamp
        split at hstamp
        · cases hstamp
        · exact h.stamped id' t hstamp
      · obtain ⟨hkey, t, hstamp, hle⟩ := h.live b hb hwithin
        refine ⟨hkey, t, ?_, hle⟩
        rw [Dict.get_erase, if_neg (hfresh b hb hwithin), hstamp]
  · exact ⟨h, rfl, rfl⟩

/-- **Room.**  A full cache has something to lose that is no longer within the window. -/
theorem Window.expired_of_full (h : Window digest passed now mw)
    (hroom : ((liveTexts mw.dedupWindowSec passed now).card : ℤ) < mw.cache.maxsize)
    (hfull : mw.cache.maxsize ≤ mw.cache.len) {id : String} {tail : List String}
    (hkeys : mw.cache.keys = id :: tail) {b : Arrival} (hb : b ∈ passed)
    (hid : computeMessageId digest b.item = id) :
    ¬now - b.reading.stampedAt ≤ mw.dedupWindowSec := by
  intro hwithin
  have hlive : ∀ id' ∈ mw.cache.keys,
      id' ∈ (liveTexts mw.dedupWindowSec passed now).image digest := by
    have htext : ∀ b' ∈ passed, now - b'.reading.stampedAt ≤ mw.dedupWindowSec →
        computeMessageId digest b'.item ∈
          (liveTexts mw.dedupWindowSec passed now).image digest := by
      intro b' hb' hwithin'
      refine Finset.mem_image_of_mem digest (List.mem_toFinset.mpr (List.mem_map.mpr ⟨b', ?_, rfl⟩))
      exact List.mem_filter.mpr ⟨hb', decide_eq_true hwithin'⟩
    intro id' hid'
    rw [hkeys] at hid'
    rcases List.mem_cons.mp hid' with rfl | htail
    · exact hid ▸ htext b hb hwithin
    · have hrecent := h.recent
      rw [hkeys] at hrecent
      obtain ⟨b', hb', rfl, hle⟩ := List.rel_of_pairwise_cons hrecent htail b hb hid
      exact htext b' hb' (by linarith)
  have hnodup : mw.cache.keys.Nodup := mw.cache.cache.nodup
  have hcard : mw.cache.len ≤ (liveTexts mw.dedupWindowSec passed now).card := by
    calc mw.cache.len = mw.cache.keys.toFinset.card := (List.toFinset_card_of_nodup hnodup).symm
      _ ≤ ((liveTexts mw.dedupWindowSec passed now).image digest).card :=
          Finset.card_le_card fun id' hid' => hlive id' (List.mem_toFinset.mp hid')
      _ ≤ (liveTexts mw.dedupWindowSec passed now).card := Finset.card_image_le
  omega

theorem Window.pass (h : Window digest passed now mw) {a : Arrival}
    (hnew : ∀ b ∈ passed, computeMessageId digest b.item = computeMessageId digest a.item →
      ¬now - b.reading.stampedAt ≤ mw.dedupWindowSec)
    (hroom : ((liveTexts mw.dedupWindowSec passed now).card : ℤ) < mw.cache.maxsize)
    (hnow : 0 ≤ now) (hle : now ≤ a.reading.stampedAt) :
    ∃ cache, mw.cache.set (computeMessageId digest a.item) true = .ok cache ∧
      cache.maxsize = mw.cache.maxsize ∧
      Window digest (passed ++ [a]) a.reading.stampedAt
        { mw with
          cache := cache
          seenTimestamps :=
            mw.seenTimestamps.set (computeMessageId digest a.item) a.reading.stampedAt } := by
  obtain ⟨cache, rest, hset, hmaxsize, hkeys, hsublist, hlost⟩ :=
    LRUCache.set_spec (c := mw.cache) (by omega) (computeMessageId digest a.item) true
  have hself_notMem : computeMessageId digest a.item ∉ rest := by
    have hnodup : cache.keys.Nodup := cache.cache.nodup
    rw [hkeys] at hnodup
    exact fun hmem => (List.nodup_append.mp hnodup).2.2 _ hmem _ List.mem_cons_self rfl
  refine ⟨cache, hset, hmaxsize, ⟨fun id t hstamp => ?_, fun id hid => ?_, fun b hb hwithin => ?_,
    ?_, fun b hb => ?_⟩⟩
  · rcases Dict.get_set_cases hstamp with ⟨hid, heq⟩ | ⟨-, hstamp⟩
    · exact ⟨a, List.mem_append_right _ List.mem_cons_self, hid.symm, heq⟩
    · obtain ⟨b, hb, hbid⟩ := h.stamped id t hstamp
      exact ⟨b, List.mem_append_left _ hb, hbid⟩
  · rw [hkeys] at hid
    rcases List.mem_append.mp hid with hold | hself
    · obtain ⟨b, hb, hbid⟩ := h.cached id (hsublist.mem hold)
      exact ⟨b, List.mem_append_left _ hb, hbid⟩
    · exact ⟨a, List.mem_append_right _ List.mem_cons_self, (List.mem_singleton.mp hself).symm⟩
  · rw [hkeys, Dict.get_set]
    rcases List.mem_append.mp hb with hold | hself
    · have hwithin' : now - b.reading.stampedAt ≤ mw.dedupWindowSec :=
        (sub_le_sub_right hle _).trans hwithin
      have hne : computeMessageId digest b.item ≠ computeMessageId digest a.item :=
        fun heq => hnew b hold heq hwithin'
      obtain ⟨hkey, t, hstamp, hbt⟩ := h.live b hold hwithin'
      refine ⟨List.mem_append_left _ ?_, t, by rw [if_neg hne, hstamp], hbt⟩
      by_contra hgone
      obtain ⟨hfull, tail, htail⟩ := hlost _ hkey hne hgone
      exact h.expired_of_full hroom hfull htail hold rfl hwithin'
    · obtain rfl := List.mem_singleton.mp hself
      exact ⟨List.mem_append_right _ List.mem_cons_self, _, if_pos rfl, le_rfl⟩
  · rw [hkeys, List.pairwise_append]
    refine ⟨(h.recent.sublist hsublist).imp_of_mem fun {id id'} hid _ hrecent b hb hbid => ?_,
      List.pairwise_singleton _ _, fun id hid id' hid' b hb hbid => ?_⟩
    · rcases List.mem_append.mp hb with hold | hself
      · obtain ⟨b', hb', hbid', hbb⟩ := hrecent b hold hbid
        exact ⟨b', List.mem_append_left _ hb', hbid', hbb⟩
      · obtain rfl := List.mem_singleton.mp hself
        exact absurd (hbid ▸ hid) hself_notMem
    · rcases List.mem_append.mp hb with hold | hself
      · refine ⟨a, List.mem_append_right _ List.mem_cons_self,
          (List.mem_singleton.mp hid').symm, ?_⟩
        exact (h.past b hold).2.trans hle
      · obtain rfl := List.mem_singleton.mp hself
        exact absurd (hbid ▸ hid) hself_notMem
  · rcases List.mem_append.mp hb with hold | hself
    · exact ⟨(h.past b hold).1, (h.past b hold).2.trans hle⟩
    · obtain rfl := List.mem_singleton.mp hself
      exact ⟨hnow.trans hle, le_rfl⟩

theorem Window.clean (h : Window digest passed now mw) :
    Window digest passed now (mw.cleanOldTimestamps now) := by
  refine ⟨fun id t hstamp => ?_, h.cached, fun b hb hwithin => ?_, h.recent, h.past⟩
  · rw [Deduplication.cleanOldTimestamps, Dict.get_filterValues, Option.filter_eq_some_iff]
      at hstamp
    exact h.stamped id t hstamp.1
  · obtain ⟨hkey, t, hstamp, hle⟩ := h.live b hb hwithin
    refine ⟨hkey, t, ?_, hle⟩
    have hkept : ¬now - t > mw.dedupWindowSec := by
      have hbound : now - b.reading.stampedAt ≤ mw.dedupWindowSec := hwithin
      exact not_lt.mpr (by linarith)
    rw [Deduplication.cleanOldTimestamps, Dict.get_filterValues, hstamp, Option.filter_eq_some_iff]
    exact ⟨rfl, decide_eq_true hkept⟩

end Window

/-! ## Along a run -/

/-- An item that was let pass, as it stands to a later one that is removed for it. -/
def Covers [PrintTable] (window : ℤ) (b a : Arrival) : Prop :=
  contentStr b.item = contentStr a.item ∧ a.reading.checkedAt - b.reading.stampedAt ≤ window

/-- One JSON value says what another says: the members of an object may come in another order. -/
inductive SameJson : Json → Json → Prop
  | null : SameJson .null .null
  | bool (b : Bool) : SameJson (.bool b) (.bool b)
  | int (i : ℤ) : SameJson (.int i) (.int i)
  | float (f : PyFloat) : SameJson (.float f) (.float f)
  | str (s : String) : SameJson (.str s) (.str s)
  | arr {xs ys : List Json} (hlength : xs.length = ys.length)
      (hitems : ∀ (i : ℕ) (x y : Json), xs[i]? = some x → ys[i]? = some y → SameJson x y) :
      SameJson (.arr xs) (.arr ys)
  | obj {members members' : JSONDict}
      (hkeys : ∀ key, (Json.lookup key members).isSome = (Json.lookup key members').isSome)
      (hmembers : ∀ key x y, Json.lookup key members = some x → Json.lookup key members' = some y →
        SameJson x y) : SameJson (.obj members) (.obj members')

/-- Two items agree on what decides how they are processed. -/
structure Agree (item item' : BatchRequestItem) : Prop where
  tenantId : item.tenantId = item'.tenantId
  fromAgent : item.fromAgent = item'.fromAgent
  toAgent : item.toAgent = item'.toAgent
  messageType : item.messageType = item'.messageType
  content : SameJson (.obj item.content) (.obj item'.content)
  priority : item.priority = item'.priority
  metadata : SameJson (.obj item.metadata) (.obj item'.metadata)

/-- A later item is a true repeat of an earlier one, within the window. -/
def IsRepeat (window : ℤ) (b a : Arrival) : Prop :=
  Agree b.item a.item ∧ a.reading.checkedAt - b.reading.stampedAt ≤ window

def passedOf (marks : List (Arrival × Bool)) : List Arrival :=
  (marks.filter fun mark => !mark.2).map Prod.fst

theorem mem_passedOf {marks : List (Arrival × Bool)} {b : Arrival} :
    b ∈ passedOf marks ↔ (b, false) ∈ marks := by
  simp [passedOf]

theorem passedOf_concat (marks : List (Arrival × Bool)) (a : Arrival) (removed : Bool) :
    passedOf (marks ++ [(a, removed)]) = passedOf marks ++ if removed then [] else [a] := by
  cases removed <;> simp [passedOf]

def Timely (readings : List ℚ) : Prop := (0 :: readings).Pairwise (· ≤ ·)

theorem Timely.tail {reading next : ℚ} {readings : List ℚ}
    (h : Timely (reading :: next :: readings)) :
    reading ≤ next ∧ Timely (next :: readings) := by
  obtain ⟨hzero, hrest⟩ := List.pairwise_cons.mp h
  refine ⟨List.rel_of_pairwise_cons hrest List.mem_cons_self,
    List.pairwise_cons.mpr ⟨?_, hrest.tail⟩⟩
  exact fun t ht => hzero t (List.mem_cons_of_mem _ ht)

theorem Timely.nonneg {reading : ℚ} {readings : List ℚ} (h : Timely (reading :: readings)) :
    0 ≤ reading :=
  List.rel_of_pairwise_cons h List.mem_cons_self

/-- What the clock reads while items are looked at. -/
def readingsOf (arrivals : List Arrival) : List ℚ :=
  arrivals.flatMap fun a => [a.reading.checkedAt, a.reading.stampedAt]

section Run

variable [PrintTable] (digest : String → String)

/-- The items of a batch, each with whether it is removed. -/
def Deduplication.marks (mw : Deduplication) : List Arrival → List (Arrival × Bool)
  | [] => []
  | a :: rest =>
    match mw.visit digest a with
    | .error _ => []
    | .ok (removed, mw) => (a, removed) :: marks mw rest

/-- There is room in the cache for what is live. -/
def Roomy (window maxsize : ℤ) (arrivals : List Arrival) : Prop :=
  ∀ earlier a after, arrivals = earlier ++ a :: after →
    ((liveTexts window earlier a.reading.checkedAt).card : ℤ) < maxsize

variable {digest}

theorem liveTexts_mono (window : ℤ) {passed earlier : List Arrival} (hsub : passed ⊆ earlier)
    (now : ℚ) : liveTexts window passed now ⊆ liveTexts window earlier now := by
  intro text htext
  obtain ⟨b, hb, hbtext⟩ := List.mem_map.mp (List.mem_toFinset.mp htext)
  obtain ⟨hmem, hwithin⟩ := List.mem_filter.mp hb
  exact List.mem_toFinset.mpr
    (List.mem_map.mpr ⟨b, List.mem_filter.mpr ⟨hsub hmem, hwithin⟩, hbtext⟩)

theorem visit_of_duplicate {mw : Deduplication} {a : Arrival}
    (h : (mw.isDuplicate a.reading.checkedAt (computeMessageId digest a.item)).1 = true) :
    mw.visit digest a = .ok (true, mw) := by
  have hsame :
      mw.isDuplicate a.reading.checkedAt (computeMessageId digest a.item) = (true, mw) := by
    rw [Deduplication.isDuplicate] at h ⊢
    split at h
    · split at h
      · rename_i hmem hlive
        rw [if_pos hmem, if_pos hlive]
      · cases h
    · cases h
  simp only [Deduplication.visit, hsame]

theorem visit_of_new {mw : Deduplication} {a : Arrival} {cache : LRUCache}
    (h : (mw.isDuplicate a.reading.checkedAt (computeMessageId digest a.item)).1 = false)
    (hset : (mw.isDuplicate a.reading.checkedAt (computeMessageId digest a.item)).2.cache.set
      (computeMessageId digest a.item) true = .ok cache) :
    mw.visit digest a = .ok (false,
      { (mw.isDuplicate a.reading.checkedAt (computeMessageId digest a.item)).2 with
        cache := cache
        seenTimestamps :=
          (mw.isDuplicate a.reading.checkedAt
            (computeMessageId digest a.item)).2.seenTimestamps.set
              (computeMessageId digest a.item) a.reading.stampedAt }) := by
  rw [Deduplication.visit]
  cases hlook : mw.isDuplicate a.reading.checkedAt (computeMessageId digest a.item) with
  | mk removed mw' =>
    rw [hlook] at h hset
    obtain rfl : removed = false := h
    simp only [hset]

/-- **One turn of the loop.** -/
theorem Window.visit (hdigest : Function.Injective digest) {marks : List (Arrival × Bool)} {now : ℚ}
    {mw : Deduplication} (h : Window digest (passedOf marks) now mw) {a : Arrival}
    (hroom : ((liveTexts mw.dedupWindowSec (marks.map Prod.fst) a.reading.checkedAt).card : ℤ) <
      mw.cache.maxsize)
    (hpast : 0 ≤ now) (hnow : now ≤ a.reading.checkedAt)
    (hle : a.reading.checkedAt ≤ a.reading.stampedAt) :
    ∃ removed mw', mw.visit digest a = .ok (removed, mw') ∧
      (removed = true ↔ ∃ b, (b, false) ∈ marks ∧ Covers mw.dedupWindowSec b a) ∧
      Window digest (passedOf (marks ++ [(a, removed)])) a.reading.stampedAt mw' ∧
      mw'.dedupWindowSec = mw.dedupWindowSec ∧ mw'.cache.maxsize = mw.cache.maxsize := by
  have hhere := h.later hnow
  have hduplicate : (mw.isDuplicate a.reading.checkedAt (computeMessageId digest a.item)).1 = true ↔
      ∃ b, (b, false) ∈ marks ∧ Covers mw.dedupWindowSec b a := by
    rw [hhere.isDuplicate_iff]
    refine exists_congr fun b => ?_
    rw [mem_passedOf, computeMessageId, computeMessageId, hdigest.eq_iff, Covers]
  cases hflag : (mw.isDuplicate a.reading.checkedAt (computeMessageId digest a.item)).1 with
  | true =>
    refine ⟨true, mw, visit_of_duplicate hflag, iff_of_true rfl (hduplicate.mp hflag), ?_, rfl,
      rfl⟩
    rw [passedOf_concat, if_pos rfl, List.append_nil]
    exact hhere.later hle
  | false =>
    have hnone : ¬∃ b, (b, false) ∈ marks ∧ Covers mw.dedupWindowSec b a := by
      rw [← hduplicate, hflag]
      exact Bool.false_ne_true
    obtain ⟨hlooked, hcache, hwindow⟩ := hhere.after_look hflag
    have hnew : ∀ b ∈ passedOf marks,
        computeMessageId digest b.item = computeMessageId digest a.item →
          ¬a.reading.checkedAt - b.reading.stampedAt ≤ mw.dedupWindowSec :=
      fun b hb hid hwithin => hnone ⟨b, mem_passedOf.mp hb, hdigest hid, hwithin⟩
    have hsub : passedOf marks ⊆ marks.map Prod.fst := 
      (List.filter_sublist.map _).subset
    have hcard := Finset.card_le_card
      (liveTexts_mono mw.dedupWindowSec hsub a.reading.checkedAt)
    obtain ⟨cache, hset, hmaxsize, hpassed⟩ := hlooked.pass (a := a)
      (by rwa [hwindow]) (by rw [hwindow, hcache]; omega) (hpast.trans hnow) hle
    refine ⟨false, _, visit_of_new hflag hset, iff_of_false Bool.false_ne_true hnone, ?_, hwindow,
      by rw [hmaxsize, hcache]⟩
    rw [passedOf_concat, if_neg Bool.false_ne_true]
    exact hpassed

/-- **The loop.** -/
theorem Window.sweep (hdigest : Function.Injective digest) {window maxsize : ℤ}
    (arrivals : List Arrival) {marks : List (Arrival × Bool)} {now : ℚ} {mw : Deduplication}
    {later : List ℚ} (h : Window digest (passedOf marks) now mw)
    (hwindow : mw.dedupWindowSec = window) (hmaxsize : mw.cache.maxsize = maxsize)
    (htimely : Timely (now :: (readingsOf arrivals ++ later)))
    (hroom : ∀ earlier a after, arrivals = earlier ++ a :: after →
      ((liveTexts window (marks.map Prod.fst ++ earlier) a.reading.checkedAt).card : ℤ) < maxsize)
    (hswept : Repeats.Swept (Covers window) marks)
    (uniqueItems : List BatchRequestItem) (dedupCount : ℕ) :
    ∃ swept now', mw.sweep digest uniqueItems dedupCount arrivals = .ok swept ∧
      swept.uniqueItems = uniqueItems ++ (passedOf (mw.marks digest arrivals)).map Arrival.item ∧
      (mw.marks digest arrivals).map Prod.fst = arrivals ∧
      Repeats.Swept (Covers window) (marks ++ mw.marks digest arrivals) ∧
      Window digest (passedOf (marks ++ mw.marks digest arrivals)) now' swept.middleware ∧
      swept.middleware.dedupWindowSec = window ∧ swept.middleware.cache.maxsize = maxsize ∧
      Timely (now' :: later) := by
  induction arrivals generalizing marks now mw uniqueItems dedupCount with
  | nil =>
    refine ⟨⟨uniqueItems, dedupCount, mw⟩, now, rfl, (List.append_nil _).symm, rfl, ?_, ?_,
      hwindow, hmaxsize, htimely⟩
    · rwa [Deduplication.marks, List.append_nil]
    · rwa [Deduplication.marks, List.append_nil]
  | cons a rest ih =>
    obtain ⟨hnow, hchecked⟩ := htimely.tail
    obtain ⟨hle, hstamped⟩ := hchecked.tail
    have hfirst := hroom [] a rest rfl
    rw [List.append_nil, ← hwindow, ← hmaxsize] at hfirst
    obtain ⟨removed, mw', hvisit, hmark, hpassed, hwindow', hmaxsize'⟩ :=
      h.visit hdigest hfirst htimely.nonneg hnow hle
    rw [hwindow] at hmark
    have hmarks : mw.marks digest (a :: rest) = (a, removed) :: mw'.marks digest rest := by
      rw [Deduplication.marks, hvisit]
    have hroom' : ∀ earlier a' after, rest = earlier ++ a' :: after →
        ((liveTexts window ((marks ++ [(a, removed)]).map Prod.fst ++ earlier)
          a'.reading.checkedAt).card : ℤ) < maxsize := by
      intro earlier a' after heq
      have hnext := hroom (a :: earlier) a' after (by rw [heq, List.cons_append])
      rwa [List.map_append, List.append_assoc]
    have hrest := ih hpassed (hwindow'.trans hwindow) (hmaxsize'.trans hmaxsize) hstamped hroom'
      (Repeats.along_concat.mpr ⟨hswept, hmark⟩)
    rw [hmarks]
    rw [List.append_assoc] at hrest
    cases removed with
    | true =>
      obtain ⟨swept, now', hsweep, hunique, hfst, hall⟩ := hrest uniqueItems (dedupCount + 1)
      refine ⟨swept, now', ?_, hunique, congrArg (a :: ·) hfst, hall⟩
      rw [Deduplication.sweep, hvisit]
      exact hsweep
    | false =>
      obtain ⟨swept, now', hsweep, hunique, hfst, hall⟩ :=
        hrest (uniqueItems ++ [a.item]) dedupCount
      refine ⟨swept, now', ?_, ?_, congrArg (a :: ·) hfst, hall⟩
      · rw [Deduplication.sweep, hvisit]
        exact hsweep
      · rw [hunique, List.append_assoc]
        rfl

end Run

/-! ## Batches -/

/-- A batch, with what the clock reads while it passes. -/
structure TimedBatch where
  context : BatchPipelineContext
  clock : ℕ → Reading
  cleanedAt : ℚ

namespace TimedBatch

variable (batch : TimedBatch)

def arrivals : List Arrival :=
  if batch.context.deduplicate then arrivalsFrom batch.clock 0 batch.context.batchItems else []

def readings : List ℚ :=
  readingsOf batch.arrivals ++ if batch.arrivals = [] then [] else [batch.cleanedAt]

end TimedBatch

structure Passed where
  batch : TimedBatch
  result : Except BatchDeduplicationException BatchPipelineContext
  marks : List (Arrival × Bool)

def Passed.HandsOn (p : Passed) : Prop :=
  ∃ context, p.result = .ok context ∧ context.batchItems =
    if p.batch.context.deduplicate then (passedOf p.marks).map Arrival.item
    else p.batch.context.batchItems

theorem arrivalsFrom_eq_nil {clock : ℕ → Reading} {index : ℕ} {items : List BatchRequestItem} :
    arrivalsFrom clock index items = [] ↔ items = [] := by
  rcases items with _ | ⟨item, rest⟩
  · exact iff_of_true rfl rfl
  · exact iff_of_false (List.cons_ne_nil _ _) (List.cons_ne_nil _ _)

section Batches

variable [PrintTable] (digest : String → String)

def Deduplication.new (failClosed : Bool) (dedupWindowSec maxCacheSize : ℤ) : Deduplication where
  failClosed := failClosed
  dedupWindowSec := dedupWindowSec
  cache := { maxsize := maxCacheSize }

def Deduplication.passes (mw : Deduplication) : List TimedBatch → List Passed
  | [] => []
  | batch :: rest =>
    ⟨batch, (mw.process digest batch.clock batch.cleanedAt batch.context).1,
        mw.marks digest batch.arrivals⟩ ::
      passes (mw.process digest batch.clock batch.cleanedAt batch.context).2 rest

/-- **True repeats.**  Every batch hands on what is not removed, and an item is removed exactly when
an earlier one within the window agrees with it. -/
structure DropsOnlyRepeats (mw : Deduplication) (batches : List TimedBatch) : Prop where
  handsOn : ∀ p ∈ mw.passes digest batches, p.HandsOn
  right : Repeats.Right (IsRepeat mw.dedupWindowSec)
    ((mw.passes digest batches).flatMap Passed.marks)

variable {digest}

variable (digest) in
theorem process_of_idle {batch : TimedBatch} (h : batch.arrivals = []) (mw : Deduplication) :
    mw.process digest batch.clock batch.cleanedAt batch.context = (.ok batch.context, mw) ∧
      (batch.context.deduplicate = true → batch.context.batchItems = []) := by
  rw [Deduplication.process]
  by_cases hdedup : batch.context.deduplicate = true
  · rw [TimedBatch.arrivals, if_pos hdedup, arrivalsFrom_eq_nil] at h
    rw [if_neg (not_not_intro hdedup), if_pos h]
    exact ⟨rfl, fun _ => h⟩
  · rw [if_pos hdedup]
    exact ⟨rfl, fun h => absurd h hdedup⟩

/-- **One batch.** -/
theorem Window.process (hdigest : Function.Injective digest) {window maxsize : ℤ}
    (batch : TimedBatch) {marks : List (Arrival × Bool)} {now : ℚ} {mw : Deduplication}
    {later : List ℚ} (h : Window digest (passedOf marks) now mw)
    (hwindow : mw.dedupWindowSec = window) (hmaxsize : mw.cache.maxsize = maxsize)
    (htimely : Timely (now :: (batch.readings ++ later)))
    (hroom : ∀ earlier a after, batch.arrivals = earlier ++ a :: after →
      ((liveTexts window (marks.map Prod.fst ++ earlier) a.reading.checkedAt).card : ℤ) < maxsize)
    (hswept : Repeats.Swept (Covers window) marks) :
    ∃ context mw' now',
      mw.process digest batch.clock batch.cleanedAt batch.context = (.ok context, mw') ∧
      context.batchItems = (if batch.context.deduplicate then
        (passedOf (mw.marks digest batch.arrivals)).map Arrival.item
        else batch.context.batchItems) ∧
      (mw.marks digest batch.arrivals).map Prod.fst = batch.arrivals ∧
      Repeats.Swept (Covers window) (marks ++ mw.marks digest batch.arrivals) ∧
      Window digest (passedOf (marks ++ mw.marks digest batch.arrivals)) now' mw' ∧
      mw'.dedupWindowSec = window ∧ mw'.cache.maxsize = maxsize ∧ Timely (now' :: later) := by
  rw [TimedBatch.readings, List.append_assoc] at htimely
  by_cases hidle : batch.arrivals = []
  · obtain ⟨hprocess, hitems⟩ := process_of_idle digest hidle mw
    rw [hidle] at htimely ⊢
    refine ⟨_, _, now, hprocess, ?_, rfl, ?_, ?_, hwindow, hmaxsize, htimely⟩
    · split
      · rename_i hdedup
        exact hitems hdedup
      · rfl
    · rwa [Deduplication.marks, List.append_nil]
    · rwa [Deduplication.marks, List.append_nil]
  · rw [if_neg hidle] at htimely
    obtain ⟨swept, now', hsweep, hunique, hfst, hswept', hpassed, hwindow', hmaxsize', htimely'⟩ :=
      h.sweep hdigest batch.arrivals hwindow hmaxsize htimely hroom hswept [] 0
    obtain ⟨hle, hlater⟩ := htimely'.tail
    have hdedup : batch.context.deduplicate = true := by
      by_contra hoff
      exact hidle (if_neg hoff)
    have harrivals : batch.arrivals = arrivalsFrom batch.clock 0 batch.context.batchItems :=
      if_pos hdedup
    have hitems : batch.context.batchItems ≠ [] :=
      fun hnil => hidle (harrivals.trans (arrivalsFrom_eq_nil.mpr hnil))
    rw [List.nil_append] at hunique
    have hprocess : ∃ context,
        mw.process digest batch.clock batch.cleanedAt batch.context =
          (.ok context, swept.middleware.cleanOldTimestamps batch.cleanedAt) ∧
        context.batchItems = swept.uniqueItems := by
      rw [Deduplication.process, if_neg (not_not_intro hdedup), if_neg hitems, ← harrivals, hsweep]
      exact ⟨_, rfl, rfl⟩
    obtain ⟨context, hprocess, hhanded⟩ := hprocess
    refine ⟨context, _, batch.cleanedAt, hprocess, ?_, hfst, hswept', (hpassed.later hle).clean,
      hwindow', hmaxsize', hlater⟩
    rw [if_pos hdedup, hhanded, hunique]

/-- **The batches.** -/
theorem Window.passes (hdigest : Function.Injective digest) {window maxsize : ℤ}
    (batches : List TimedBatch) {marks : List (Arrival × Bool)} {now : ℚ} {mw : Deduplication}
    (h : Window digest (passedOf marks) now mw) (hwindow : mw.dedupWindowSec = window)
    (hmaxsize : mw.cache.maxsize = maxsize)
    (htimely : Timely (now :: batches.flatMap TimedBatch.readings))
    (hroom : ∀ earlier a after, batches.flatMap TimedBatch.arrivals = earlier ++ a :: after →
      ((liveTexts window (marks.map Prod.fst ++ earlier) a.reading.checkedAt).card : ℤ) < maxsize)
    (hswept : Repeats.Swept (Covers window) marks) :
    (∀ p ∈ mw.passes digest batches, p.HandsOn) ∧
      ((mw.passes digest batches).flatMap Passed.marks).map Prod.fst =
        batches.flatMap TimedBatch.arrivals ∧
      Repeats.Swept (Covers window)
        (marks ++ (mw.passes digest batches).flatMap Passed.marks) := by
  induction batches generalizing marks now mw with
  | nil =>
    refine ⟨fun p hp => absurd hp List.not_mem_nil, rfl, ?_⟩
    rwa [Deduplication.passes, List.flatMap_nil, List.append_nil]
  | cons batch rest ih =>
    obtain ⟨context, mw', now', hprocess, hitems, hfst, hswept', hpassed, hwindow', hmaxsize',
      htimely'⟩ := h.process hdigest batch hwindow hmaxsize htimely
        (fun earlier a after heq => hroom earlier a (after ++ rest.flatMap TimedBatch.arrivals)
          (by rw [List.flatMap_cons, heq, List.append_assoc, List.cons_append])) hswept
    have hroom' : ∀ earlier a after, rest.flatMap TimedBatch.arrivals = earlier ++ a :: after →
        ((liveTexts window ((marks ++ mw.marks digest batch.arrivals).map Prod.fst ++ earlier)
          a.reading.checkedAt).card : ℤ) < maxsize := by
      intro earlier a after heq
      rw [List.map_append, hfst, List.append_assoc]
      exact hroom (batch.arrivals ++ earlier) a after
        (by rw [List.flatMap_cons, heq, List.append_assoc])
    obtain ⟨hhands, hrest, hsweptAll⟩ := ih hpassed hwindow' hmaxsize' htimely' hroom' hswept'
    rw [Deduplication.passes, hprocess]
    refine ⟨List.forall_mem_cons.mpr ⟨⟨context, rfl, hitems⟩, hhands⟩, ?_, ?_⟩
    · rw [List.flatMap_cons, List.map_append, hfst, hrest, List.flatMap_cons]
    · rwa [List.flatMap_cons, ← List.append_assoc]

theorem window_new (digest : String → String) (failClosed : Bool)
    (dedupWindowSec maxCacheSize : ℤ) :
    Window digest (passedOf []) 0 (.new failClosed dedupWindowSec maxCacheSize) where
  stamped := fun _ _ h => absurd h (by simp [Deduplication.new])
  cached := fun _ h => absurd h List.not_mem_nil
  live := fun _ h => absurd h List.not_mem_nil
  recent := .nil
  past := fun _ h => absurd h List.not_mem_nil

theorem passes_swept (hdigest : Function.Injective digest) (failClosed : Bool)
    {dedupWindowSec maxCacheSize : ℤ} {batches : List TimedBatch}
    (htimely : Timely (batches.flatMap TimedBatch.readings))
    (hroom : Roomy dedupWindowSec maxCacheSize (batches.flatMap TimedBatch.arrivals))
    (marks : List (Arrival × Bool))
    (hmarks : marks = ((Deduplication.new failClosed dedupWindowSec maxCacheSize).passes digest
      batches).flatMap Passed.marks) :
    (∀ p ∈ (Deduplication.new failClosed dedupWindowSec maxCacheSize).passes digest batches,
      p.HandsOn) ∧
      marks.map Prod.fst = batches.flatMap TimedBatch.arrivals ∧
      Repeats.Swept (Covers dedupWindowSec) marks := by
  have htimely' : Timely (0 :: batches.flatMap TimedBatch.readings) := by
    refine List.pairwise_cons.mpr ⟨fun t ht => ?_, htimely⟩
    rcases List.mem_cons.mp ht with rfl | ht
    · exact le_rfl
    · exact List.rel_of_pairwise_cons htimely ht
  obtain ⟨hhands, hfst, hswept⟩ := Window.passes hdigest batches
    (window_new digest failClosed dedupWindowSec maxCacheSize) rfl rfl htimely' hroom
    (Repeats.along_nil _)
  rw [List.nil_append] at hswept
  subst hmarks
  exact ⟨hhands, hfst, hswept⟩

/-- **Which duplicates are true repeats.**  Of items that repeat nothing, no two within one window
may have the same text, and what repeats something must still be within the window of an item that
repeats nothing. -/
theorem dropsOnlyRepeats_iff (digest : String → String) (hdigest : Function.Injective digest)
    (failClosed : Bool) (dedupWindowSec maxCacheSize : ℤ) (batches : List TimedBatch)
    (htimely : Timely (batches.flatMap TimedBatch.readings))
    (hroom : Roomy dedupWindowSec maxCacheSize (batches.flatMap TimedBatch.arrivals)) :
    DropsOnlyRepeats digest (.new failClosed dedupWindowSec maxCacheSize) batches ↔
      Repeats.Faithful (Covers dedupWindowSec) (IsRepeat dedupWindowSec)
        (batches.flatMap TimedBatch.arrivals) := by
  obtain ⟨hhands, hfst, hswept⟩ := passes_swept hdigest failClosed htimely hroom _ rfl
  constructor
  · intro h
    exact hfst ▸ hswept.right_iff.mp h.right
  · intro h
    exact ⟨hhands, hswept.right_iff.mpr (hfst ▸ h)⟩

omit [PrintTable] in
theorem roomy_of_length_le [PrintTable] {window maxsize : ℤ} {arrivals : List Arrival}
    (h : (arrivals.length : ℤ) ≤ maxsize) : Roomy window maxsize arrivals := by
  rintro earlier a after rfl
  have hcard : (liveTexts window earlier a.reading.checkedAt).card ≤ earlier.length := by
    calc (liveTexts window earlier a.reading.checkedAt).card
        ≤ ((earlier.filter _).map _).length := List.toFinset_card_le _
      _ ≤ earlier.length := by
          rw [List.length_map]
          exact List.length_filter_le _ _
  rw [List.length_append, List.length_cons] at h
  omega

end Batches

/-! ## Two items that differ in their receiver -/

@[reducible] def asciiPrinted : PrintTable := ⟨fun _ => false⟩

/-- `{"action": "read"}`, from one agent to another. -/
def readRequest (fromAgent toAgent : String) : BatchRequestItem where
  requestId := "request"
  content := [("action", .str "read")]
  fromAgent := fromAgent
  toAgent := toAgent
  priority_ge := BatchRequestItem.default_priority_ge
  priority_le := BatchRequestItem.default_priority_le

/-- A batch of two items, one a second after the other. -/
def twoRequests (item item' : BatchRequestItem) : TimedBatch where
  context := { batchItems := [item, item'] }
  clock := fun i => ⟨100 + i, 100 + i⟩
  cleanedAt := 102

theorem twoRequests_timely (item item' : BatchRequestItem) :
    Timely ([twoRequests item item'].flatMap TimedBatch.readings) := by
  have hreadings : [twoRequests item item'].flatMap TimedBatch.readings =
      [100 + ((0 : ℕ) : ℚ), 100 + ((0 : ℕ) : ℚ), 100 + ((1 : ℕ) : ℚ), 100 + ((1 : ℕ) : ℚ),
        102] := rfl
  rw [hreadings, Timely]
  decide +kernel

theorem twoRequests_roomy (item item' : BatchRequestItem) :
    @Roomy asciiPrinted 300 10000 ([twoRequests item item'].flatMap TimedBatch.arrivals) :=
  @roomy_of_length_le asciiPrinted 300 10000 _ (show ((2 : ℕ) : ℤ) ≤ 10000 by decide)

theorem pair_split {α : Type} {x y a : α} {earlier after : List α}
    (h : [x, y] = earlier ++ a :: after) : earlier = [] ∧ a = x ∨ earlier = [x] ∧ a = y := by
  rcases earlier with _ | ⟨z, rest⟩
  · exact .inl ⟨rfl, (List.cons.inj h).1.symm⟩
  · obtain ⟨rfl, htail⟩ := List.cons.inj h
    rcases rest with _ | ⟨w, rest⟩
    · exact .inr ⟨rfl, (List.cons.inj htail).1.symm⟩
    · exact absurd (List.cons.inj htail).2 (by simp)

/-- Requests of two agents are told apart. -/
theorem dropsOnlyRepeats_two_senders :
    @DropsOnlyRepeats asciiPrinted id (.new true 300 10000)
      [twoRequests (readRequest "gateway" "alice") (readRequest "portal" "alice")] := by
  refine (@dropsOnlyRepeats_iff asciiPrinted id Function.injective_id true 300 10000 _
    (twoRequests_timely _ _) (twoRequests_roomy _ _)).mpr
      ⟨fun before b between a after heq _ _ hcovers => ?_, fun earlier a after heq hrepeats => ?_⟩
  · have hne : @contentStr asciiPrinted (readRequest "gateway" "alice") ≠
        @contentStr asciiPrinted (readRequest "portal" "alice") := by decide +kernel
    rcases pair_split heq with ⟨hnil, -⟩ | ⟨hone, rfl⟩
    · exact absurd hnil (by simp)
    · rcases before with _ | ⟨x, before⟩
      · obtain ⟨rfl, -⟩ := List.cons.inj hone
        exact hne hcovers.1
      · exact absurd (List.cons.inj hone).2 (by simp)
  · rcases pair_split heq with ⟨rfl, -⟩ | ⟨rfl, rfl⟩
    · exact absurd (fun b hb => absurd hb List.not_mem_nil) hrepeats
    · refine absurd (fun b hb hrepeat => ?_) hrepeats
      obtain rfl := List.mem_singleton.mp hb
      exact absurd hrepeat.1.fromAgent (by decide)

/-- The second of two requests that differ in their receiver is removed. -/
theorem not_dropsOnlyRepeats :
    Function.Injective (id : String → String) ∧
      Timely ([twoRequests (readRequest "gateway" "alice")
        (readRequest "gateway" "bob")].flatMap TimedBatch.readings) ∧
      @Roomy asciiPrinted 300 10000 ([twoRequests (readRequest "gateway" "alice")
        (readRequest "gateway" "bob")].flatMap TimedBatch.arrivals) ∧
      ¬@DropsOnlyRepeats asciiPrinted id (.new true 300 10000)
        [twoRequests (readRequest "gateway" "alice") (readRequest "gateway" "bob")] := by
  refine ⟨Function.injective_id, twoRequests_timely _ _, twoRequests_roomy _ _, fun h => ?_⟩
  obtain ⟨-, hfst, hswept⟩ := @passes_swept asciiPrinted id Function.injective_id true 300 10000 _
    (twoRequests_timely _ _) (twoRequests_roomy _ _) _ rfl
  have hright := @DropsOnlyRepeats.right asciiPrinted _ _ _ h
  have hfaithful := hswept.faithful hright
  rw [hfst] at hfaithful
  refine hfaithful.apart []
    ⟨readRequest "gateway" "alice", ⟨100 + ((0 : ℕ) : ℚ), 100 + ((0 : ℕ) : ℚ)⟩⟩ []
    ⟨readRequest "gateway" "bob", ⟨100 + ((1 : ℕ) : ℚ), 100 + ((1 : ℕ) : ℚ)⟩⟩ [] rfl
    (fun b hb => absurd hb List.not_mem_nil) (fun b hb hrepeat => ?_) ⟨rfl, ?_⟩
  · obtain rfl := List.mem_singleton.mp hb
    exact absurd hrepeat.1.toAgent (by decide)
  · show (100 + ((1 : ℕ) : ℚ)) - (100 + ((0 : ℕ) : ℚ)) ≤ ((300 : ℤ) : ℚ)
    norm_num

end EnhancedAgentBus.Batch
