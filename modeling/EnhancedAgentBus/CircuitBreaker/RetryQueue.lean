import EnhancedAgentBus.Lib.Dict
import Mathlib.Algebra.BigOperators.Intervals

/-!
# The retry queue of a circuit breaker

`process_retry_queue` takes requests off the queue that it appends failed ones to, and while the
handler is awaited `queue_for_retry` may fill that queue.  `awaits n` is what the `n`-th call of the
handler comes to, with the requests that are to be queued meanwhile.

A request that fails is dropped if the queue is full by then, as the code says.  But for that,
nothing is lost (`Settled`), and the queue drains (`processRetryQueue_settles`).

The ghosts are the requests that were accepted, each with a ticket (its place among them), and a log
of the turns that the requests had.  `args` stands for `args` and `kwargs`; the metrics and the time
of queueing are left out.
-/

namespace EnhancedAgentBus.CircuitBreaker

universe u

variable {α : Type u}

structure QueuedRequest (α : Type u) where
  id : String
  args : α
  retryCount : ℕ := 0
  maxRetries : ℕ := 3

/-- What comes of a request that is taken off the queue. -/
inductive Turn where
  | exhausted
  | succeeded
  /-- the call of the handler fails, with or without room in the queue -/
  | failed (room : Bool)
  deriving DecidableEq

structure LogEntry where
  ticket : ℕ
  id : String
  turn : Turn

structure RetryQueue (α : Type u) where
  queue : List (QueuedRequest α × ℕ)
  results : Dict String Bool := Dict.empty
  /-- how often the handler has been called -/
  calls : ℕ := 0
  accepted : List (QueuedRequest α)
  log : List LogEntry := []

namespace RetryQueue

/-! ## The code -/

section Code

variable (fallbackMaxQueueSize : ℕ)

def queueForRetry (q : RetryQueue α) (requestId : String) (args : α) : Bool × RetryQueue α :=
  if fallbackMaxQueueSize ≤ q.queue.length then (false, q)
  else
    (true,
      { q with
        queue := q.queue ++ [({ id := requestId, args := args }, q.accepted.length)]
        accepted := q.accepted ++ [{ id := requestId, args := args }] })

/-- `results[request.id] = …` -/
def report (q : RetryQueue α) (request : QueuedRequest α) (ticket : ℕ) (turn : Turn) :
    RetryQueue α :=
  { q with
    results := q.results.set request.id (decide (turn = .succeeded))
    log := q.log ++ [⟨ticket, request.id, turn⟩] }

def requeue (q : RetryQueue α) (request : QueuedRequest α) (ticket : ℕ) : RetryQueue α :=
  { q with queue := q.queue ++ [({ request with retryCount := request.retryCount + 1 }, ticket)] }

variable (awaits : ℕ → Bool × List (String × α))

/-- The handler is awaited. -/
def await (q : RetryQueue α) : RetryQueue α :=
  (awaits q.calls).2.foldl (fun q a => (q.queueForRetry fallbackMaxQueueSize a.1 a.2).2)
    { q with calls := q.calls + 1 }

/-- The turn of a request that has been taken off the queue. -/
def serve (q : RetryQueue α) (request : QueuedRequest α) (ticket : ℕ) : RetryQueue α :=
  if request.maxRetries ≤ request.retryCount then q.report request ticket .exhausted
  else
    let q' := q.await fallbackMaxQueueSize awaits
    if (awaits q.calls).1 then q'.report request ticket .succeeded
    else if request.retryCount + 1 < request.maxRetries then
      if q'.queue.length < fallbackMaxQueueSize then
        (q'.requeue request ticket).report request ticket (.failed true)
      else q'.report request ticket (.failed false)
    else q'.report request ticket (.failed (q'.queue.length < fallbackMaxQueueSize))

/-- `process_retry_queue`, of which the result is `results`; `none` if the fuel does not suffice. -/
def processRetryQueue : ℕ → RetryQueue α → Option (RetryQueue α)
  | 0, _ => none
  | fuel + 1, q =>
    match q.queue with
    | [] => some q
    | (request, ticket) :: rest =>
      processRetryQueue fuel
        ({ q with queue := rest }.serve fallbackMaxQueueSize awaits request ticket)

/-- A call finds these requests in the queue. -/
def start (requests : List (QueuedRequest α)) : RetryQueue α where
  queue := requests.zipIdx
  accepted := requests

end Code

/-! ## What the log says -/

/-- The turns that a request has had. -/
def turnsOf (q : RetryQueue α) (ticket : ℕ) : List Turn :=
  (q.log.filter (·.ticket = ticket)).map (·.turn)

/-- The latest turn of a request with this id. -/
def latest (q : RetryQueue α) (id : String) : Option Turn :=
  ((q.log.filter (·.id = id)).map (·.turn)).getLast?

/-- The turns of a request that is done with: failures, and then one of four endings. -/
inductive Settled (r : QueuedRequest α) : List Turn → Prop
  | succeeded {j : ℕ} (h : r.retryCount + j < r.maxRetries) :
    Settled r (List.replicate j (.failed true) ++ [.succeeded])
  | failed {j : ℕ} {room : Bool} (h : r.retryCount + j + 1 = r.maxRetries) :
    Settled r (List.replicate j (.failed true) ++ [.failed room])
  | exhausted (h : r.maxRetries ≤ r.retryCount) : Settled r [.exhausted]
  | dropped {j : ℕ} (h : r.retryCount + j + 1 < r.maxRetries) :
    Settled r (List.replicate j (.failed true) ++ [.failed false])

/-- A request that has failed so many times. -/
structure Waits (r : QueuedRequest α) (j : ℕ) (r' : QueuedRequest α) : Prop where
  eq : r' = { r with retryCount := r.retryCount + j }
  left : 0 < j → r.retryCount + j < r.maxRetries

/-- What holds throughout, of the queue and the request whose turn it is. -/
structure Kept (held : List (QueuedRequest α × ℕ)) (q : RetryQueue α) : Prop where
  tickets : ((held ++ q.queue).map Prod.snd).Nodup
  waiting : ∀ r' t, (r', t) ∈ held ++ q.queue → ∃ r j, q.accepted[t]? = some r ∧ Waits r j r' ∧
    q.turnsOf t = List.replicate j (.failed true)
  settled : ∀ t r, q.accepted[t]? = some r → t ∉ (held ++ q.queue).map Prod.snd →
    Settled r (q.turnsOf t)
  logged : ∀ e ∈ q.log, ∃ r, q.accepted[e.ticket]? = some r ∧ r.id = e.id
  results : ∀ id, q.results.get id = (q.latest id).map fun turn => decide (turn = .succeeded)

section Kept

variable {held : List (QueuedRequest α × ℕ)} {q : RetryQueue α} {request : QueuedRequest α}
  {ticket : ℕ} {turn : Turn}

theorem turnsOf_report (q : RetryQueue α) (request : QueuedRequest α) (ticket : ℕ) (turn : Turn)
    (t : ℕ) : (q.report request ticket turn).turnsOf t =
      q.turnsOf t ++ if ticket = t then [turn] else [] := by
  simp only [turnsOf, report, List.filter_append, List.map_append]
  split <;> simp [*]

theorem latest_report (q : RetryQueue α) (request : QueuedRequest α) (ticket : ℕ) (turn : Turn)
    (id : String) : (q.report request ticket turn).latest id =
      if id = request.id then some turn else q.latest id := by
  simp only [latest, report, List.filter_append, List.map_append]
  by_cases hid : id = request.id
  · rw [if_pos hid, List.filter_cons_of_pos (by simp [hid]), List.filter_nil, List.map_singleton,
      List.getLast?_concat]
  · rw [if_neg hid, List.filter_cons_of_neg (by simpa using Ne.symm hid), List.filter_nil,
      List.map_nil, List.append_nil]

theorem Kept.lt (h : Kept held q) {t : ℕ} (ht : t ∈ (held ++ q.queue).map Prod.snd) :
    t < q.accepted.length := by
  obtain ⟨⟨r', t⟩, hmem, rfl⟩ := List.mem_map.mp ht
  obtain ⟨r, j, haccepted, -⟩ := h.waiting r' t hmem
  exact (List.getElem?_eq_some_iff.mp haccepted).1

/-- The request whose turn it is has had it, and is done with or waits again. -/
theorem Kept.report (h : Kept [(request, ticket)] q) (again : List (QueuedRequest α × ℕ))
    (hagain : ∀ r j, Waits r j request →
      again = [] ∧ Settled r (List.replicate j (.failed true) ++ [turn]) ∨
        ∃ r', again = [(r', ticket)] ∧ turn = .failed true ∧ Waits r (j + 1) r') :
    Kept [] ({ q with queue := q.queue ++ again }.report request ticket turn) := by
  obtain ⟨r, j, haccepted, hwaits, hturns⟩ := h.waiting request ticket List.mem_cons_self
  have hnodup : ticket ∉ q.queue.map Prod.snd ∧ (q.queue.map Prod.snd).Nodup :=
    List.nodup_cons.mp h.tickets
  have hfate := hagain r j hwaits
  have hreported (t : ℕ) (ht : t ≠ ticket) :
      ({ q with queue := q.queue ++ again }.report request ticket turn).turnsOf t =
        q.turnsOf t := by
    rw [turnsOf_report, if_neg ht.symm, List.append_nil]
    rfl
  have hnow : ({ q with queue := q.queue ++ again }.report request ticket turn).turnsOf ticket =
      List.replicate j (.failed true) ++ [turn] := by
    rw [turnsOf_report, if_pos rfl, ← hturns]
    rfl
  refine ⟨?_, ?_, ?_, ?_, ?_⟩
  · show ((q.queue ++ again).map Prod.snd).Nodup
    rcases hfate with ⟨rfl, -⟩ | ⟨r', rfl, -⟩
    · rw [List.append_nil]
      exact hnodup.2
    · rw [List.map_append, List.map_singleton, List.nodup_append_comm]
      exact List.nodup_cons.mpr hnodup
  · intro r' t ht
    rcases List.mem_append.mp (show (r', t) ∈ q.queue ++ again from ht) with hold | hnew
    · have hne : t ≠ ticket := fun heq => hnodup.1 (heq ▸ List.mem_map_of_mem hold)
      rw [hreported t hne]
      exact h.waiting r' t (List.mem_cons_of_mem _ hold)
    · rcases hfate with ⟨rfl, -⟩ | ⟨r'', rfl, hturn, hwaits'⟩
      · exact absurd hnew List.not_mem_nil
      · cases List.mem_singleton.mp hnew
        refine ⟨r, j + 1, haccepted, hwaits', ?_⟩
        rw [hnow, hturn, List.replicate_succ']
  · intro t r' ht hgone
    replace hgone : t ∉ (q.queue ++ again).map Prod.snd := hgone
    rw [List.map_append, List.mem_append, not_or] at hgone
    by_cases hne : t = ticket
    · subst hne
      cases haccepted.symm.trans ht
      rcases hfate with ⟨-, hsettled⟩ | ⟨r'', rfl, -⟩
      · rwa [hnow]
      · exact absurd (List.mem_singleton_self t) hgone.2
    · rw [hreported t hne]
      exact h.settled t r' ht fun hmem => (List.mem_cons.mp hmem).elim hne hgone.1
  · intro e he
    rcases List.mem_append.mp (show e ∈ q.log ++ [⟨ticket, request.id, turn⟩] from he) with
      hold | hnew
    · exact h.logged e hold
    · rw [List.mem_singleton.mp hnew]
      exact ⟨r, haccepted, by rw [hwaits.eq]⟩
  · intro id
    rw [latest_report]
    show (q.results.set request.id _).get id = _
    rw [Dict.get_set]
    split
    · rfl
    · exact h.results id

theorem Kept.queueForRetry (h : Kept held q) (size : ℕ) (requestId : String) (args : α) :
    Kept held (q.queueForRetry size requestId args).2 := by
  rw [RetryQueue.queueForRetry]
  split
  · exact h
  · have hnew : q.turnsOf q.accepted.length = [] := by
      rw [turnsOf, List.map_eq_nil_iff, List.filter_eq_nil_iff]
      intro e he
      obtain ⟨r, haccepted, -⟩ := h.logged e he
      have hlt := (List.getElem?_eq_some_iff.mp haccepted).1
      simpa using hlt.ne
    have hold {t : ℕ} {r : QueuedRequest α} (ht : q.accepted[t]? = some r) :
        (q.accepted ++ [{ id := requestId, args := args }])[t]? = some r := by
      rwa [List.getElem?_append_left (List.getElem?_eq_some_iff.mp ht).1]
    refine ⟨?_, ?_, ?_, fun e he => ?_, h.results⟩
    · rw [← List.append_assoc, List.map_append, List.map_singleton, List.nodup_append_comm]
      exact List.nodup_cons.mpr ⟨fun hmem => (h.lt hmem).ne rfl, h.tickets⟩
    · intro r' t ht
      rw [← List.append_assoc, List.mem_append, List.mem_singleton] at ht
      rcases ht with hmem | heq
      · obtain ⟨r, j, haccepted, hwaits⟩ := h.waiting r' t hmem
        exact ⟨r, j, hold haccepted, hwaits⟩
      · cases heq
        exact ⟨_, 0, List.getElem?_concat_length, ⟨rfl, fun h => absurd h (Nat.lt_irrefl 0)⟩, hnew⟩
    · intro t r ht hgone
      rw [← List.append_assoc, List.map_append, List.mem_append, not_or] at hgone
      have hne : t ≠ q.accepted.length := fun heq => hgone.2 (heq ▸ List.mem_singleton_self _)
      have hlt := (List.getElem?_eq_some_iff.mp ht).1
      simp only [List.length_append, List.length_singleton] at hlt
      rw [List.getElem?_append_left (by omega)] at ht
      exact h.settled t r ht hgone.1
    · obtain ⟨r, haccepted, hid⟩ := h.logged e he
      exact ⟨r, hold haccepted, hid⟩

variable {size : ℕ} {awaits : ℕ → Bool × List (String × α)}

theorem Kept.await (h : Kept held q) : Kept held (q.await size awaits) := by
  have hcalled : Kept held { q with calls := q.calls + 1 } :=
    ⟨h.tickets, h.waiting, h.settled, h.logged, h.results⟩
  rw [RetryQueue.await]
  generalize (awaits q.calls).2 = arrivals
  generalize { q with calls := q.calls + 1 } = q' at hcalled
  induction arrivals generalizing q' with
  | nil => exact hcalled
  | cons a arrivals ih => exact ih _ (hcalled.queueForRetry size a.1 a.2)

/-- **A turn** -/
theorem Kept.serve (h : Kept [(request, ticket)] q) :
    Kept [] (q.serve size awaits request ticket) := by
  have hdone {q : RetryQueue α} {turn : Turn} (h : Kept [(request, ticket)] q)
      (hsettled : ∀ r j, Waits r j request →
        Settled r (List.replicate j (.failed true) ++ [turn])) :
      Kept [] (q.report request ticket turn) := by
    have hreport := h.report [] fun r j hwaits => .inl ⟨rfl, hsettled r j hwaits⟩
    rwa [List.append_nil] at hreport
  rw [RetryQueue.serve]
  split
  · rename_i hspent
    refine hdone h fun r j hwaits => ?_
    have heq := hwaits.eq
    subst heq
    rcases j with _ | j
    · exact .exhausted hspent
    · exact absurd (hwaits.left (Nat.succ_pos j)) (Nat.not_lt.mpr hspent)
  · rename_i hleft
    dsimp only
    split
    · refine hdone h.await fun r j hwaits => .succeeded ?_
      rw [hwaits.eq] at hleft
      exact Nat.lt_of_not_le hleft
    · split
      · rename_i hagain
        split
        · refine h.await.report _ fun r j hwaits => .inr ⟨_, rfl, rfl, ?_, fun _ => ?_⟩
          · rw [hwaits.eq, Nat.add_assoc]
          · rw [hwaits.eq] at hagain
            exact hagain
        · refine hdone h.await fun r j hwaits => .dropped ?_
          rw [hwaits.eq] at hagain
          exact hagain
      · rename_i hlast
        refine hdone h.await fun r j hwaits => .failed ?_
        rw [hwaits.eq] at hleft hlast
        dsimp only at hleft hlast
        omega

end Kept

/-! ## The queue drains -/

section Drain

variable {N : ℕ} {awaits : ℕ → Bool × List (String × α)} {q : RetryQueue α}

/-- The turns that a request may still have. -/
def turnsLeft (request : QueuedRequest α) : ℕ := request.maxRetries - request.retryCount + 1

/-- The turns of the requests in the queue, and of those still to come. -/
def left (awaits : ℕ → Bool × List (String × α)) (N : ℕ) (q : RetryQueue α) : ℕ :=
  (q.queue.map fun e => turnsLeft e.1).sum + ∑ n ∈ Finset.Ico q.calls N, 4 * (awaits n).2.length

theorem left_foldl (size : ℕ) (arrivals : List (String × α)) (q : RetryQueue α) :
    (arrivals.foldl (fun q a => (q.queueForRetry size a.1 a.2).2) q).left awaits N ≤
      q.left awaits N + 4 * arrivals.length := by
  induction arrivals generalizing q with
  | nil => exact Nat.le_refl _
  | cons a arrivals ih =>
    have hone : (q.queueForRetry size a.1 a.2).2.left awaits N ≤ q.left awaits N + 4 := by
      rw [queueForRetry]
      split
      · exact Nat.le_add_right _ _
      · simp only [left, List.map_append, List.sum_append, List.map_singleton, List.sum_singleton,
          turnsLeft]
        omega
    rw [List.foldl_cons, List.length_cons]
    have := ih (q.queueForRetry size a.1 a.2).2
    omega

theorem left_await (size : ℕ) (hN : ∀ n, N ≤ n → (awaits n).2 = []) (q : RetryQueue α) :
    (q.await size awaits).left awaits N ≤ q.left awaits N := by
  have hcalls : ({ q with calls := q.calls + 1 } : RetryQueue α).left awaits N +
      4 * (awaits q.calls).2.length = q.left awaits N := by
    simp only [left]
    rcases Nat.lt_or_ge q.calls N with hlt | hge
    · rw [Finset.sum_eq_sum_Ico_succ_bot hlt]
      omega
    · rw [hN q.calls hge, Finset.Ico_eq_empty (by omega), Finset.Ico_eq_empty (by omega)]
      rfl
  rw [← hcalls]
  exact left_foldl size _ _

theorem left_serve (size : ℕ) (hN : ∀ n, N ≤ n → (awaits n).2 = []) (q : RetryQueue α)
    (request : QueuedRequest α) (ticket : ℕ) :
    (q.serve size awaits request ticket).left awaits N < q.left awaits N + turnsLeft request := by
  have hawait := left_await size hN q
  have hpos : 0 < turnsLeft request := Nat.succ_pos _
  have hreport (q : RetryQueue α) (turn : Turn) :
      (q.report request ticket turn).left awaits N = q.left awaits N := rfl
  rw [serve]
  split
  · rw [hreport]
    omega
  · dsimp only
    split
    · rw [hreport]
      omega
    · split
      · rename_i hagain
        split
        · rw [hreport]
          simp only [left, requeue, List.map_append, List.sum_append, List.map_singleton,
            List.sum_singleton, turnsLeft] at hawait ⊢
          omega
        · rw [hreport]
          omega
      · rw [hreport]
        omega

theorem Kept.processRetryQueue (h : Kept [] q) (size : ℕ) (hN : ∀ n, N ≤ n → (awaits n).2 = [])
    {fuel : ℕ} (hfuel : q.left awaits N < fuel) :
    ∃ q', q.processRetryQueue size awaits fuel = some q' ∧ q'.queue = [] ∧ Kept [] q' := by
  induction fuel generalizing q with
  | zero => exact absurd hfuel (Nat.not_lt_zero _)
  | succ fuel ih =>
    rw [RetryQueue.processRetryQueue]
    split
    · rename_i hnil
      exact ⟨q, rfl, hnil, h⟩
    · rename_i request ticket rest hqueue
      have hheld : Kept [(request, ticket)] { q with queue := rest } := by
        obtain ⟨htickets, hwaiting, hsettled, hlogged, hresults⟩ := h
        rw [hqueue] at htickets hwaiting hsettled
        exact ⟨htickets, hwaiting, hsettled, hlogged, hresults⟩
      refine ih hheld.serve ?_
      have hserve := left_serve size hN { q with queue := rest } request ticket
      have hleft : q.left awaits N =
          ({ q with queue := rest } : RetryQueue α).left awaits N + turnsLeft request := by
        simp only [left, hqueue, List.map_cons, List.sum_cons]
        omega
      omega

end Drain

theorem kept_start (requests : List (QueuedRequest α)) : Kept [] (start requests) := by
  have htickets : (start requests).queue.map Prod.snd = List.range' 0 requests.length :=
    List.zipIdx_map_snd 0 requests
  refine ⟨?_, fun r t ht => ?_, fun t r ht hgone => ?_, fun e he => ?_, fun id => rfl⟩
  · rw [List.nil_append, htickets]
    exact List.nodup_range'
  · exact ⟨r, 0, List.mem_zipIdx_iff_getElem?.mp ht, ⟨rfl, fun h => absurd h (Nat.lt_irrefl 0)⟩,
      rfl⟩
  · rw [List.nil_append, htickets, List.mem_range'_1] at hgone
    have := (List.getElem?_eq_some_iff.mp ht).1
    exact absurd ⟨Nat.zero_le t, by rwa [Nat.zero_add]⟩ hgone
  · exact absurd he List.not_mem_nil

theorem Settled.getLast? {r : QueuedRequest α} {turns : List Turn} (h : Settled r turns)
    (hsucceeded : .succeeded ∈ turns) : turns.getLast? = some .succeeded := by
  cases h <;> simp at hsucceeded ⊢

/-- Requests with distinct ids: a call of the handler that succeeds is the last turn of its id. -/
theorem Kept.latest_iff {q : RetryQueue α} (h : Kept [] q) (hqueue : q.queue = [])
    (hids : (q.accepted.map (·.id)).Nodup) (id : String) :
    q.latest id = some .succeeded ↔ ∃ e ∈ q.log, e.id = id ∧ e.turn = .succeeded := by
  constructor
  · intro hlatest
    obtain ⟨e, he, hturn⟩ := List.mem_map.mp (List.mem_of_getLast? hlatest)
    obtain ⟨hlog, hid⟩ := List.mem_filter.mp he
    exact ⟨e, hlog, of_decide_eq_true hid, hturn⟩
  · rintro ⟨e, he, rfl, hturn⟩
    have hget {e : LogEntry} (he : e ∈ q.log) :
        (q.accepted.map (·.id))[e.ticket]? = some e.id := by
      obtain ⟨r, haccepted, hid⟩ := h.logged e he
      rw [List.getElem?_map, haccepted, Option.map_some, hid]
    have hsame : q.log.filter (·.id = e.id) = q.log.filter (·.ticket = e.ticket) := by
      refine List.filter_congr fun e' he' => decide_eq_decide.mpr ⟨fun heq => ?_, fun heq => ?_⟩
      · refine (List.getElem?_inj (List.getElem?_eq_some_iff.mp (hget he')).1 hids).mp ?_
        rw [hget he', hget he, heq]
      · have hids' := hget he'
        rw [heq, hget he] at hids'
        exact (Option.some_inj.mp hids').symm
    obtain ⟨r, haccepted, -⟩ := h.logged e he
    have hsettled := h.settled e.ticket r haccepted (by rw [hqueue]; exact List.not_mem_nil)
    rw [latest, hsame]
    exact hsettled.getLast? (hturn ▸ List.mem_map_of_mem (List.mem_filter.mpr ⟨he, by simp⟩))

/-- **The queue drains**, and every request that was accepted succeeds in the end, fails as often as
it may, or is dropped as it fails while the queue is full.  The results tell the latest turns. -/
theorem processRetryQueue_settles (size : ℕ) (awaits : ℕ → Bool × List (String × α))
    (hfinite : ∃ N, ∀ n, N ≤ n → (awaits n).2 = []) (requests : List (QueuedRequest α)) :
    ∃ fuel q, (start requests).processRetryQueue size awaits fuel = some q ∧ q.queue = [] ∧
      (∀ (t : ℕ) r, q.accepted[t]? = some r → Settled r (q.turnsOf t)) ∧
      (∀ id, q.results.get id = some true ↔ q.latest id = some .succeeded) ∧
      ((q.accepted.map (·.id)).Nodup → ∀ id, q.results.get id = some true ↔
        ∃ e ∈ q.log, e.id = id ∧ e.turn = .succeeded) := by
  obtain ⟨N, hN⟩ := hfinite
  obtain ⟨q, hrun, hqueue, h⟩ :=
    (kept_start requests).processRetryQueue size hN (Nat.lt_succ_self _)
  have hresults (id : String) : q.results.get id = some true ↔ q.latest id = some .succeeded := by
    rw [h.results id]
    rcases q.latest id with _ | turn <;> simp
  refine ⟨_, q, hrun, hqueue, fun t r ht => h.settled t r ht ?_, hresults, fun hids id => ?_⟩
  · rw [hqueue]
    exact List.not_mem_nil
  · rw [hresults, h.latest_iff hqueue hids]

theorem processRetryQueue_settles_heartbeat : ∃ fuel q,
    (start [{ id := "heartbeat", args := () }]).processRetryQueue 1 (fun n => (n = 1, [])) fuel =
      some q ∧ q.queue = [] ∧ ∀ (t : ℕ) r, q.accepted[t]? = some r → Settled r (q.turnsOf t) := by
  obtain ⟨fuel, q, hrun, hqueue, hsettled, -⟩ := processRetryQueue_settles 1
    (fun n => (decide (n = 1), [])) ⟨0, fun _ _ => rfl⟩ [{ id := "heartbeat", args := () }]
  exact ⟨fuel, q, hrun, hqueue, hsettled⟩

/-- "a" fails while "b" takes its place, and is dropped after one call of three.  And the results
say of an id that has succeeded that it has not, if another request with this id fails later. -/
theorem filled_drops :
    (¬∀ size awaits (requests : List (QueuedRequest Unit)) fuel q,
      (start requests).processRetryQueue size awaits fuel = some q →
      ∀ (t : ℕ) r, q.accepted[t]? = some r → .succeeded ∈ q.turnsOf t ∨
        r.maxRetries ≤ r.retryCount + (q.turnsOf t).length) ∧
    ¬∀ size awaits (requests : List (QueuedRequest Unit)) fuel q,
      (start requests).processRetryQueue size awaits fuel = some q →
      ∀ id, q.results.get id = some true ↔ ∃ e ∈ q.log, e.id = id ∧ e.turn = .succeeded := by
  constructor
  · intro h
    have hlost := h 1 (fun n => (n ≠ 0, if n = 0 then [("b", ())] else []))
      [{ id := "a", args := () }] 3 _ rfl 0 _ rfl
    revert hlost
    decide
  · intro h
    have htold := (h 2 (fun n => (n = 0, [])) [{ id := "a", args := () }, { id := "a", args := () }]
      5 _ rfl "a").mpr ⟨⟨0, "a", .succeeded⟩, List.mem_cons_self, rfl, rfl⟩
    revert htold
    decide

end RetryQueue

end EnhancedAgentBus.CircuitBreaker
