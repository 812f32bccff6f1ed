import EnhancedAgentBus.Guardrails.RateLimiter
import EnhancedAgentBus.Lib.SlidingWindow
import Mathlib.Tactic.Linarith

/-!
# What the rate limiter enforces

`Client` is what the limiter is for: one client, with the instants of all its requests that were
served and the end of its block.  The limiter tracks each client so (`Tracks`), and what it forgets
is never asked for again: so the results of one client's requests are those that `Client` gives
(`serve_client`), with or without the requests of others.

Of one client all that the limits promise is read off that list (`RateLimiter.enforced`).
-/

namespace EnhancedAgentBus.Guardrails

open SlidingWindow

structure Client where
  /-- When its requests were served, latest first. -/
  served : List ℚ := []
  blockedUntil : Option ℚ := none

namespace Client

variable (config : RateLimiterConfig)

def WithinLimits (now : ℚ) (served : List ℚ) : Prop :=
  recent 1 now served < config.burstLimit ∧
    recent (config.windowSeconds : ℚ) now served < config.requestsPerMinute

instance (now : ℚ) (served : List ℚ) : Decidable (WithinLimits config now served) :=
  inferInstanceAs (Decidable (_ ∧ _))

variable [PrintTable] [TimeText]

def countRequest (request : Request) (c : Client) : GuardrailResult × Client :=
  let clientId := request.clientId
  if WithinLimits config request.now c.served then
    (.pass request.traceId, { c with served := request.now :: c.served })
  else
    (.refuse "rate_limit_exceeded" .medium s!"Rate limit exceeded for client {clientId}"
        request.traceId,
      { c with blockedUntil := some (request.now + config.blockDurationSeconds) })

def process (request : Request) (c : Client) : GuardrailResult × Client :=
  let clientId := request.clientId
  match c.blockedUntil with
  | some until_ =>
    if request.now < until_ then
      let text := TimeText.text until_
      (.refuse "rate_limit_blocked" .high s!"Client {clientId} is rate limited until {text}"
        request.traceId, c)
    else countRequest config request { c with blockedUntil := none }
  | none => countRequest config request c

def serve (c : Client) : List Request → List (Request × GuardrailResult)
  | [] => []
  | request :: requests =>
    let (result, c) := c.process config request
    (request, result) :: serve c requests

end Client

/-! ## A client is left alone by the requests of others -/

namespace RateLimiter

variable (config : RateLimiterConfig) {clientId : String} (s : RateLimiter)

/-- What the limiter holds of a client is the same in two states. -/
def SameFor (clientId : String) (s s' : RateLimiter) : Prop :=
  s'.requestCounts.get clientId = s.requestCounts.get clientId ∧
    s'.blockedUntil.get clientId = s.blockedUntil.get clientId

theorem isRateLimited_other {client : String} (now : ℚ) (hother : client ≠ clientId) :
    SameFor clientId s (s.isRateLimited config client now).2 := by
  simp only [isRateLimited]
  split_ifs
  · exact ⟨by rw [Dict.get_set, if_neg hother.symm], rfl⟩
  · exact ⟨by rw [Dict.get_set, if_neg hother.symm], rfl⟩
  · exact ⟨by rw [Dict.get_set, if_neg hother.symm], rfl⟩

variable [PrintTable]

theorem admit_other {request : Request} (hother : request.clientId ≠ clientId) :
    SameFor clientId s (s.countRequest config request).2 := by
  obtain ⟨hcounts, hblocked⟩ := isRateLimited_other config s request.now hother
  simp only [countRequest]
  split
  · exact ⟨hcounts, by rw [Dict.get_set, if_neg hother.symm, hblocked]⟩
  · exact ⟨hcounts, hblocked⟩

theorem process_other [TimeText] {request : Request} (hother : request.clientId ≠ clientId) :
    SameFor clientId s (s.process config request).2 := by
  simp only [process]
  split_ifs
  · exact ⟨rfl, rfl⟩
  · exact ⟨rfl, rfl⟩
  · split
    · split_ifs
      · exact ⟨rfl, rfl⟩
      · obtain ⟨hcounts, hblocked⟩ := admit_other config
          { s with blockedUntil := s.blockedUntil.erase request.clientId } hother
        exact ⟨hcounts, by rw [hblocked, Dict.get_erase, if_neg hother.symm]⟩
    · exact admit_other config s hother

end RateLimiter

/-! ## The limiter tracks its clients -/

/-- What the limiter holds of a client, at a time from which on it is asked. -/
structure Tracks (config : RateLimiterConfig) (clientId : String) (now : ℚ) (s : RateLimiter)
    (c : Client) : Prop where
  blocked : s.blockedUntil.get clientId = c.blockedUntil
  times : ∃ start ≤ now - config.windowSeconds, (s.requestCounts.get clientId).getD [] =
    (c.served.filter fun t => start < t).reverse

section Tracking

variable {config : RateLimiterConfig} {clientId : String} {now : ℚ} {s : RateLimiter} {c : Client}

theorem Tracks.init (now : ℚ) : Tracks config clientId now {} {} :=
  ⟨rfl, _, le_rfl, rfl⟩

theorem Tracks.mono (h : Tracks config clientId now s c) {now' : ℚ} (hle : now ≤ now') :
    Tracks config clientId now' s c := by
  obtain ⟨start, hstart, htimes⟩ := h.times
  exact ⟨h.blocked, start, hstart.trans (sub_le_sub_right hle _), htimes⟩

theorem Tracks.pruned (h : Tracks config clientId now s c) :
    s.pruned config clientId now =
      (c.served.filter fun t => now - config.windowSeconds < t).reverse := by
  obtain ⟨start, hstart, htimes⟩ := h.times
  rw [RateLimiter.pruned, htimes, List.filter_reverse, List.filter_filter]
  congr 1
  refine List.filter_congr fun t _ => ?_
  rw [← Bool.decide_and, decide_eq_decide]
  exact and_iff_left_of_imp fun ht => lt_of_le_of_lt hstart ht

theorem Tracks.length_pruned (h : Tracks config clientId now s c) :
    (s.pruned config clientId now).length = recent (config.windowSeconds : ℚ) now c.served := by
  rw [h.pruned, List.length_reverse, recent, List.countP_eq_length_filter]

theorem Tracks.length_recent (h : Tracks config clientId now s c)
    (hwindow : 1 ≤ config.windowSeconds) :
    ((s.pruned config clientId now).filter fun t => now - 1 < t).length =
      recent 1 now c.served := by
  have hone : (1 : ℚ) ≤ config.windowSeconds := by exact_mod_cast hwindow
  rw [h.pruned, List.filter_reverse, List.length_reverse, List.filter_filter, recent,
    List.countP_eq_length_filter]
  congr 1
  refine List.filter_congr fun t _ => ?_
  rw [← Bool.decide_and, decide_eq_decide]
  exact and_iff_left_of_imp fun ht => lt_of_le_of_lt (sub_le_sub_left hone now) ht

theorem Tracks.exceeds (h : Tracks config clientId now s c) (hwindow : 1 ≤ config.windowSeconds)
    (hlimits : ¬Client.WithinLimits config now c.served) :
    (s.isRateLimited config clientId now).1 = true ∧
      Tracks config clientId now (s.isRateLimited config clientId now).2 c := by
  have hcond : config.burstLimit ≤
        ((s.pruned config clientId now).filter fun t => now - 1 < t).length ∨
      config.requestsPerMinute ≤ (s.pruned config clientId now).length := by
    rw [h.length_recent hwindow, h.length_pruned]
    by_contra hnot
    obtain ⟨hburst, hrate⟩ := not_or.mp hnot
    exact hlimits ⟨not_le.mp hburst, not_le.mp hrate⟩
  rw [RateLimiter.isRateLimited, if_pos hcond]
  refine ⟨rfl, h.blocked, _, le_rfl, ?_⟩
  rw [Dict.get_set, if_pos rfl, Option.getD_some, h.pruned]

theorem Tracks.serves (h : Tracks config clientId now s c) (hwindow : 1 ≤ config.windowSeconds)
    (hlimits : Client.WithinLimits config now c.served) :
    (s.isRateLimited config clientId now).1 = false ∧
      Tracks config clientId now (s.isRateLimited config clientId now).2
        { c with served := now :: c.served } := by
  have hcond : ¬(config.burstLimit ≤
        ((s.pruned config clientId now).filter fun t => now - 1 < t).length ∨
      config.requestsPerMinute ≤ (s.pruned config clientId now).length) := by
    rw [h.length_recent hwindow, h.length_pruned]
    exact not_or.mpr ⟨not_le.mpr hlimits.1, not_le.mpr hlimits.2⟩
  have hone : (1 : ℚ) ≤ config.windowSeconds := by exact_mod_cast hwindow
  have hnow : now - config.windowSeconds < now := by linarith
  have hadded : s.pruned config clientId now ++ [now] =
      ((now :: c.served).filter fun t => now - config.windowSeconds < t).reverse := by
    rw [h.pruned, List.filter_cons, if_pos (decide_eq_true hnow), List.reverse_cons]
  have hall : (s.pruned config clientId now ++ [now]).filter
      (fun t => now - config.windowSeconds * 2 < t) = s.pruned config clientId now ++ [now] := by
    refine List.filter_eq_self.mpr fun t ht => decide_eq_true ?_
    rw [hadded, List.mem_reverse, List.mem_filter] at ht
    have hlt := of_decide_eq_true ht.2
    linarith
  rw [RateLimiter.isRateLimited, if_neg hcond]
  refine ⟨rfl, h.blocked, _, le_rfl, ?_⟩
  rw [Dict.get_set, if_pos rfl, Option.getD_some, hall, ite_self, hadded]

variable [PrintTable]

theorem Tracks.countRequest {request : Request}
    (h : Tracks config request.clientId request.now s c)
    (hwindow : 1 ≤ config.windowSeconds) :
    (s.countRequest config request).1 = (c.countRequest config request).1 ∧
      Tracks config request.clientId request.now (s.countRequest config request).2
        (c.countRequest config request).2 := by
  by_cases hlimits : Client.WithinLimits config request.now c.served
  · obtain ⟨hfalse, htracks⟩ := h.serves hwindow hlimits
    rw [RateLimiter.countRequest, Client.countRequest, if_pos hlimits]
    dsimp only
    rw [hfalse]
    exact ⟨rfl, htracks⟩
  · obtain ⟨htrue, htracks⟩ := h.exceeds hwindow hlimits
    rw [RateLimiter.countRequest, Client.countRequest, if_neg hlimits]
    dsimp only
    rw [htrue]
    refine ⟨rfl, ?_, htracks.times⟩
    dsimp only
    rw [if_pos rfl, Dict.get_set, if_pos rfl]

variable [TimeText]

theorem Tracks.process {request : Request}
    (h : Tracks config request.clientId request.now s c)
    (hwindow : 1 ≤ config.windowSeconds) (hblack : request.clientId ∉ config.blacklist)
    (hwhite : request.clientId ∉ config.whitelist) :
    (s.process config request).1 = (c.process config request).1 ∧
      Tracks config request.clientId request.now (s.process config request).2
        (c.process config request).2 := by
  rw [RateLimiter.process, if_neg hblack, if_neg hwhite, Client.process, h.blocked]
  rcases hblocked : c.blockedUntil with _ | until_
  · exact h.countRequest hwindow
  · dsimp only
    split_ifs with hnow
    · exact ⟨rfl, h⟩
    · refine Tracks.countRequest ⟨?_, h.times⟩ hwindow
      rw [Dict.get_erase, if_pos rfl]

theorem Tracks.other {request : Request} (h : Tracks config clientId now s c)
    (hother : request.clientId ≠ clientId) :
    Tracks config clientId now (s.process config request).2 c := by
  obtain ⟨hcounts, hblocked⟩ := RateLimiter.process_other config s hother
  exact ⟨hblocked.trans h.blocked, hcounts ▸ h.times⟩

theorem Tracks.serve {requests : List Request} (h : Tracks config clientId now s c)
    (hwindow : 1 ≤ config.windowSeconds) (hblack : clientId ∉ config.blacklist)
    (hwhite : clientId ∉ config.whitelist) (hsorted : requests.Pairwise fun r r' => r.now ≤ r'.now)
    (hfrom : ∀ r ∈ requests, now ≤ r.now) :
    (s.serve config requests).filter (fun e => e.1.clientId = clientId) =
      c.serve config (requests.filter fun r => r.clientId = clientId) := by
  induction requests generalizing now s c with
  | nil => rfl
  | cons request requests ih =>
    obtain ⟨hlater, hsorted⟩ := List.pairwise_cons.mp hsorted
    have hnow := hfrom request List.mem_cons_self
    rw [RateLimiter.serve, List.filter_cons, List.filter_cons]
    by_cases hclient : request.clientId = clientId
    · subst hclient
      obtain ⟨hresult, htracks⟩ := (h.mono hnow).process hwindow hblack hwhite
      rw [if_pos (decide_eq_true rfl), if_pos (decide_eq_true rfl), Client.serve, hresult,
        ih htracks hsorted hlater]
    · rw [if_neg (by simp [hclient]), if_neg (by simp [hclient]),
        ih ((h.other hclient).mono hnow) hsorted hlater]

end Tracking

/-! ## One client -/

/-- The request was refused because it exceeded a limit. -/
def GuardrailResult.Exceeds (result : GuardrailResult) : Prop :=
  ∃ v ∈ result.violations, v.violationType = "rate_limit_exceeded"

def servedTimes (log : List (Request × GuardrailResult)) : List ℚ :=
  (log.filter fun e => e.2.allowed).map (·.1.now)

namespace Client

variable {config : RateLimiterConfig} {c : Client}

/-- One request: refused in a block, served within the limits, or the first of a new block. -/
inductive Outcome (config : RateLimiterConfig) (request : Request) (c : Client) :
    GuardrailResult → Client → Prop
  | blocked (result : GuardrailResult) (until_ : ℚ) (huntil : c.blockedUntil = some until_)
      (hnow : request.now < until_) (hrefused : result.allowed = false)
      (hnot : ¬result.Exceeds) : Outcome config request c result c
  | served (result : GuardrailResult) (hfree : ∀ u, c.blockedUntil = some u → u ≤ request.now)
      (hlimits : WithinLimits config request.now c.served) (hallowed : result.allowed = true)
      (hnot : ¬result.Exceeds) :
      Outcome config request c result ⟨request.now :: c.served, none⟩
  | exceeded (result : GuardrailResult) (hfree : ∀ u, c.blockedUntil = some u → u ≤ request.now)
      (hlimits : ¬WithinLimits config request.now c.served) (hrefused : result.allowed = false)
      (hexceeds : result.Exceeds) :
      Outcome config request c result
        ⟨c.served, some (request.now + config.blockDurationSeconds)⟩

/-- What a client has been served is within its limits, wherever one begins to count. -/
def Limited (config : RateLimiterConfig) (c : Client) : Prop :=
  Spaced 1 config.burstLimit c.served ∧
    Spaced (config.windowSeconds : ℚ) config.requestsPerMinute c.served

theorem Outcome.limited {request : Request} {result : GuardrailResult} {c' : Client}
    (h : Outcome config request c result c') (hc : c.Limited config) : c'.Limited config := by
  cases h with
  | blocked => exact hc
  | served _ hlimits => exact ⟨⟨hlimits.1, hc.1⟩, ⟨hlimits.2, hc.2⟩⟩
  | exceeded => exact hc

theorem Outcome.served_eq {request : Request} {result : GuardrailResult} {c' : Client}
    (h : Outcome config request c result c') :
    c'.served = (servedTimes [(request, result)]).reverse ++ c.served := by
  cases h with
  | blocked _ _ _ hrefused => simp [servedTimes, hrefused]
  | served _ _ hallowed => simp [servedTimes, hallowed]
  | exceeded _ _ hrefused => simp [servedTimes, hrefused]

section Process

variable [PrintTable] [TimeText]

def run (config : RateLimiterConfig) (c : Client) : List Request → Client
  | [] => c
  | request :: requests => run config (c.process config request).2 requests

omit [TimeText] in
theorem outcome_admit {config : RateLimiterConfig} (request : Request) (c : Client)
    (hfree : ∀ u, c.blockedUntil = some u → u ≤ request.now) {blockedUntil : Option ℚ}
    (hnone : blockedUntil = none) :
    Outcome config request c (countRequest config request ⟨c.served, blockedUntil⟩).1
      (countRequest config request ⟨c.served, blockedUntil⟩).2 := by
  subst hnone
  by_cases hlimits : WithinLimits config request.now c.served
  · rw [countRequest, if_pos hlimits]
    exact .served _ hfree hlimits rfl (by simp [GuardrailResult.Exceeds, GuardrailResult.pass])
  · rw [countRequest, if_neg hlimits]
    exact .exceeded _ hfree hlimits rfl ⟨_, List.mem_cons_self, rfl⟩

theorem serve_cons (request : Request) (requests : List Request) :
    c.serve config (request :: requests) = (request, (c.process config request).1) ::
      (c.process config request).2.serve config requests := rfl

theorem outcome (config : RateLimiterConfig) (request : Request) (c : Client) :
    Outcome config request c (c.process config request).1 (c.process config request).2 := by
  rw [process]
  dsimp only
  rcases hblocked : c.blockedUntil with _ | until_
  · exact outcome_admit request c (by simp [hblocked]) hblocked
  · dsimp only
    split_ifs with hnow
    · refine .blocked _ until_ hblocked hnow rfl ?_
      simp [GuardrailResult.Exceeds, GuardrailResult.refuse]
    · refine outcome_admit request c (fun u hu => ?_) rfl
      rw [hblocked] at hu
      exact Option.some_inj.mp hu ▸ not_lt.mp hnow

theorem Limited.run (hc : c.Limited config) (requests : List Request) :
    (c.run config requests).Limited config := by
  induction requests generalizing c with
  | nil => exact hc
  | cons request requests ih => exact ih ((outcome config request c).limited hc)

theorem served_run (requests : List Request) :
    (c.run config requests).served =
      (servedTimes (c.serve config requests)).reverse ++ c.served := by
  induction requests generalizing c with
  | nil => rfl
  | cons request requests ih =>
    have hcons : servedTimes (c.serve config (request :: requests)) =
        servedTimes [(request, (c.process config request).1)] ++
          servedTimes ((c.process config request).2.serve config requests) := by
      simp only [serve, servedTimes, ← List.map_append, ← List.filter_append]
      rfl
    rw [run, ih, (outcome config request c).served_eq, hcons, List.reverse_append,
      List.append_assoc]

theorem serve_append (requests requests' : List Request) :
    c.serve config (requests ++ requests') =
      c.serve config requests ++ (c.run config requests).serve config requests' := by
  induction requests generalizing c with
  | nil => rfl
  | cons request requests ih =>
    exact congrArg ((request, (c.process config request).1) :: ·) ih

theorem serve_requests (requests : List Request) :
    (c.serve config requests).map (·.1) = requests := by
  induction requests generalizing c with
  | nil => rfl
  | cons request requests ih => exact congrArg (request :: ·) ih

theorem mem_requests {requests : List Request} {e : Request × GuardrailResult}
    (he : e ∈ c.serve config requests) : e.1 ∈ requests := by
  have hrequests : (c.serve config requests).map (·.1) = requests := serve_requests requests
  rw [← hrequests]
  exact List.mem_map_of_mem he

theorem blocked_serve {until_ : ℚ} {requests : List Request}
    (hsorted : requests.Pairwise fun r r' => r.now ≤ r'.now)
    (hblocked : c.blockedUntil = some until_) :
    ∀ e ∈ c.serve config requests, e.1.now < until_ → e.2.allowed = false := by
  induction requests generalizing c with
  | nil => simp [serve]
  | cons request requests ih =>
    obtain ⟨hlater, hsorted⟩ := List.pairwise_cons.mp hsorted
    have hover (h : until_ ≤ request.now) (c' : Client) :
        ∀ e ∈ c'.serve config requests, ¬e.1.now < until_ := fun e he =>
      not_lt.mpr (h.trans (hlater e.1 (mem_requests he)))
    intro e he hnow
    have houtcome := outcome config request c
    rw [serve_cons] at he
    generalize c.process config request = r at houtcome he
    obtain ⟨result, c'⟩ := r
    rcases List.mem_cons.mp he with rfl | he
    · cases houtcome with
      | blocked _ _ _ hrefused => exact hrefused
      | served hfree => exact absurd hnow (not_lt.mpr (hfree until_ hblocked))
      | exceeded _ _ hrefused => exact hrefused
    · cases houtcome with
      | blocked => exact ih hsorted hblocked e he hnow
      | served hfree => exact absurd hnow (hover (hfree until_ hblocked) _ e he)
      | exceeded hfree => exact absurd hnow (hover (hfree until_ hblocked) _ e he)

theorem refused_serve {requests : List Request}
    (hsorted : requests.Pairwise fun r r' => r.now ≤ r'.now) :
    (c.serve config requests).Pairwise fun e e' => e.2.Exceeds →
      e'.1.now < e.1.now + (config.blockDurationSeconds : ℚ) → e'.2.allowed = false := by
  induction requests generalizing c with
  | nil => exact .nil
  | cons request requests ih =>
    obtain ⟨hlater, hsorted⟩ := List.pairwise_cons.mp hsorted
    have houtcome := outcome config request c
    rw [serve_cons]
    generalize c.process config request = r at houtcome ⊢
    obtain ⟨result, c'⟩ := r
    refine List.pairwise_cons.mpr ⟨fun e he hexceeds => ?_, ih hsorted⟩
    cases houtcome with
    | blocked _ _ _ _ hnot => exact absurd hexceeds hnot
    | served _ _ _ hnot => exact absurd hexceeds hnot
    | exceeded => exact blocked_serve hsorted rfl e he

theorem blockedUntil_run {requests : List Request} {until_ : ℚ}
    (h : (c.run config requests).blockedUntil = some until_) :
    c.blockedUntil = some until_ ∨ ∃ e ∈ c.serve config requests, e.2.Exceeds ∧
      until_ = e.1.now + config.blockDurationSeconds := by
  induction requests generalizing c with
  | nil => exact .inl h
  | cons request requests ih =>
    rcases ih h with hblocked | ⟨e, he, hrest⟩
    · have houtcome := outcome config request c
      rw [serve]
      generalize c.process config request = r at houtcome hblocked ⊢
      obtain ⟨result, c'⟩ := r
      cases houtcome with
      | blocked => exact .inl hblocked
      | served => cases hblocked
      | exceeded _ _ _ hexceeds =>
        exact .inr ⟨_, List.mem_cons_self, hexceeds, (Option.some_inj.mp hblocked).symm⟩
    · exact .inr ⟨e, List.mem_cons_of_mem _ he, hrest⟩

theorem allowed_iff {requests : List Request} {before after : List (Request × GuardrailResult)}
    {e : Request × GuardrailResult} (hlog : c.serve config requests = before ++ e :: after)
    (hblocked : c.blockedUntil = none)
    (hover : ∀ v ∈ before, v.2.Exceeds →
      v.1.now + (config.blockDurationSeconds : ℚ) ≤ e.1.now) :
    e.2.allowed = true ↔
      WithinLimits config e.1.now ((servedTimes before).reverse ++ c.served) := by
  have hrequests : (c.serve config requests).map (·.1) = requests := serve_requests requests
  rw [hlog, List.map_append, List.map_cons] at hrequests
  rw [← hrequests, serve_append] at hlog
  obtain ⟨hbefore, hrest⟩ := List.append_inj hlog (by
    rw [← List.length_map (f := fun e : Request × GuardrailResult => e.1), serve_requests,
      List.length_map])
  have hserved : (c.run config (before.map (·.1))).served =
      (servedTimes (c.serve config (before.map (·.1)))).reverse ++ c.served := served_run _
  rw [hbefore] at hserved
  have houtcome := outcome config e.1 (c.run config (before.map (·.1)))
  rw [serve_cons] at hrest
  rw [← hserved, ← congrArg Prod.snd (List.cons.inj hrest).1]
  generalize (c.run config (before.map (·.1))).process config e.1 = r at houtcome ⊢
  obtain ⟨result, c'⟩ := r
  cases houtcome with
  | blocked _ huntil hnow =>
    rcases blockedUntil_run huntil with hnone | ⟨v, hv, hexceeds, rfl⟩
    · rw [hblocked] at hnone
      cases hnone
    · exact absurd hnow (not_lt.mpr (hover v (hbefore ▸ hv) hexceeds))
  | served _ hlimits hallowed => exact iff_of_true hallowed hlimits
  | exceeded _ hlimits hrefused => exact iff_of_false (Bool.eq_false_iff.mp hrefused) hlimits

end Process

end Client

/-! ## The limiter -/

namespace RateLimiter

variable [PrintTable] [TimeText] {config : RateLimiterConfig} {clientId : String}
variable {requests : List Request}

theorem serve_cons (s : RateLimiter) (request : Request) (requests : List Request) :
    s.serve config (request :: requests) = (request, (s.process config request).1) ::
      (s.process config request).2.serve config requests := rfl

theorem serve_requests (s : RateLimiter) (requests : List Request) :
    (s.serve config requests).map (·.1) = requests := by
  induction requests generalizing s with
  | nil => rfl
  | cons request requests ih => exact congrArg (request :: ·) (ih _)

theorem process_listed {request : Request}
    (hlisted : request.clientId ∈ config.blacklist ∨ request.clientId ∈ config.whitelist)
    (s s' : RateLimiter) : (s.process config request).1 = (s'.process config request).1 := by
  simp only [process]
  split_ifs with hblack hwhite
  · rfl
  · rfl
  · exact absurd hlisted (not_or.mpr ⟨hblack, hwhite⟩)

theorem serve_listed (hlisted : clientId ∈ config.blacklist ∨ clientId ∈ config.whitelist)
    (s s' : RateLimiter) :
    (s.serve config requests).filter (fun e => e.1.clientId = clientId) =
      s'.serve config (requests.filter fun r => r.clientId = clientId) := by
  induction requests generalizing s s' with
  | nil => rfl
  | cons request requests ih =>
    rw [serve_cons, List.filter_cons, List.filter_cons]
    by_cases hclient : request.clientId = clientId
    · subst hclient
      rw [if_pos (decide_eq_true rfl), if_pos (decide_eq_true rfl), serve_cons,
        process_listed hlisted s s', ih _ (s'.process config request).2]
    · rw [if_neg (by simp [hclient]), if_neg (by simp [hclient]), ih _ s']

theorem serve_blacklisted (hblack : clientId ∈ config.blacklist) (s : RateLimiter) :
    ∀ e ∈ s.serve config requests, e.1.clientId = clientId →
      e.2.allowed = false ∧ ¬e.2.Exceeds := by
  induction requests generalizing s with
  | nil => simp [serve]
  | cons request requests ih =>
    intro e he hclient
    rw [serve_cons] at he
    rcases List.mem_cons.mp he with rfl | he
    · subst hclient
      simp only [process]
      rw [if_pos hblack]
      exact ⟨rfl, by simp [GuardrailResult.Exceeds, GuardrailResult.refuse]⟩
    · exact ih _ e he hclient

theorem serve_client (hwindow : 1 ≤ config.windowSeconds) (hblack : clientId ∉ config.blacklist)
    (hwhite : clientId ∉ config.whitelist)
    (hsorted : requests.Pairwise fun r r' => r.now ≤ r'.now) :
    (serve config {} requests).filter (fun e => e.1.clientId = clientId) =
      Client.serve config {} (requests.filter fun r => r.clientId = clientId) := by
  rcases requests with _ | ⟨request, requests⟩
  · rfl
  · refine (Tracks.init request.now).serve hwindow hblack hwhite hsorted fun r hr => ?_
    rcases List.mem_cons.mp hr with rfl | hr
    · exact le_rfl
    · exact (List.pairwise_cons.mp hsorted).1 r hr

end RateLimiter

/-- What a client was served in a list of results, an interval at a time: no more than a limit in
any that is open at one end. -/
def AtMost (limit : ℤ) (width : ℚ) (times : List ℚ) : Prop :=
  ∀ start, (times.countP (fun t => start ≤ t ∧ t < start + width) : ℤ) ≤ max limit 0 ∧
    (times.countP (fun t => start < t ∧ t ≤ start + width) : ℤ) ≤ max limit 0

theorem AtMost.of_spaced {limit : ℤ} {width : ℚ} {times : List ℚ}
    (h : Spaced width limit times.reverse) : AtMost limit width times := by
  intro start
  rw [← List.countP_reverse, ← List.countP_reverse (l := times)]
  exact ⟨h.countP_Ico_le start, h.countP_Ioc_le start⟩

section Enforced

variable [PrintTable] [TimeText]

def logOf (clientId : String) (log : List (Request × GuardrailResult)) :
    List (Request × GuardrailResult) :=
  log.filter fun e => e.1.clientId = clientId

/-- **What the limiter promises**, of the results of a list of requests. -/
structure Enforced (config : RateLimiterConfig) (requests : List Request) : Prop where
  window : ∀ clientId ∉ config.whitelist, AtMost config.requestsPerMinute config.windowSeconds
    (servedTimes (logOf clientId (RateLimiter.serve config {} requests)))
  burst : ∀ clientId ∉ config.whitelist, AtMost config.burstLimit 1
    (servedTimes (logOf clientId (RateLimiter.serve config {} requests)))
  refused : ∀ clientId ∉ config.whitelist,
    (logOf clientId (RateLimiter.serve config {} requests)).Pairwise fun e e' => e.2.Exceeds →
      e'.1.now < e.1.now + (config.blockDurationSeconds : ℚ) → e'.2.allowed = false
  /-- Once the blocks of all its violations are over, a client is served as its limits say. -/
  served : ∀ clientId ∉ config.whitelist, clientId ∉ config.blacklist → ∀ before e after,
    logOf clientId (RateLimiter.serve config {} requests) = before ++ e :: after →
    (∀ v ∈ before, v.2.Exceeds → v.1.now + (config.blockDurationSeconds : ℚ) ≤ e.1.now) →
    (e.2.allowed = true ↔ Client.WithinLimits config e.1.now (servedTimes before))
  /-- The requests of other clients make no difference. -/
  independent : ∀ clientId, logOf clientId (RateLimiter.serve config {} requests) =
    RateLimiter.serve config {} (requests.filter fun r => r.clientId = clientId)

variable {config : RateLimiterConfig} {requests : List Request} {clientId : String}

theorem servedTimes_blacklisted (hblack : clientId ∈ config.blacklist) :
    servedTimes (logOf clientId (RateLimiter.serve config {} requests)) = [] := by
  rw [servedTimes, List.map_eq_nil_iff, List.filter_eq_nil_iff]
  intro e he
  obtain ⟨he, hclient⟩ := List.mem_filter.mp he
  rw [(RateLimiter.serve_blacklisted hblack _ e he (of_decide_eq_true hclient)).1]
  exact Bool.false_ne_true

theorem limited_client (hwindow : 1 ≤ config.windowSeconds) (hblack : clientId ∉ config.blacklist)
    (hwhite : clientId ∉ config.whitelist)
    (hsorted : requests.Pairwise fun r r' => r.now ≤ r'.now) :
    Client.Limited config
      ⟨(servedTimes (logOf clientId (RateLimiter.serve config {} requests))).reverse, none⟩ := by
  have hempty : Client.Limited config {} := ⟨trivial, trivial⟩
  have hrun := hempty.run (requests.filter fun r => r.clientId = clientId)
  rw [Client.Limited, Client.served_run, List.append_nil,
    ← RateLimiter.serve_client hwindow hblack hwhite hsorted] at hrun
  exact hrun

theorem atMost_client (hwindow : 1 ≤ config.windowSeconds) (hwhite : clientId ∉ config.whitelist)
    (hsorted : requests.Pairwise fun r r' => r.now ≤ r'.now) :
    AtMost config.requestsPerMinute config.windowSeconds
        (servedTimes (logOf clientId (RateLimiter.serve config {} requests))) ∧
      AtMost config.burstLimit 1
        (servedTimes (logOf clientId (RateLimiter.serve config {} requests))) := by
  by_cases hblack : clientId ∈ config.blacklist
  · rw [servedTimes_blacklisted hblack]
    exact ⟨AtMost.of_spaced trivial, AtMost.of_spaced trivial⟩
  · obtain ⟨hburst, hrate⟩ := limited_client hwindow hblack hwhite hsorted
    exact ⟨AtMost.of_spaced hrate, AtMost.of_spaced hburst⟩

theorem logOf_serve (hwindow : 1 ≤ config.windowSeconds)
    (hsorted : requests.Pairwise fun r r' => r.now ≤ r'.now) :
    logOf clientId (RateLimiter.serve config {} requests) =
      RateLimiter.serve config {} (requests.filter fun r => r.clientId = clientId) := by
  by_cases hlisted : clientId ∈ config.blacklist ∨ clientId ∈ config.whitelist
  · exact RateLimiter.serve_listed hlisted {} {}
  · obtain ⟨hblack, hwhite⟩ := not_or.mp hlisted
    have halone := RateLimiter.serve_client hwindow hblack hwhite
      (hsorted.filter fun r => r.clientId = clientId)
    rw [List.filter_filter] at halone
    simp only [Bool.and_self] at halone
    rw [logOf, RateLimiter.serve_client hwindow hblack hwhite hsorted, ← halone]
    refine List.filter_eq_self.mpr fun e he => ?_
    have hmem : e.1 ∈ requests.filter fun r => r.clientId = clientId := by
      have hrequests : (RateLimiter.serve config {} (requests.filter fun r =>
          r.clientId = clientId)).map (·.1) = requests.filter fun r => r.clientId = clientId :=
        RateLimiter.serve_requests {} _
      rw [← hrequests]
      exact List.mem_map_of_mem he
    exact (List.mem_filter.mp hmem).2

/-- **The limiter enforces its windows**, where the window is a second or more and the requests come
in the order of their times. -/
theorem RateLimiter.enforced (hwindow : 1 ≤ config.windowSeconds)
    (hsorted : requests.Pairwise fun r r' => r.now ≤ r'.now) : Enforced config requests := by
  refine ⟨fun id hwhite => (atMost_client hwindow hwhite hsorted).1,
    fun id hwhite => (atMost_client hwindow hwhite hsorted).2, fun id hwhite => ?_,
    fun id hwhite hblack before e after hlog hover => ?_,
    fun id => logOf_serve hwindow hsorted⟩
  · by_cases hblack : id ∈ config.blacklist
    · refine List.pairwise_of_forall_mem_list fun e he e' _ hexceeds => ?_
      obtain ⟨he, hclient⟩ := List.mem_filter.mp he
      exact absurd hexceeds (serve_blacklisted hblack _ e he (of_decide_eq_true hclient)).2
    · rw [logOf, serve_client hwindow hblack hwhite hsorted]
      exact Client.refused_serve (hsorted.filter _)
  · rw [logOf, serve_client hwindow hblack hwhite hsorted] at hlog
    rw [Client.allowed_iff hlog rfl hover, List.append_nil, Client.WithinLimits,
      Client.WithinLimits]
    simp only [recent, List.countP_reverse]

end Enforced

def twoClients : List Request :=
  [⟨0, [("api_key", .str "a")]⟩, ⟨1 / 2, [("api_key", .str "a")]⟩, ⟨1 / 2, [("user_id", .int 7)]⟩]

theorem enforced_twoClients :
    @Enforced ⟨fun _ => true⟩ ⟨fun _ => ""⟩ { burstLimit := 1 } twoClients :=
  @RateLimiter.enforced ⟨fun _ => true⟩ ⟨fun _ => ""⟩ _ _ (by decide)
    (by simp [twoClients])

end EnhancedAgentBus.Guardrails
