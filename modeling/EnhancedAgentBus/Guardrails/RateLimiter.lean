import EnhancedAgentBus.Json
import EnhancedAgentBus.Lib.Dict
import Mathlib.Algebra.Order.Ring.Rat

/-!
# The rate limiter

`RateLimiter`: the requests of a client are counted over a window and over the last second, and a
client that exceeds a limit is refused for some time.

An instant is a rational number: `time.time()` minus a whole number of seconds is exact at the size
of today's clock.  Its text in a message is a table of the interpreter (`TimeText`), as the
characters that `str` escapes are (`PrintTable`).  The processing times of a result are left out.
-/

namespace EnhancedAgentBus.Guardrails

/-- `str` of an instant. -/
class TimeText where
  text : ℚ → String

structure RateLimiterConfig where
  requestsPerMinute : ℤ := 1000
  burstLimit : ℤ := 200
  windowSeconds : ℤ := 60
  blockDurationSeconds : ℤ := 300
  whitelist : List String := []
  blacklist : List String := []

inductive SafetyAction where
  | allow
  | block
  deriving DecidableEq

inductive ViolationSeverity where
  | medium
  | high
  | critical
  deriving DecidableEq

structure Violation where
  violationType : String
  severity : ViolationSeverity
  message : String
  traceId : Json

structure GuardrailResult where
  action : SafetyAction
  allowed : Bool
  violations : List Violation := []
  traceId : Json

/-- `GuardrailResult` of a request that passes. -/
def GuardrailResult.pass (traceId : Json) : GuardrailResult where
  action := .allow
  allowed := true
  traceId

/-- `GuardrailResult` of a request that is refused for one reason. -/
def GuardrailResult.refuse (violationType : String) (severity : ViolationSeverity)
    (message : String) (traceId : Json) : GuardrailResult where
  action := .block
  allowed := false
  violations := [{ violationType, severity, message, traceId }]
  traceId

structure Request where
  now : ℚ
  context : List (String × Json)

section Client

variable [PrintTable]

/-- `context.get(key) or ...` -/
def orElse (context : List (String × Json)) (key : String) (rest : String) : String :=
  match Json.lookup key context with
  | some value => if value.truthy then String.ofList value.pyStr else rest
  | none => rest

/-- `_extract_client_id` -/
def Request.clientId (request : Request) : String :=
  orElse request.context "api_key" <| orElse request.context "user_id" <|
    orElse request.context "ip_address" <| orElse request.context "session_id" "anonymous"

end Client

/-- `context.get("trace_id", "")` -/
def Request.traceId (request : Request) : Json :=
  (Json.lookup "trace_id" request.context).getD (.str "")

structure RateLimiter where
  requestCounts : Dict String (List ℚ) := Dict.empty
  blockedUntil : Dict String ℚ := Dict.empty

namespace RateLimiter

variable (config : RateLimiterConfig)

def pruned (clientId : String) (currentTime : ℚ) (s : RateLimiter) : List ℚ :=
  ((s.requestCounts.get clientId).getD []).filter fun t =>
    currentTime - config.windowSeconds < t

def isRateLimited (clientId : String) (currentTime : ℚ) (s : RateLimiter) : Bool × RateLimiter :=
  let requestTimes := s.pruned config clientId currentTime
  let recentRequests := requestTimes.filter fun t => currentTime - 1 < t
  if config.burstLimit ≤ recentRequests.length ∨
      config.requestsPerMinute ≤ requestTimes.length then
    (true, { s with requestCounts := s.requestCounts.set clientId requestTimes })
  else
    let added := requestTimes ++ [currentTime]
    let kept :=
      if config.requestsPerMinute * 2 < added.length then
        added.filter fun t => currentTime - config.windowSeconds * 2 < t
      else added
    (false, { s with requestCounts := s.requestCounts.set clientId kept })

variable [PrintTable] [TimeText]

/-- What `process` does for a client on neither list that is not blocked. -/
def countRequest (request : Request) (s : RateLimiter) : GuardrailResult × RateLimiter :=
  let clientId := request.clientId
  let (limited, s) := s.isRateLimited config clientId request.now
  if limited then
    (.refuse "rate_limit_exceeded" .medium s!"Rate limit exceeded for client {clientId}"
        request.traceId,
      { s with
        blockedUntil := s.blockedUntil.set clientId (request.now + config.blockDurationSeconds) })
  else (.pass request.traceId, s)

def process (request : Request) (s : RateLimiter) : GuardrailResult × RateLimiter :=
  let clientId := request.clientId
  if clientId ∈ config.blacklist then
    (.refuse "blacklisted_client" .critical s!"Client {clientId} is blacklisted" request.traceId, s)
  else if clientId ∈ config.whitelist then (.pass request.traceId, s)
  else
    match s.blockedUntil.get clientId with
    | some until_ =>
      if request.now < until_ then
        let text := TimeText.text until_
        (.refuse "rate_limit_blocked" .high s!"Client {clientId} is rate limited until {text}"
          request.traceId, s)
      else countRequest config request { s with blockedUntil := s.blockedUntil.erase clientId }
    | none => countRequest config request s

def serve (s : RateLimiter) : List Request → List (Request × GuardrailResult)
  | [] => []
  | request :: requests =>
    let (result, s) := s.process config request
    (request, result) :: serve s requests

end RateLimiter

end EnhancedAgentBus.Guardrails
