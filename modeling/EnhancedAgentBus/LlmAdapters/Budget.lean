import EnhancedAgentBus.Lib.Dict
import EnhancedAgentBus.Lib.Machine
import Mathlib.Algebra.Order.BigOperators.Group.List
import Mathlib.Algebra.Order.Ring.Rat
import Mathlib.Data.Prod.Lex

/-!
# Budgets

The spending limits that a `BudgetManager` keeps for its tenants, and what `check_budget` answers
after a timed sequence of calls.

A limit object is shared: a global limit is charged by every tenant, and a limit is charged once for
every place at which its id is listed.  `charges` is what a run charges to an id, and
`run_get` says that the counters are those of the last day and month with a charge (`onLast`).  The
counters move on only when a cost is recorded, and a limit of zero is taken for none.

Amounts are rational numbers: the code's floats, without their rounding.  A call reads the clock
once.
-/

namespace EnhancedAgentBus.LlmAdapters

/-! ## The calendar -/

/-- A `datetime` in UTC. -/
structure DateTime where
  year : ℕ
  month : ℕ
  day : ℕ
  microsecond : ℕ := 0

namespace DateTime

/-- The month of the calendar: `year` and `month` -/
def calendarMonth (t : DateTime) : ℕ ×ₗ ℕ := toLex (t.year, t.month)

def date (t : DateTime) : (ℕ ×ₗ ℕ) ×ₗ ℕ := toLex (t.calendarMonth, t.day)

instance : LE DateTime where
  le s t := toLex (s.date, s.microsecond) ≤ toLex (t.date, t.microsecond)

instance : DecidableLE DateTime := fun s t =>
  inferInstanceAs (Decidable (toLex (s.date, s.microsecond) ≤ toLex (t.date, t.microsecond)))

theorem le_refl (t : DateTime) : t ≤ t :=
  le_rfl (a := toLex (t.date, t.microsecond))

theorem date_mono {s t : DateTime} (h : s ≤ t) : s.date ≤ t.date :=
  Prod.Lex.monotone_fst _ _ h

theorem calendarMonth_mono {s t : DateTime} (h : s ≤ t) : s.calendarMonth ≤ t.calendarMonth :=
  Prod.Lex.monotone_fst _ _ (date_mono h)

theorem calendarMonth_lt_iff {s t : DateTime} (h : s ≤ t) :
    s.calendarMonth < t.calendarMonth ↔ t.month ≠ s.month ∨ t.year ≠ s.year := by
  rw [(calendarMonth_mono h).lt_iff_ne, calendarMonth, calendarMonth, Ne, toLex_inj, Prod.mk.injEq,
    not_and_or, or_comm]
  exact or_congr ne_comm ne_comm

end DateTime

/-! ## Limits -/

structure LimitTerms where
  limitId : String
  /-- `None` for global limits -/
  tenantId : Option String
  /-- `None` for all operations -/
  operationType : Option String
  dailyLimit : Option ℚ := none
  monthlyLimit : Option ℚ := none
  perRequestLimit : Option ℚ := none

structure BudgetLimit extends LimitTerms where
  dailyUsage : ℚ := 0
  monthlyUsage : ℚ := 0
  lastReset : DateTime

/-- The text of a refusal and the two amounts that it shows. -/
structure Refusal where
  text : String
  amount : ℚ
  limit : ℚ
  deriving DecidableEq

/-- `limit and amount > limit` -/
def exceeds (limit : Option ℚ) (amount : ℚ) : Bool :=
  match limit with
  | none => false
  | some limit => limit ≠ 0 && limit < amount

namespace BudgetLimit

def new (terms : LimitTerms) (now : DateTime) : BudgetLimit := { terms with lastReset := now }

def checkLimit (limit : BudgetLimit) (cost : ℚ) : Bool × Option Refusal :=
  if exceeds limit.perRequestLimit cost then
    (false, some ⟨"Per-request limit exceeded", cost, limit.perRequestLimit.getD 0⟩)
  else if exceeds limit.dailyLimit (limit.dailyUsage + cost) then
    (false, some ⟨"Daily limit exceeded", limit.dailyUsage + cost, limit.dailyLimit.getD 0⟩)
  else if exceeds limit.monthlyLimit (limit.monthlyUsage + cost) then
    (false, some ⟨"Monthly limit exceeded", limit.monthlyUsage + cost, limit.monthlyLimit.getD 0⟩)
  else (true, none)

def recordUsage (limit : BudgetLimit) (now : DateTime) (cost : ℚ) : BudgetLimit :=
  let daily := if limit.lastReset.date < now.date then 0 else limit.dailyUsage
  let monthly :=
    if now.month ≠ limit.lastReset.month ∨ now.year ≠ limit.lastReset.year then 0
    else limit.monthlyUsage
  { limit with dailyUsage := daily + cost, monthlyUsage := monthly + cost, lastReset := now }

/-- The limit is exceeded by a cost, on the usage that it has. -/
def Exceeded (limit : BudgetLimit) (cost : ℚ) : Prop :=
  exceeds limit.perRequestLimit cost ∨ exceeds limit.dailyLimit (limit.dailyUsage + cost) ∨
    exceeds limit.monthlyLimit (limit.monthlyUsage + cost)

theorem checkLimit_fst (limit : BudgetLimit) (cost : ℚ) :
    (limit.checkLimit cost).1 = true ↔ ¬ limit.Exceeded cost := by
  unfold checkLimit Exceeded
  split_ifs with h₁ h₂ h₃ <;> simp [*]

end BudgetLimit

/-! ## The manager -/

structure BudgetManager where
  limits : Dict String BudgetLimit := .empty
  tenantLimits : Dict String (List String) := .empty
  globalLimits : List String := []

namespace BudgetManager

/-- `add_limit`: an empty tenant id counts as none. -/
def addLimit (m : BudgetManager) (limit : BudgetLimit) : BudgetManager :=
  let m := { m with limits := m.limits.set limit.limitId limit }
  match limit.tenantId with
  | none => { m with globalLimits := m.globalLimits ++ [limit.limitId] }
  | some tenantId =>
    if tenantId = "" then { m with globalLimits := m.globalLimits ++ [limit.limitId] }
    else
      { m with
        tenantLimits := m.tenantLimits.set tenantId
          ((m.tenantLimits.get tenantId).getD [] ++ [limit.limitId]) }

def limitIds (m : BudgetManager) (tenantId : String) : List String :=
  m.globalLimits ++ (m.tenantLimits.get tenantId).getD []

def getLimitsForTenant (m : BudgetManager) (tenantId : String) (operationType : Option String) :
    List BudgetLimit :=
  (m.limitIds tenantId).filterMap fun limitId =>
    (m.limits.get limitId).filter fun limit =>
      limit.operationType = none ∨ limit.operationType = operationType

/-- The loop of `check_budget`, over the limits that are left. -/
def checkLimits (cost : ℚ) : List BudgetLimit → Bool × Option Refusal
  | [] => (true, none)
  | limit :: rest =>
    match limit.checkLimit cost with
    | (false, message) => (false, message)
    | (true, _) => checkLimits cost rest

def checkBudget (m : BudgetManager) (tenantId : String) (cost : ℚ) (operationType : Option String) :
    Bool × Option Refusal :=
  checkLimits cost (m.getLimitsForTenant tenantId operationType)

/-- A usage that is recorded by the limit object under an id. -/
def charge (m : BudgetManager) (now : DateTime) (cost : ℚ) (limitId : String) : BudgetManager :=
  match m.limits.get limitId with
  | none => m
  | some limit => { m with limits := m.limits.set limitId (limit.recordUsage now cost) }

def recordCost (m : BudgetManager) (now : DateTime) (tenantId : String) (cost : ℚ)
    (operationType : Option String) : BudgetManager :=
  (m.getLimitsForTenant tenantId operationType).foldl
    (fun m limit => m.charge now cost limit.limitId) m

/-- The manager that the limits were added to, one after the other. -/
def configured (limits : List (LimitTerms × DateTime)) : BudgetManager :=
  limits.foldl (fun m limit => m.addLimit (.new limit.1 limit.2)) {}

end BudgetManager

inductive Call where
  | recordCost (tenantId : String) (cost : ℚ) (operationType : Option String)
  | checkBudget (tenantId : String) (cost : ℚ) (operationType : Option String)

def Call.cost : Call → ℚ
  | recordCost _ cost _ => cost
  | checkBudget _ cost _ => cost

def BudgetManager.step (m : BudgetManager) : DateTime × Call → BudgetManager
  | (now, .recordCost tenantId cost operationType) => m.recordCost now tenantId cost operationType
  | (_, .checkBudget ..) => m

/-! ## What a run charges -/

namespace BudgetLimit

def charged (limit : BudgetLimit) (usages : List (DateTime × ℚ)) : BudgetLimit :=
  usages.foldl (fun limit usage => limit.recordUsage usage.1 usage.2) limit

theorem charged_append (limit : BudgetLimit) (us us' : List (DateTime × ℚ)) :
    limit.charged (us ++ us') = (limit.charged us).charged us' :=
  List.foldl_append ..

@[simp] theorem toLimitTerms_charged (limit : BudgetLimit) (us : List (DateTime × ℚ)) :
    (limit.charged us).toLimitTerms = limit.toLimitTerms := by
  induction us generalizing limit with
  | nil => rfl
  | cons u us ih => exact ih (limit.recordUsage u.1 u.2)

end BudgetLimit

namespace BudgetManager

def termsFor (m : BudgetManager) (tenantId : String) (operationType : Option String) :
    List LimitTerms :=
  (m.getLimitsForTenant tenantId operationType).map BudgetLimit.toLimitTerms

/-- What one call charges to the limit object under an id: its cost, once for each listing. -/
def chargesOf (m : BudgetManager) (limitId : String) : DateTime × Call → List (DateTime × ℚ)
  | (now, .recordCost tenantId cost operationType) =>
    ((m.termsFor tenantId operationType).filter (·.limitId = limitId)).map fun _ => (now, cost)
  | (_, .checkBudget ..) => []

/-- What a run charges to the limit object under an id. -/
def charges (m : BudgetManager) (limitId : String) (calls : List (DateTime × Call)) :
    List (DateTime × ℚ) :=
  calls.flatMap (m.chargesOf limitId)

/-- Two managers with the same limits, up to their usage. -/
structure Alike (m m' : BudgetManager) : Prop where
  tenantLimits : m'.tenantLimits = m.tenantLimits
  globalLimits : m'.globalLimits = m.globalLimits
  terms : ∀ limitId, (m'.limits.get limitId).map BudgetLimit.toLimitTerms =
    (m.limits.get limitId).map BudgetLimit.toLimitTerms

theorem Alike.trans {m m' m'' : BudgetManager} (h : Alike m m') (h' : Alike m' m'') :
    Alike m m'' :=
  ⟨h'.tenantLimits.trans h.tenantLimits, h'.globalLimits.trans h.globalLimits,
    fun limitId => (h'.terms limitId).trans (h.terms limitId)⟩

theorem mem_termsFor {m : BudgetManager} {tenantId : String} {operationType : Option String}
    {terms : LimitTerms} :
    terms ∈ m.termsFor tenantId operationType ↔
      ∃ limitId ∈ m.limitIds tenantId,
        (m.limits.get limitId).map BudgetLimit.toLimitTerms = some terms ∧
          (terms.operationType = none ∨ terms.operationType = operationType) := by
  simp only [termsFor, getLimitsForTenant, List.mem_map, List.mem_filterMap,
    Option.filter_eq_some_iff, Option.map_eq_some_iff, decide_eq_true_eq]
  constructor
  · rintro ⟨limit, ⟨limitId, hmem, hget, hop⟩, rfl⟩
    exact ⟨limitId, hmem, ⟨limit, hget, rfl⟩, hop⟩
  · rintro ⟨limitId, hmem, ⟨limit, hget, rfl⟩, hop⟩
    exact ⟨limit, ⟨limitId, hmem, hget, hop⟩, rfl⟩

theorem termsFor_eq (m : BudgetManager) (tenantId : String) (operationType : Option String) :
    m.termsFor tenantId operationType = (m.limitIds tenantId).filterMap fun limitId =>
      ((m.limits.get limitId).map BudgetLimit.toLimitTerms).filter fun terms =>
        terms.operationType = none ∨ terms.operationType = operationType := by
  rw [termsFor, getLimitsForTenant, List.map_filterMap]
  refine List.filterMap_congr fun limitId _ => ?_
  rcases m.limits.get limitId with _ | limit
  · rfl
  · by_cases hop : limit.operationType = none ∨ limit.operationType = operationType
    · simp only [Option.filter, Option.map_some, hop, decide_true, if_true]
    · simp only [Option.filter, Option.map_some, hop, decide_false, Bool.false_eq_true, if_false,
        Option.map_none]

theorem Alike.termsFor_eq {m m' : BudgetManager} (h : Alike m m') (tenantId : String)
    (operationType : Option String) :
    m'.termsFor tenantId operationType = m.termsFor tenantId operationType := by
  simp only [BudgetManager.termsFor_eq, limitIds, h.terms, h.tenantLimits, h.globalLimits]

theorem get_charge (m : BudgetManager) (now : DateTime) (cost : ℚ) (limitId limitId' : String) :
    (m.charge now cost limitId).limits.get limitId' =
      (m.limits.get limitId').map fun limit =>
        if limitId = limitId' then limit.recordUsage now cost else limit := by
  unfold charge
  rcases hget : m.limits.get limitId with _ | limit
  · by_cases heq : limitId = limitId'
    · rw [← heq, hget, Option.map_none]
    · simp only [if_neg heq, Option.map_id']
  · rw [Dict.get_set]
    by_cases heq : limitId = limitId'
    · rw [if_pos heq.symm, ← heq, hget, Option.map_some, if_pos rfl]
    · simp only [if_neg heq, if_neg (Ne.symm heq), Option.map_id']

theorem charge_alike (m : BudgetManager) (now : DateTime) (cost : ℚ) (limitId : String) :
    Alike m (m.charge now cost limitId) where
  tenantLimits := by unfold charge; cases m.limits.get limitId <;> rfl
  globalLimits := by unfold charge; cases m.limits.get limitId <;> rfl
  terms limitId' := by
    rw [get_charge, Option.map_map]
    congr 1
    funext limit
    exact (apply_ite ..).trans (ite_self _)

theorem get_foldl_charge (m : BudgetManager) (now : DateTime) (cost : ℚ)
    (limits : List BudgetLimit) (limitId : String) :
    (limits.foldl (fun m limit => m.charge now cost limit.limitId) m).limits.get limitId =
      (m.limits.get limitId).map fun limit =>
        limit.charged (((limits.map BudgetLimit.toLimitTerms).filter (·.limitId = limitId)).map
          fun _ => (now, cost)) := by
  induction limits generalizing m with
  | nil => exact (Option.map_id' ..).symm
  | cons limit rest ih =>
    rw [List.foldl_cons, ih, get_charge, Option.map_map]
    congr 1
    funext l
    by_cases heq : limit.limitId = limitId
    · simp only [Function.comp_apply, List.map_cons, heq, decide_true, List.filter_cons_of_pos,
        if_true]
      rfl
    · simp only [Function.comp_apply, List.map_cons, heq, decide_false, if_false,
        not_false_eq_true, List.filter_cons_of_neg, Bool.false_eq_true]

theorem foldl_charge_alike (m : BudgetManager) (now : DateTime) (cost : ℚ)
    (limits : List BudgetLimit) :
    Alike m (limits.foldl (fun m limit => m.charge now cost limit.limitId) m) := by
  induction limits generalizing m with
  | nil => exact ⟨rfl, rfl, fun _ => rfl⟩
  | cons limit rest ih => exact (charge_alike m now cost limit.limitId).trans (ih _)

theorem step_alike (m : BudgetManager) (call : DateTime × Call) : Alike m (m.step call) := by
  obtain ⟨now, call⟩ := call
  cases call with
  | recordCost tenantId cost operationType => exact foldl_charge_alike ..
  | checkBudget => exact ⟨rfl, rfl, fun _ => rfl⟩

theorem get_step (m : BudgetManager) (call : DateTime × Call) (limitId : String) :
    (m.step call).limits.get limitId =
      (m.limits.get limitId).map fun limit => limit.charged (m.chargesOf limitId call) := by
  obtain ⟨now, call⟩ := call
  cases call with
  | recordCost tenantId cost operationType => exact get_foldl_charge ..
  | checkBudget => exact (Option.map_id' ..).symm

theorem Alike.chargesOf_eq {m m' : BudgetManager} (h : Alike m m') (limitId : String)
    (call : DateTime × Call) : m'.chargesOf limitId call = m.chargesOf limitId call := by
  obtain ⟨now, call⟩ := call
  cases call with
  | recordCost => simp only [chargesOf, h.termsFor_eq]
  | checkBudget => rfl

theorem run_alike (m : BudgetManager) (calls : List (DateTime × Call)) :
    Alike m (Machine.run step m calls) := by
  induction calls generalizing m with
  | nil => exact ⟨rfl, rfl, fun _ => rfl⟩
  | cons call rest ih => exact (step_alike m call).trans (ih _)

theorem run_get (m : BudgetManager) (calls : List (DateTime × Call)) (limitId : String) :
    (Machine.run step m calls).limits.get limitId =
      (m.limits.get limitId).map fun limit => limit.charged (m.charges limitId calls) := by
  induction calls generalizing m with
  | nil => exact (Option.map_id' ..).symm
  | cons call rest ih =>
    have hcharges : (m.step call).charges limitId rest = m.charges limitId rest :=
      congrArg (rest.flatMap ·) (funext ((step_alike m call).chargesOf_eq limitId))
    rw [Machine.run_cons, ih, get_step, Option.map_map, hcharges]
    congr 1
    funext limit
    exact (limit.charged_append ..).symm

end BudgetManager

/-! ## The counters -/

section Counters

variable {κ : Type} [LinearOrder κ] {key : DateTime → κ}

/-- What was charged in the period of the last charge. -/
def onLast (key : DateTime → κ) (charges : List (DateTime × ℚ)) : ℚ :=
  match charges.getLast? with
  | none => 0
  | some last => ((charges.filter fun c => key c.1 = key last.1).map Prod.snd).sum

def inPeriod (key : DateTime → κ) (now : DateTime) (charges : List (DateTime × ℚ)) : ℚ :=
  ((charges.filter fun c => key c.1 = key now).map Prod.snd).sum

theorem onLast_concat (charges : List (DateTime × ℚ)) (c : DateTime × ℚ) :
    onLast key (charges ++ [c]) = inPeriod key c.1 charges + c.2 := by
  simp [onLast, inPeriod, List.filter_append]

theorem inPeriod_concat {charges : List (DateTime × ℚ)} {last : DateTime × ℚ} {now : DateTime}
    (hmono : ∀ s t : DateTime, s ≤ t → key s ≤ key t) (hle : ∀ c ∈ charges, c.1 ≤ last.1)
    (hnow : last.1 ≤ now) :
    inPeriod key now (charges ++ [last]) =
      if key last.1 < key now then 0 else onLast key (charges ++ [last]) := by
  split
  · rename_i hlt
    have hnil : ((charges ++ [last]).filter fun c => key c.1 = key now) = [] := by
      rw [List.filter_eq_nil_iff]
      intro c hc
      have hc : key c.1 ≤ key last.1 := by
        rcases List.mem_append.mp hc with hc | hc
        · exact hmono _ _ (hle c hc)
        · exact (congrArg (fun c => key c.1) (List.mem_singleton.mp hc)).le
      simpa using (hc.trans_lt hlt).ne
    rw [inPeriod, hnil, List.map_nil, List.sum_nil]
  · rename_i hlt
    have hkey : key last.1 = key now := le_antisymm (hmono _ _ hnow) (not_lt.mp hlt)
    simp [onLast, inPeriod, hkey]

end Counters

namespace BudgetLimit

/-- **The counters of a limit**: what was charged on the day, and in the month, of the last
charge. -/
theorem charged_new (terms : LimitTerms) (created : DateTime) {charges : List (DateTime × ℚ)}
    (hsorted : charges.Pairwise fun c c' => c.1 ≤ c'.1) :
    (new terms created).charged charges =
      { toLimitTerms := terms
        dailyUsage := onLast DateTime.date charges
        monthlyUsage := onLast DateTime.calendarMonth charges
        lastReset := (charges.map Prod.fst).getLast?.getD created } := by
  induction charges using List.reverseRecOn with
  | nil => rfl
  | append_singleton charges c ih =>
    obtain ⟨hsorted, -, hle⟩ := List.pairwise_append.mp hsorted
    rw [charged_append, ih hsorted, onLast_concat, onLast_concat]
    obtain rfl | ⟨init, last, rfl⟩ := List.eq_nil_or_concat' charges
    · simp [charged, recordUsage, onLast, inPeriod]
    · have hinit : ∀ c' ∈ init, c'.1 ≤ last.1 := fun c' hc' =>
        (List.pairwise_append.mp hsorted).2.2 c' hc' last (List.mem_singleton_self last)
      have hnow : last.1 ≤ c.1 :=
        hle last (by simp) c (List.mem_singleton_self c)
      rw [inPeriod_concat (fun _ _ => DateTime.date_mono) hinit hnow,
        inPeriod_concat (fun _ _ => DateTime.calendarMonth_mono) hinit hnow]
      simp [charged, recordUsage, DateTime.calendarMonth_lt_iff hnow]

end BudgetLimit

/-! ## What the calendar allows -/

namespace LimitTerms

/-- The limit is one of a tenant's spending on an operation. -/
def Applies (terms : LimitTerms) (tenantId : String) (operationType : Option String) : Prop :=
  (terms.tenantId = none ∨ terms.tenantId = some "" ∨ terms.tenantId = some tenantId) ∧
    (terms.operationType = none ∨ terms.operationType = operationType)

instance (terms : LimitTerms) (tenantId : String) (operationType : Option String) :
    Decidable (terms.Applies tenantId operationType) := by unfold Applies; infer_instance

/-- The costs that were recorded under the limit. -/
def recorded (terms : LimitTerms) (calls : List (DateTime × Call)) : List (DateTime × ℚ) :=
  calls.filterMap fun call =>
    match call.2 with
    | .recordCost tenantId cost operationType =>
      if terms.Applies tenantId operationType then some (call.1, cost) else none
    | .checkBudget .. => none

/-- The limits of the terms, each with the amount that is held against it. -/
def bounds (terms : LimitTerms) (cost daily monthly : ℚ) : List (Option ℚ × ℚ) :=
  [(terms.perRequestLimit, cost), (terms.dailyLimit, daily + cost),
    (terms.monthlyLimit, monthly + cost)]

def ExceededBy (kind : ℚ → Prop) (terms : LimitTerms) (cost daily monthly : ℚ) : Prop :=
  ∃ limit amount, (some limit, amount) ∈ terms.bounds cost daily monthly ∧ kind limit ∧
    limit < amount

end LimitTerms

/-- A request to spend: `check_budget`, at an instant. -/
structure Spending where
  now : DateTime
  tenantId : String
  cost : ℚ
  operationType : Option String

section

variable (limits : List (LimitTerms × DateTime)) (calls : List (DateTime × Call)) (s : Spending)

/-- The limits that are there, once all have been added, and apply to the request. -/
def Applicable (terms : LimitTerms) : Prop :=
  terms ∈ (BudgetManager.configured limits).limits.values.map BudgetLimit.toLimitTerms ∧
    terms.Applies s.tenantId s.operationType

/-- **The calendar's answer**: every applicable limit has room for the cost, beside what was
recorded under it on the day, and in the month, of the request. -/
def WithinBudget : Prop :=
  ∀ terms, Applicable limits s terms →
    ∀ limit amount,
      (some limit, amount) ∈ terms.bounds s.cost
        (inPeriod DateTime.date s.now (terms.recorded calls))
        (inPeriod DateTime.calendarMonth s.now (terms.recorded calls)) → amount ≤ limit

/-- An applicable limit of a kind is exceeded, by the calendar. -/
def Overrun (kind : ℚ → Prop) : Prop :=
  ∃ terms, Applicable limits s terms ∧ terms.ExceededBy kind s.cost
    (inPeriod DateTime.date s.now (terms.recorded calls))
    (inPeriod DateTime.calendarMonth s.now (terms.recorded calls))

/-- A limit other than zero that is listed for the tenant is exceeded by the charges of the last
day, or month, in which the limit was charged at all. -/
def CarriedOver : Prop :=
  ∃ terms ∈ (BudgetManager.configured limits).termsFor s.tenantId s.operationType,
    terms.ExceededBy (· ≠ 0) s.cost
      (onLast DateTime.date ((BudgetManager.configured limits).charges terms.limitId calls))
      (onLast DateTime.calendarMonth
        ((BudgetManager.configured limits).charges terms.limitId calls))

/-- `check_budget` after the calls. -/
def answer : Bool :=
  ((Machine.run BudgetManager.step (.configured limits) calls).checkBudget s.tenantId s.cost
    s.operationType).1

end

variable {limits : List (LimitTerms × DateTime)} {calls : List (DateTime × Call)} {s : Spending}

theorem withinBudget_iff :
    WithinBudget limits calls s ↔
      ¬ Overrun limits calls s (· = 0) ∧ ¬ Overrun limits calls s (· ≠ 0) := by
  constructor
  · intro h
    refine ⟨?_, ?_⟩ <;>
    · rintro ⟨terms, happ, limit, amount, hmem, -, hlt⟩
      exact (h terms happ limit amount hmem).not_gt hlt
  · rintro ⟨hzero, hother⟩ terms happ limit amount hmem
    by_contra hlt
    rw [not_le] at hlt
    by_cases hlimit : limit = 0
    · exact hzero ⟨terms, happ, limit, amount, hmem, hlimit, hlt⟩
    · exact hother ⟨terms, happ, limit, amount, hmem, hlimit, hlt⟩

/-! ## The counters against the calendar -/

namespace BudgetManager

/-- Every limit is under its own id and as it was constructed, and its id is listed for whom it is a
limit of. -/
structure Registered (m : BudgetManager) : Prop where
  eq_new : ∀ limitId limit, m.limits.get limitId = some limit →
    ∃ created, limit = .new limit.toLimitTerms created
  limitId : ∀ limitId limit, m.limits.get limitId = some limit → limit.limitId = limitId
  listed : ∀ limitId limit tenantId, m.limits.get limitId = some limit →
    (limit.tenantId = none ∨ limit.tenantId = some "" ∨ limit.tenantId = some tenantId) →
    limitId ∈ m.limitIds tenantId

theorem limits_addLimit (m : BudgetManager) (limit : BudgetLimit) :
    (m.addLimit limit).limits = m.limits.set limit.limitId limit := by
  unfold addLimit
  rcases limit.tenantId with _ | tenantId
  · rfl
  · exact (apply_ite ..).trans (ite_self _)

theorem limitIds_addLimit (m : BudgetManager) (limit : BudgetLimit) (tenantId limitId : String) :
    limitId ∈ (m.addLimit limit).limitIds tenantId ↔
      limitId ∈ m.limitIds tenantId ∨ limitId = limit.limitId ∧
        (limit.tenantId = none ∨ limit.tenantId = some "" ∨ limit.tenantId = some tenantId) := by
  unfold addLimit limitIds
  rcases limit.tenantId with _ | owner
  · simp; tauto
  · by_cases hempty : owner = ""
    · simp [hempty]; tauto
    · by_cases howner : tenantId = owner
      · subst howner
        simp [hempty]; tauto
      · simp [hempty, howner, Ne.symm howner]

theorem Registered.addLimit {m : BudgetManager} (h : Registered m) (terms : LimitTerms)
    (created : DateTime) : Registered (m.addLimit (.new terms created)) where
  eq_new limitId limit hget := by
    rw [limits_addLimit] at hget
    rcases Dict.get_set_cases hget with ⟨-, rfl⟩ | ⟨-, hget⟩
    · exact ⟨created, rfl⟩
    · exact h.eq_new limitId limit hget
  limitId limitId limit hget := by
    rw [limits_addLimit] at hget
    rcases Dict.get_set_cases hget with ⟨hid, rfl⟩ | ⟨-, hget⟩
    · exact hid.symm
    · exact h.limitId limitId limit hget
  listed limitId limit tenantId hget htenant := by
    rw [limits_addLimit] at hget
    rw [limitIds_addLimit]
    rcases Dict.get_set_cases hget with ⟨hid, rfl⟩ | ⟨-, hget⟩
    · exact .inr ⟨hid, htenant⟩
    · exact .inl (h.listed limitId limit tenantId hget htenant)

theorem registered_configured (limits : List (LimitTerms × DateTime)) :
    Registered (configured limits) := by
  have key (m : BudgetManager) (hm : Registered m) :
      Registered (limits.foldl (fun m limit => m.addLimit (.new limit.1 limit.2)) m) := by
    induction limits generalizing m with
    | nil => exact hm
    | cons limit rest ih => exact ih _ (hm.addLimit limit.1 limit.2)
  exact key {} ⟨fun _ _ h => (by cases h), fun _ _ h => (by cases h), fun _ _ _ h => (by cases h)⟩

theorem checkLimits_fst (cost : ℚ) (limits : List BudgetLimit) :
    (checkLimits cost limits).1 = true ↔ ∀ limit ∈ limits, ¬ limit.Exceeded cost := by
  induction limits with
  | nil => simp [checkLimits]
  | cons limit rest ih =>
    rw [List.forall_mem_cons, ← ih, ← limit.checkLimit_fst, checkLimits]
    cases hcheck : limit.checkLimit cost with
    | mk allowed message => cases allowed <;> simp

theorem getLimitsForTenant_run {m : BudgetManager} (hm : Registered m)
    (calls : List (DateTime × Call)) (tenantId : String) (operationType : Option String) :
    (Machine.run step m calls).getLimitsForTenant tenantId operationType =
      (m.getLimitsForTenant tenantId operationType).map fun limit =>
        limit.charged (m.charges limit.limitId calls) := by
  have halike := run_alike m calls
  rw [getLimitsForTenant, getLimitsForTenant, limitIds, halike.globalLimits, halike.tenantLimits,
    List.map_filterMap]
  refine List.filterMap_congr fun limitId _ => ?_
  rw [run_get]
  rcases hget : m.limits.get limitId with _ | limit
  · rfl
  · have hid := hm.limitId limitId limit hget
    have hterms := limit.toLimitTerms_charged (m.charges limitId calls)
    by_cases hop : limit.operationType = none ∨ limit.operationType = operationType
    · simp only [Option.filter, Option.map_some, hterms, hop, decide_true, if_true, hid]
    · simp only [Option.filter, Option.map_some, hterms, hop, decide_false, Bool.false_eq_true,
        if_false, Option.map_none]

theorem chargesOf_fst {m : BudgetManager} {limitId : String} {call : DateTime × Call}
    {c : DateTime × ℚ} (h : c ∈ m.chargesOf limitId call) : c.1 = call.1 ∧ c.2 = call.2.cost := by
  obtain ⟨now, call⟩ := call
  cases call with
  | recordCost tenantId cost operationType =>
    obtain ⟨_, -, rfl⟩ := List.mem_map.mp h
    exact ⟨rfl, rfl⟩
  | checkBudget => cases h

theorem charges_sorted (m : BudgetManager) (limitId : String) {calls : List (DateTime × Call)}
    (h : calls.Pairwise fun c c' => c.1 ≤ c'.1) :
    (m.charges limitId calls).Pairwise fun c c' => c.1 ≤ c'.1 := by
  refine List.pairwise_flatMap.mpr ⟨fun call _ => ?_, h.imp fun hle c hc c' hc' => ?_⟩
  · refine List.pairwise_of_forall_mem_list fun c hc c' hc' => ?_
    rw [(chargesOf_fst hc).1, (chargesOf_fst hc').1]
    exact DateTime.le_refl _
  · rw [(chargesOf_fst hc).1, (chargesOf_fst hc').1]
    exact hle

theorem recorded_sublist {m : BudgetManager} {terms : LimitTerms}
    (h : ∀ tenantId operationType, terms.Applies tenantId operationType →
      terms ∈ m.termsFor tenantId operationType) (calls : List (DateTime × Call)) :
    (terms.recorded calls).Sublist (m.charges terms.limitId calls) := by
  induction calls with
  | nil => exact List.Sublist.refl _
  | cons call rest ih =>
    obtain ⟨now, call⟩ := call
    rw [charges, List.flatMap_cons, LimitTerms.recorded, List.filterMap_cons]
    cases call with
    | checkBudget => exact ih.trans (List.sublist_append_right ..)
    | recordCost tenantId cost operationType =>
      by_cases happ : terms.Applies tenantId operationType
      · have hmem : (now, cost) ∈ m.chargesOf terms.limitId
            (now, .recordCost tenantId cost operationType) :=
          List.mem_map.mpr ⟨terms, List.mem_filter.mpr
            ⟨h tenantId operationType happ, decide_eq_true rfl⟩, rfl⟩
        simp only [if_pos happ]
        exact (List.singleton_sublist.mpr hmem).append ih
      · simp only [if_neg happ]
        exact ih.trans (List.sublist_append_right ..)

theorem Registered.mem_termsFor {m : BudgetManager} (hm : Registered m) {terms : LimitTerms}
    (hterms : terms ∈ m.limits.values.map BudgetLimit.toLimitTerms) {tenantId : String}
    {operationType : Option String} (happ : terms.Applies tenantId operationType) :
    terms ∈ m.termsFor tenantId operationType := by
  obtain ⟨limit, hlimit, rfl⟩ := List.mem_map.mp hterms
  obtain ⟨limitId, hget⟩ := Dict.exists_get_of_mem_values hlimit
  exact BudgetManager.mem_termsFor.mpr
    ⟨limitId, hm.listed limitId limit tenantId hget happ.1, by rw [hget]; rfl, happ.2⟩

end BudgetManager

section

variable {κ : Type} [LinearOrder κ] {key : DateTime → κ}

theorem inPeriod_mono {us us' : List (DateTime × ℚ)} {now : DateTime} (h : us.Sublist us')
    (hnonneg : ∀ u ∈ us', 0 ≤ u.2) : inPeriod key now us ≤ inPeriod key now us' := by
  refine ((h.filter _).map _).sum_le_sum fun a ha => ?_
  obtain ⟨u, hu, rfl⟩ := List.mem_map.mp ha
  exact hnonneg u (List.mem_of_mem_filter hu)

theorem inPeriod_nonneg {us : List (DateTime × ℚ)} {now : DateTime}
    (hnonneg : ∀ u ∈ us, 0 ≤ u.2) : 0 ≤ inPeriod key now us :=
  inPeriod_mono (List.nil_sublist us) hnonneg

theorem inPeriod_le_onLast {charges : List (DateTime × ℚ)} {now : DateTime}
    (hmono : ∀ s t : DateTime, s ≤ t → key s ≤ key t)
    (hsorted : charges.Pairwise fun c c' => c.1 ≤ c'.1) (hnow : ∀ c ∈ charges, c.1 ≤ now)
    (hnonneg : ∀ c ∈ charges, 0 ≤ c.2) : inPeriod key now charges ≤ onLast key charges := by
  obtain rfl | ⟨init, last, rfl⟩ := List.eq_nil_or_concat' charges
  · exact le_rfl
  · have hlast : last ∈ init ++ [last] := by simp
    rw [inPeriod_concat hmono (fun c hc => (List.pairwise_append.mp hsorted).2.2 c hc last
      (List.mem_singleton_self last)) (hnow last hlast)]
    split
    · rw [onLast_concat]
      have hinit : 0 ≤ inPeriod key last.1 init :=
        inPeriod_nonneg fun c hc => hnonneg c (List.mem_append_left _ hc)
      exact add_nonneg hinit (hnonneg last hlast)
    · exact le_rfl

end

/-! ## The answer -/

theorem exceeds_iff (limit : Option ℚ) (amount : ℚ) :
    exceeds limit amount = true ↔ ∃ l, limit = some l ∧ l ≠ 0 ∧ l < amount := by
  rcases limit with _ | l
  · simp [exceeds]
  · simp [exceeds]

theorem BudgetLimit.exceeded_iff (limit : BudgetLimit) (cost : ℚ) :
    limit.Exceeded cost ↔
      limit.toLimitTerms.ExceededBy (· ≠ 0) cost limit.dailyUsage limit.monthlyUsage := by
  simp only [BudgetLimit.Exceeded, exceeds_iff, LimitTerms.ExceededBy, LimitTerms.bounds,
    List.mem_cons, List.not_mem_nil, or_false, Prod.mk.injEq]
  constructor
  · rintro (⟨l, hl, h⟩ | ⟨l, hl, h⟩ | ⟨l, hl, h⟩)
    · exact ⟨l, _, .inl ⟨hl.symm, rfl⟩, h⟩
    · exact ⟨l, _, .inr (.inl ⟨hl.symm, rfl⟩), h⟩
    · exact ⟨l, _, .inr (.inr ⟨hl.symm, rfl⟩), h⟩
  · rintro ⟨l, amount, ⟨hl, rfl⟩ | ⟨hl, rfl⟩ | ⟨hl, rfl⟩, h⟩
    · exact .inl ⟨l, hl.symm, h⟩
    · exact .inr (.inl ⟨l, hl.symm, h⟩)
    · exact .inr (.inr ⟨l, hl.symm, h⟩)

theorem answer_iff (hsorted : calls.Pairwise fun c c' => c.1 ≤ c'.1) :
    answer limits calls s = true ↔ ¬ CarriedOver limits calls s := by
  have hreg := BudgetManager.registered_configured limits
  rw [answer, BudgetManager.checkBudget, BudgetManager.checkLimits_fst,
    BudgetManager.getLimitsForTenant_run hreg, List.forall_mem_map, CarriedOver]
  simp only [BudgetManager.termsFor, List.mem_map, exists_exists_and_eq_and, not_exists, not_and]
  refine forall₂_congr fun limit hmem => not_congr ?_
  obtain ⟨limitId, -, hget⟩ := List.mem_filterMap.mp hmem
  obtain ⟨created, hnew⟩ := hreg.eq_new limitId limit (Option.filter_eq_some_iff.mp hget).1
  rw [BudgetLimit.exceeded_iff, hnew,
    BudgetLimit.charged_new _ _ (BudgetManager.charges_sorted _ _ hsorted)]
  rfl

theorem LimitTerms.ExceededBy.mono {kind : ℚ → Prop} {terms : LimitTerms}
    {cost daily daily' monthly monthly' : ℚ} (h : terms.ExceededBy kind cost daily monthly)
    (hdaily : daily ≤ daily') (hmonthly : monthly ≤ monthly') :
    terms.ExceededBy kind cost daily' monthly' := by
  obtain ⟨limit, amount, hmem, hkind, hlt⟩ := h
  simp only [bounds, List.mem_cons, List.not_mem_nil, or_false, Prod.mk.injEq] at hmem
  rcases hmem with ⟨hlimit, rfl⟩ | ⟨hlimit, rfl⟩ | ⟨hlimit, rfl⟩
  · exact ⟨limit, amount, by simp [bounds, hlimit], hkind, hlt⟩
  · exact ⟨limit, daily' + cost, by simp [bounds, hlimit], hkind,
      hlt.trans_le (add_le_add_left hdaily cost)⟩
  · exact ⟨limit, monthly' + cost, by simp [bounds, hlimit], hkind,
      hlt.trans_le (add_le_add_left hmonthly cost)⟩

variable (limits) in
theorem carriedOver_of_overrun (hsorted : calls.Pairwise fun c c' => c.1 ≤ c'.1)
    (hnow : ∀ c ∈ calls, c.1 ≤ s.now) (hcosts : ∀ c ∈ calls, 0 ≤ c.2.cost)
    (h : Overrun limits calls s (· ≠ 0)) : CarriedOver limits calls s := by
  obtain ⟨terms, ⟨hterms, happ⟩, hexceeded⟩ := h
  have hlisted (tenantId : String) (operationType : Option String)
      (h : terms.Applies tenantId operationType) :
      terms ∈ (BudgetManager.configured limits).termsFor tenantId operationType :=
    (BudgetManager.registered_configured limits).mem_termsFor hterms h
  have hsub := BudgetManager.recorded_sublist hlisted calls
  have hcharge (c : DateTime × ℚ)
      (hc : c ∈ (BudgetManager.configured limits).charges terms.limitId calls) :
      c.1 ≤ s.now ∧ 0 ≤ c.2 := by
    obtain ⟨call, hcall, hc⟩ := List.mem_flatMap.mp hc
    rw [(BudgetManager.chargesOf_fst hc).1, (BudgetManager.chargesOf_fst hc).2]
    exact ⟨hnow call hcall, hcosts call hcall⟩
  have hcounter {κ : Type} [LinearOrder κ] (key : DateTime → κ)
      (hmono : ∀ s t : DateTime, s ≤ t → key s ≤ key t) :
      inPeriod key s.now (terms.recorded calls) ≤
        onLast key ((BudgetManager.configured limits).charges terms.limitId calls) :=
    (inPeriod_mono hsub fun c hc => (hcharge c hc).2).trans
      (inPeriod_le_onLast hmono (BudgetManager.charges_sorted _ _ hsorted)
        (fun c hc => (hcharge c hc).1) fun c hc => (hcharge c hc).2)
  exact ⟨terms, hlisted _ _ happ, hexceeded.mono
    (hcounter DateTime.date fun _ _ => DateTime.date_mono)
    (hcounter DateTime.calendarMonth fun _ _ => DateTime.calendarMonth_mono)⟩

/-- **Budgets against the calendar**: `check_budget` gives the calendar's answer exactly when no
limit set to zero is overrun that the code alone lets pass, and no charges of an earlier day or
month, or ones that are not the limit's, stand in the way of what the calendar allows. -/
theorem answer_eq_calendar_iff (hsorted : calls.Pairwise fun c c' => c.1 ≤ c'.1)
    (hnow : ∀ c ∈ calls, c.1 ≤ s.now) (hcosts : ∀ c ∈ calls, 0 ≤ c.2.cost) :
    (answer limits calls s = true ↔ WithinBudget limits calls s) ↔
      (Overrun limits calls s (· = 0) → CarriedOver limits calls s) ∧
        (CarriedOver limits calls s →
          Overrun limits calls s (· = 0) ∨ Overrun limits calls s (· ≠ 0)) := by
  have hother := carriedOver_of_overrun limits hsorted hnow hcosts
  rw [answer_iff hsorted, withinBudget_iff]
  tauto

def tenADay : LimitTerms where
  limitId := "limit-1"
  tenantId := some "tenant-1"
  operationType := none
  dailyLimit := some 10

def eightSpent : List (DateTime × Call) := [(⟨2026, 1, 1, 0⟩, .recordCost "tenant-1" 8 none)]

def fiveMore : Spending := ⟨⟨2026, 1, 2, 0⟩, "tenant-1", 5, none⟩

theorem answer_eq_calendar_iff_next_day :
    (answer [(tenADay, ⟨2026, 1, 1, 0⟩)] eightSpent fiveMore = true ↔
        WithinBudget [(tenADay, ⟨2026, 1, 1, 0⟩)] eightSpent fiveMore) ↔
      (Overrun [(tenADay, ⟨2026, 1, 1, 0⟩)] eightSpent fiveMore (· = 0) →
          CarriedOver [(tenADay, ⟨2026, 1, 1, 0⟩)] eightSpent fiveMore) ∧
        (CarriedOver [(tenADay, ⟨2026, 1, 1, 0⟩)] eightSpent fiveMore →
          Overrun [(tenADay, ⟨2026, 1, 1, 0⟩)] eightSpent fiveMore (· = 0) ∨
            Overrun [(tenADay, ⟨2026, 1, 1, 0⟩)] eightSpent fiveMore (· ≠ 0)) :=
  answer_eq_calendar_iff (List.pairwise_singleton ..)
    (List.forall_mem_singleton.mpr (by decide)) (List.forall_mem_singleton.mpr (by decide))

/-- The next day's request is refused for what was spent the day before. -/
theorem answer_ne_calendar :
    ¬ ∀ (limits : List (LimitTerms × DateTime)) (calls : List (DateTime × Call)) (s : Spending),
      (calls.Pairwise fun c c' => c.1 ≤ c'.1) → (∀ c ∈ calls, c.1 ≤ s.now) →
      (∀ c ∈ calls, 0 ≤ c.2.cost) → 0 ≤ s.cost →
      (answer limits calls s = true ↔ WithinBudget limits calls s) := by
  intro h
  have h := h [(tenADay, ⟨2026, 1, 1, 0⟩)] eightSpent fiveMore (List.pairwise_singleton ..)
    (List.forall_mem_singleton.mpr (by decide)) (List.forall_mem_singleton.mpr (by decide))
    (by decide)
  have hrefused : answer [(tenADay, ⟨2026, 1, 1, 0⟩)] eightSpent fiveMore = false := by
    decide +kernel
  refine absurd (h.mpr ?_) (by rw [hrefused]; exact Bool.false_ne_true)
  rintro terms ⟨hterms, -⟩ limit amount hmem
  rw [List.mem_singleton.mp hterms] at hmem
  simp only [BudgetLimit.new, LimitTerms.bounds, tenADay, List.mem_cons, List.not_mem_nil,
    or_false, Prod.mk.injEq, reduceCtorEq, false_and, false_or, Option.some.injEq] at hmem
  obtain ⟨rfl, rfl⟩ := hmem
  decide +kernel

end EnhancedAgentBus.LlmAdapters
