import Mathlib.Data.List.Basic
import Mathlib.Data.Rat.Defs

/-!
# Trajectories of the trace collector

A history is cut after each decision of high or critical impact, and the pieces with enough
decisions become the trajectories that the risk model learns from.  By the module's own definition a
trajectory is unsafe if any of its decisions was blocked, or if it ends with high or critical
impact; `_build_record` asks whether the last decision was blocked.  Of a ledger the labels are
right, since an entry that was blocked has high impact.
-/

namespace EnhancedAgentBus.AdaptiveGovernance

inductive ImpactLevel where
  | negligible
  | low
  | medium
  | high
  | critical
  deriving DecidableEq

/-- `N_STATES` -/
abbrev nStates : ℕ := 5

/-- `IMPACT_TO_STATE` -/
def impactToState : ImpactLevel → Fin nStates
  | .negligible => 0
  | .low => 1
  | .medium => 2
  | .high => 3
  | .critical => 4

/-- What `__post_init__` lets through, over some number of states. -/
structure TrajectoryRecord (n : ℕ) where
  states : List (Fin n)
  nonempty : states ≠ []
  terminalUnsafe : Bool
  sessionId : Option String := none
  timestamp : String
  /-- `metadata["source"]` -/
  source : Option String := none

structure GovernanceDecision where
  impactLevel : ImpactLevel
  actionAllowed : Bool
  timestamp : String

/-- What is read of an audit entry: whether it is allowed, how many violations it has. -/
structure AuditEntry where
  allowed : Bool := true
  violations : ℕ := 0
  processingTimeMs : ℚ := 0

/-- What a block of the ledger holds under `data`. -/
inductive BlockData where
  | absent
  | genesis
  | audit (entry : AuditEntry)

inductive CollectError where
  | indexError
  | valueError (message : String)

namespace TraceCollector

/-- `impact_level in UNSAFE_TERMINAL_STATES` -/
def isUnsafeTerminal (decision : GovernanceDecision) : Bool :=
  decision.impactLevel = .high || decision.impactLevel = .critical

/-- Cut after each element that ends a trajectory; `flush` makes the record of such a piece, and
`rest` the one of what is left. -/
def collectLoop {α ρ : Type} (minLength : ℕ) (ends : α → Bool)
    (flush rest : List α → Except CollectError ρ) :
    List ρ → List α → List α → Except CollectError (List ρ)
  | records, current, [] =>
    if minLength ≤ current.length then (rest current).map fun r => records ++ [r]
    else .ok records
  | records, current, a :: l =>
    if ends a then
      if minLength ≤ (current ++ [a]).length then
        match flush (current ++ [a]) with
        | .error e => .error e
        | .ok r => collectLoop minLength ends flush rest (records ++ [r]) [] l
      else collectLoop minLength ends flush rest records [] l
    else collectLoop minLength ends flush rest records (current ++ [a]) l

def buildRecord (sessionId : Option String) (decisions : List GovernanceDecision) :
    Except CollectError (TrajectoryRecord nStates) :=
  match h : decisions with
  | [] => .error .indexError
  | first :: others =>
    let last := (first :: others).getLast (List.cons_ne_nil first others)
    .ok
      { states := decisions.map fun d => impactToState d.impactLevel
        nonempty := by simp [h]
        terminalUnsafe := isUnsafeTerminal last || !last.actionAllowed
        sessionId := sessionId
        timestamp := last.timestamp }

def collectFromDecisionHistory (decisions : List GovernanceDecision)
    (sessionId : Option String := none) (minLength : ℕ := 2) :
    Except CollectError (List (TrajectoryRecord nStates)) :=
  if decisions.length < minLength then .ok []
  else collectLoop minLength isUnsafeTerminal (buildRecord sessionId) (buildRecord sessionId) [] []
    decisions

def entryToState (entry : AuditEntry) : Fin nStates :=
  if !entry.allowed then
    if 1 < entry.violations then impactToState .critical else impactToState .high
  else if 5 < entry.processingTimeMs then impactToState .medium
  else if 1 < entry.processingTimeMs then impactToState .low
  else impactToState .negligible

/-- `state >= IMPACT_TO_STATE[ImpactLevel.HIGH]` -/
def isHigh (state : Fin nStates) : Bool := impactToState .high ≤ state

def ledgerRecord (now : String) (terminalUnsafe : Bool) (states : List (Fin nStates)) :
    Except CollectError (TrajectoryRecord nStates) :=
  if h : states = [] then .error (.valueError "TrajectoryRecord.states must be non-empty")
  else .ok
    { states := states
      nonempty := h
      terminalUnsafe := terminalUnsafe
      timestamp := now
      source := some "blockchain_ledger" }

def auditEntries (blocks : List BlockData) : List AuditEntry :=
  blocks.filterMap fun
    | .audit entry => some entry
    | _ => none

def collectFromLedgerBlocks (now : String) (blocks : List BlockData) (minLength : ℕ := 2) :
    Except CollectError (List (TrajectoryRecord nStates)) :=
  let entries := auditEntries blocks
  if entries.length < minLength then .ok []
  else collectLoop minLength isHigh (ledgerRecord now true) (ledgerRecord now false) [] []
    (entries.map entryToState)

/-! ## Segments -/

section Segments

variable {α ρ : Type}

/-- The pieces that end as they should, and what is left, after some elements. -/
def cut (ends : α → Bool) : List α → List α → List (List α) × List α
  | current, [] => ([], current)
  | current, a :: l =>
    if ends a then ((current ++ [a]) :: (cut ends [] l).1, (cut ends [] l).2)
    else cut ends (current ++ [a]) l

structure IsCut (ends : α → Bool) (l : List α) (pieces : List (List α)) (rest : List α) : Prop where
  flatten : pieces.flatten ++ rest = l
  ended : ∀ piece ∈ pieces, ∃ others last, piece = others ++ [last] ∧ ends last = true ∧
    ∀ a ∈ others, ends a = false
  rest : ∀ a ∈ rest, ends a = false

theorem isCut_cut (ends : α → Bool) {current : List α} (hcurrent : ∀ a ∈ current, ends a = false)
    (l : List α) : IsCut ends (current ++ l) (cut ends current l).1 (cut ends current l).2 := by
  induction l generalizing current with
  | nil => exact ⟨(List.append_nil _).symm, fun _ h => absurd h List.not_mem_nil, hcurrent⟩
  | cons a l ih =>
    rw [cut]
    split
    · rename_i ha
      obtain ⟨hflatten, hended, hrest⟩ := ih (List.forall_mem_nil _)
      refine ⟨?_, ?_, hrest⟩
      · rw [List.flatten_cons, List.append_assoc, hflatten, List.append_assoc]
        rfl
      · rintro piece (_ | ⟨_, hpiece⟩)
        · exact ⟨current, a, rfl, ha, hcurrent⟩
        · exact hended piece hpiece
    · rename_i ha
      have hnext : ∀ b ∈ current ++ [a], ends b = false := by
        intro b hb
        obtain hb | hb := List.mem_append.mp hb
        · exact hcurrent b hb
        · rw [List.mem_singleton.mp hb]
          exact Bool.eq_false_iff.mpr ha
      have hcut := ih hnext
      rwa [List.append_assoc] at hcut

theorem cut_map {β : Type} (f : α → β) (ends : β → Bool) (current l : List α) :
    cut ends (current.map f) (l.map f) =
      ((cut (ends ∘ f) current l).1.map (List.map f), (cut (ends ∘ f) current l).2.map f) := by
  induction l generalizing current with
  | nil => rfl
  | cons a l ih =>
    have hnext : current.map f ++ [f a] = (current ++ [a]).map f := by simp
    have hnil := ih []
    rw [List.map_nil] at hnil
    rw [List.map_cons, cut, cut, hnext, ih (current ++ [a]), hnil, Function.comp_apply]
    split <;> rfl

def long (minLength : ℕ) (pieces : List (List α)) : List (List α) :=
  pieces.filter fun piece => minLength ≤ piece.length

theorem long_map {β : Type} (f : α → β) (minLength : ℕ) (pieces : List (List α)) :
    long minLength (pieces.map (List.map f)) = (long minLength pieces).map (List.map f) := by
  simp only [long, List.filter_map, Function.comp_def, List.length_map]

theorem long_append (minLength : ℕ) (pieces pieces' : List (List α)) :
    long minLength (pieces ++ pieces') = long minLength pieces ++ long minLength pieces' :=
  List.filter_append ..

theorem long_cons (minLength : ℕ) (piece : List α) (pieces : List (List α)) :
    long minLength (piece :: pieces) =
      if minLength ≤ piece.length then piece :: long minLength pieces
      else long minLength pieces := by
  simp only [long, List.filter_cons, decide_eq_true_eq]

/-- **The loop**, where records can be made: they are those of the pieces that are long enough. -/
theorem collectLoop_eq {ω : Type} (view : ρ → ω) {minLength : ℕ} (hmin : 1 ≤ minLength)
    (ends : α → Bool) {flush rest : List α → Except CollectError ρ} {f g : List α → ω}
    (hflush : ∀ piece, piece ≠ [] → ∃ r, flush piece = .ok r ∧ view r = f piece)
    (hrest : ∀ piece, piece ≠ [] → ∃ r, rest piece = .ok r ∧ view r = g piece) (records : List ρ)
    (current l : List α) :
    ∃ new, collectLoop minLength ends flush rest records current l = .ok (records ++ new) ∧
      new.map view = (long minLength (cut ends current l).1).map f ++
        (long minLength [(cut ends current l).2]).map g := by
  induction l generalizing records current with
  | nil =>
    rw [collectLoop, cut, long_cons]
    split
    · rename_i h
      obtain ⟨r, hr, hview⟩ := hrest current (List.ne_nil_of_length_pos (by omega))
      exact ⟨[r], by rw [hr]; rfl, by rw [List.map_singleton, hview]; rfl⟩
    · exact ⟨[], by rw [List.append_nil], rfl⟩
  | cons a l ih =>
    rw [collectLoop, cut]
    split
    · dsimp only
      rw [long_cons]
      split
      · obtain ⟨r, hr, hview⟩ := hflush (current ++ [a]) (by simp)
        obtain ⟨new, hloop, hnew⟩ := ih (records ++ [r]) []
        refine ⟨r :: new, ?_, ?_⟩
        · rw [hr]
          exact hloop.trans (by rw [List.append_assoc]; rfl)
        · rw [List.map_cons, hnew, hview]
          rfl
      · exact ih records []
    · exact ih records (current ++ [a])

theorem length_le_of_isCut {ends : α → Bool} {l rest : List α} {pieces : List (List α)}
    (h : IsCut ends l pieces rest) {piece : List α} (hpiece : piece ∈ pieces ++ [rest]) :
    piece.length ≤ l.length := by
  have hsublist := List.sublist_flatten_of_mem hpiece
  rw [List.flatten_append, List.flatten_singleton, h.flatten] at hsublist
  exact hsublist.length_le

end Segments

/-! ## Labels -/

section Labels

variable {α : Type}

/-- A record's states and label, as the definition has them. -/
def labelled (ends blocked : α → Bool) (state : α → Fin nStates) (piece : List α) :
    List (Fin nStates) × Bool :=
  (piece.map state, piece.any blocked || piece.getLast?.any ends)

def view (r : TrajectoryRecord nStates) : List (Fin nStates) × Bool := (r.states, r.terminalUnsafe)

/-- **The records are the segments** that are long enough, labelled rightly. -/
structure Collects (ends blocked : α → Bool) (state : α → Fin nStates) (minLength : ℕ) (l : List α)
    (result : Except CollectError (List (TrajectoryRecord nStates))) : Prop where
  isCut : IsCut ends l (cut ends [] l).1 (cut ends [] l).2
  records : ∃ records, result = .ok records ∧ records.map view =
    (long minLength ((cut ends [] l).1 ++ [(cut ends [] l).2])).map (labelled ends blocked state) ∧
    ∀ r ∈ records, ∀ s ∈ r.states.dropLast, s < impactToState .high

theorem map_view_iff {ends blocked : α → Bool} {state : α → Fin nStates}
    (hstate : ∀ a, ends a = true ↔ impactToState .high ≤ state a) {minLength : ℕ}
    {l rest : List α} {pieces : List (List α)} (hcut : IsCut ends l pieces rest)
    {records : List (TrajectoryRecord nStates)} {label : List α → Bool}
    (hview : records.map view = (long minLength pieces).map (fun p => (p.map state, true)) ++
      (long minLength [rest]).map fun p => (p.map state, label p)) :
    (records.map view = (long minLength (pieces ++ [rest])).map (labelled ends blocked state) ∧
      ∀ r ∈ records, ∀ s ∈ r.states.dropLast, s < impactToState .high) ↔
      (minLength ≤ rest.length → label rest = rest.any blocked) := by
  have hlow : ∀ a, ends a = false → state a < impactToState .high := by
    intro a ha
    refine Fin.not_le.mp fun hle => ?_
    rw [(hstate a).mpr hle] at ha
    cases ha
  have hpieces : (long minLength pieces).map (fun p => (p.map state, true)) =
      (long minLength pieces).map (labelled ends blocked state) := by
    refine List.map_congr_left fun piece hpiece => ?_
    obtain ⟨others, last, rfl, hlast, -⟩ := hcut.ended piece (List.mem_filter.mp hpiece).1
    simp [labelled, hlast]
  have hrest : labelled ends blocked state rest = (rest.map state, rest.any blocked) := by
    have hnone : rest.getLast?.any ends = false := by
      rcases hlast : rest.getLast? with _ | last
      · rfl
      · exact hcut.rest last (List.mem_of_getLast? hlast)
    rw [labelled, hnone, Bool.or_false]
  have honly : ∀ r ∈ records, ∀ s ∈ r.states.dropLast, s < impactToState .high := by
    intro r hr s hs
    have hmem : view r ∈ records.map view := List.mem_map_of_mem hr
    rw [hview, List.mem_append, List.mem_map, List.mem_map] at hmem
    obtain ⟨piece, hpiece, heq⟩ | ⟨piece, hpiece, heq⟩ := hmem
    · obtain ⟨others, last, rfl, -, hothers⟩ := hcut.ended piece (List.mem_filter.mp hpiece).1
      have hstates : r.states = (others ++ [last]).map state := (congrArg Prod.fst heq).symm
      rw [hstates, List.map_append, List.map_singleton, List.dropLast_concat] at hs
      obtain ⟨a, ha, rfl⟩ := List.mem_map.mp hs
      exact hlow a (hothers a ha)
    · obtain rfl := List.mem_singleton.mp (List.mem_filter.mp hpiece).1
      have hstates : r.states = piece.map state := (congrArg Prod.fst heq).symm
      rw [hstates] at hs
      obtain ⟨a, ha, rfl⟩ := List.mem_map.mp (List.dropLast_subset _ hs)
      exact hlow a (hcut.rest a ha)
  rw [hpieces] at hview
  constructor
  · rintro ⟨hlabelled, -⟩ hlong
    rw [hview, long_append, List.map_append, List.append_cancel_left_eq,
      long_cons, if_pos hlong, List.map_cons, List.map_cons, hrest] at hlabelled
    exact congrArg Prod.snd (List.cons.inj hlabelled).1
  · intro h
    refine ⟨?_, honly⟩
    rw [hview, long_append, List.map_append, List.append_cancel_left_eq, long_cons]
    split
    · rename_i hlong
      rw [List.map_cons, List.map_cons, hrest, h hlong]
      rfl
    · rfl

theorem collects_ok_iff {ends blocked : α → Bool} {state : α → Fin nStates}
    (hstate : ∀ a, ends a = true ↔ impactToState .high ≤ state a) {minLength : ℕ} {l : List α}
    {result : Except CollectError (List (TrajectoryRecord nStates))} (label : List α → Bool)
    (hresult : ∃ records, result = .ok records ∧ records.map view =
      (long minLength (cut ends [] l).1).map (fun p => (p.map state, true)) ++
        (long minLength [(cut ends [] l).2]).map fun p => (p.map state, label p)) :
    Collects ends blocked state minLength l result ↔ (minLength ≤ (cut ends [] l).2.length →
      label (cut ends [] l).2 = (cut ends [] l).2.any blocked) := by
  have hcut := isCut_cut ends (List.forall_mem_nil _) l
  obtain ⟨records, rfl, hview⟩ := hresult
  rw [← map_view_iff hstate hcut hview]
  constructor
  · rintro ⟨-, records', hok, hlabelled⟩
    rwa [Except.ok.inj hok]
  · exact fun h => ⟨hcut, records, rfl, h⟩

end Labels

/-! ## The two collections -/

theorem long_eq_nil {α : Type} {minLength : ℕ} {pieces : List (List α)}
    (h : ∀ piece ∈ pieces, piece.length < minLength) : long minLength pieces = [] :=
  List.filter_eq_nil_iff.mpr fun piece hpiece => by simpa using h piece hpiece

/-- `terminal_unsafe` of a piece of the history. -/
def lastUnsafe (piece : List GovernanceDecision) : Bool :=
  piece.getLast?.any fun last => isUnsafeTerminal last || !last.actionAllowed

theorem buildRecord_ok (sessionId : Option String) {piece : List GovernanceDecision}
    (hpiece : piece ≠ []) : ∃ r, buildRecord sessionId piece = .ok r ∧
      view r = (piece.map fun d => impactToState d.impactLevel, lastUnsafe piece) := by
  obtain ⟨first, others, rfl⟩ := List.exists_cons_of_ne_nil hpiece
  refine ⟨_, rfl, ?_⟩
  rw [view, lastUnsafe, List.getLast?_eq_some_getLast (List.cons_ne_nil first others)]
  rfl

theorem ledgerRecord_ok (now : String) (terminalUnsafe : Bool) {piece : List (Fin nStates)}
    (hpiece : piece ≠ []) : ∃ r, ledgerRecord now terminalUnsafe piece = .ok r ∧
      view r = (piece, terminalUnsafe) :=
  ⟨_, dif_neg hpiece, rfl⟩

/-- The decisions after the last one of high or critical impact: if they are enough, and the last
of them is allowed, then so are all. -/
def RestAllowed (minLength : ℕ) (decisions : List GovernanceDecision) : Prop :=
  minLength ≤ (cut isUnsafeTerminal [] decisions).2.length →
    (∀ last ∈ (cut isUnsafeTerminal [] decisions).2.getLast?, last.actionAllowed = true) →
      ∀ d ∈ (cut isUnsafeTerminal [] decisions).2, d.actionAllowed = true

theorem exists_view {α : Type} {ends : α → Bool} {minLength : ℕ} {l : List α}
    {result : Except CollectError (List (TrajectoryRecord nStates))}
    {f g : List α → List (Fin nStates) × Bool}
    (hloop : ∃ records, result = .ok records ∧ records.map view =
      (long minLength (cut ends [] l).1).map f ++ (long minLength [(cut ends [] l).2]).map g) :
    ∃ records, (if l.length < minLength then .ok [] else result) = .ok records ∧
      records.map view =
        (long minLength (cut ends [] l).1).map f ++ (long minLength [(cut ends [] l).2]).map g := by
  split
  · rename_i hshort
    have hnil : long minLength ((cut ends [] l).1 ++ [(cut ends [] l).2]) = [] :=
      long_eq_nil fun piece hpiece => Nat.lt_of_le_of_lt (length_le_of_isCut
        (isCut_cut ends (List.forall_mem_nil _) l) hpiece) hshort
    rw [long_append, List.append_eq_nil_iff] at hnil
    exact ⟨[], rfl, by rw [hnil.1, hnil.2]; rfl⟩
  · exact hloop

theorem collects_history_iff {minLength : ℕ} (hmin : 1 ≤ minLength)
    (decisions : List GovernanceDecision) (sessionId : Option String) :
    Collects isUnsafeTerminal (fun d => !d.actionAllowed) (fun d => impactToState d.impactLevel)
      minLength decisions (collectFromDecisionHistory decisions sessionId minLength) ↔
        RestAllowed minLength decisions := by
  have hends : ∀ d, isUnsafeTerminal d = true ↔
      impactToState .high ≤ impactToState d.impactLevel := by
    intro d
    rw [isUnsafeTerminal]
    cases d.impactLevel <;> decide
  have hcut := isCut_cut isUnsafeTerminal (List.forall_mem_nil _) decisions
  obtain ⟨records, hloop, hview⟩ := collectLoop_eq view hmin isUnsafeTerminal
    (fun _ h => buildRecord_ok sessionId h) (fun _ h => buildRecord_ok sessionId h) [] [] decisions
  have hpieces : (long minLength (cut isUnsafeTerminal [] decisions).1).map
      (fun p => (p.map fun d => impactToState d.impactLevel, lastUnsafe p)) =
        (long minLength (cut isUnsafeTerminal [] decisions).1).map
          fun p => (p.map fun d => impactToState d.impactLevel, true) := by
    refine List.map_congr_left fun piece hpiece => ?_
    obtain ⟨others, last, rfl, hlast, -⟩ := hcut.ended piece (List.mem_filter.mp hpiece).1
    simp [lastUnsafe, hlast]
  rw [hpieces] at hview
  refine (collects_ok_iff hends lastUnsafe (exists_view ⟨records, hloop, hview⟩)).trans
    (forall_congr' fun _ => ?_)
  rw [lastUnsafe]
  rcases hlast : (cut isUnsafeTerminal [] decisions).2.getLast? with _ | last
  · simp [List.getLast?_eq_none_iff.mp hlast]
  · have hmem := List.mem_of_getLast? hlast
    simp only [Option.any_some, hcut.rest last hmem, Bool.false_or, Option.mem_some_iff, forall_eq']
    constructor
    · intro hlabel hallowed
      rw [hallowed, Bool.not_true, eq_comm, List.any_eq_false] at hlabel
      simpa using hlabel
    · intro hall
      by_cases hallowed : last.actionAllowed = true
      · rw [hallowed, Bool.not_true, eq_comm, List.any_eq_false]
        simpa using hall hallowed
      · rw [eq_comm, Bool.eq_false_iff.mpr hallowed, Bool.not_false, List.any_eq_true]
        exact ⟨last, hmem, by simpa using hallowed⟩

/-- **The ledger**: an entry that was blocked ends its trajectory. -/
theorem collects_ledger {minLength : ℕ} (hmin : 1 ≤ minLength) (now : String)
    (blocks : List BlockData) :
    Collects (isHigh ∘ entryToState) (fun e => !e.allowed) entryToState minLength
      (auditEntries blocks) (collectFromLedgerBlocks now blocks minLength) := by
  have hcut := isCut_cut (isHigh ∘ entryToState) (List.forall_mem_nil _) (auditEntries blocks)
  obtain ⟨records, hloop, hview⟩ := collectLoop_eq view hmin isHigh
    (fun _ h => ledgerRecord_ok now true h) (fun _ h => ledgerRecord_ok now false h) [] []
    ((auditEntries blocks).map entryToState)
  have hmap := cut_map entryToState isHigh [] (auditEntries blocks)
  rw [List.map_nil] at hmap
  have hrest := long_map entryToState minLength
    [(cut (isHigh ∘ entryToState) [] (auditEntries blocks)).2]
  rw [List.map_singleton] at hrest
  rw [hmap, long_map, hrest, List.map_map, List.map_map] at hview
  refine (collects_ok_iff (fun e => decide_eq_true_iff) (fun _ => false)
    (exists_view ⟨records, hloop, hview⟩)).mpr fun _ => ?_
  rw [eq_comm, List.any_eq_false]
  intro e he hblocked
  refine of_decide_eq_false (hcut.rest e he) ?_
  rw [entryToState, if_pos hblocked]
  split <;> decide

/-- **The records are rightly labelled segments**, of a history and of a ledger: always of the
ledger, and of the history if what is left at its end is. -/
theorem collects_iff {minLength : ℕ} (hmin : 1 ≤ minLength) (decisions : List GovernanceDecision)
    (sessionId : Option String) (now : String) (blocks : List BlockData) :
    Collects isUnsafeTerminal (fun d => !d.actionAllowed) (fun d => impactToState d.impactLevel)
        minLength decisions (collectFromDecisionHistory decisions sessionId minLength) ∧
      Collects (isHigh ∘ entryToState) (fun e => !e.allowed) entryToState minLength
        (auditEntries blocks) (collectFromLedgerBlocks now blocks minLength) ↔
      RestAllowed minLength decisions :=
  (and_iff_left (collects_ledger hmin now blocks)).trans
    (collects_history_iff hmin decisions sessionId)

theorem collects_iff_nil : Collects isUnsafeTerminal (fun d => !d.actionAllowed)
      (fun d => impactToState d.impactLevel) 1 [] (collectFromDecisionHistory [] none 1) ∧
    Collects (isHigh ∘ entryToState) (fun e => !e.allowed) entryToState 1
      (auditEntries [.audit {}]) (collectFromLedgerBlocks "" [.audit {}] 1) :=
  (collects_iff (Nat.le_refl 1) [] none "" [.audit {}]).mpr
    fun _ _ _ hd => absurd hd List.not_mem_nil

/-- A decision that was blocked, and one of low impact that was not. -/
def blockedFirst : List GovernanceDecision :=
  [{ impactLevel := .low, actionAllowed := false, timestamp := "" },
    { impactLevel := .low, actionAllowed := true, timestamp := "" }]

theorem blockedFirst_not_collects : ¬ Collects isUnsafeTerminal (fun d => !d.actionAllowed)
    (fun d => impactToState d.impactLevel) 2 blockedFirst
    (collectFromDecisionHistory blockedFirst) := by
  rintro ⟨-, records, hok, hlabelled, -⟩
  have hview : (collectFromDecisionHistory blockedFirst).map (List.map view) =
      .ok [([1, 1], false)] := rfl
  rw [hok] at hview
  rw [Except.ok.inj hview] at hlabelled
  revert hlabelled
  decide

end TraceCollector

end EnhancedAgentBus.AdaptiveGovernance
