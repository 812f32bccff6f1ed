import EnhancedAgentBus.Lib.Dict
import Mathlib.Algebra.Order.Field.Basic
import Mathlib.Algebra.Order.Field.Rat
import Mathlib.Data.Finset.Card
import Mathlib.Data.List.Pairwise

/-!
# Representative statements

`select_diverse_representative_statements` goes through the statements that have votes in a cluster,
the most central first, and takes one unless it is too similar to one taken before.  So what it
leaves out has a cause (`GreedyMaximal`).

Scores are exact.  What Python's tables of characters say is a parameter.
-/

namespace EnhancedAgentBus.Governance

/-- `str.lower`, and what `\w` matches. -/
structure CharTable where
  lower : String → String
  isWord : Char → Bool

structure OpinionCluster where
  memberStakeholders : List String

/-- The contents of the statements, and the votes on them: 1, -1 or 0. -/
structure PolisEngine where
  statements : Dict String String
  votingMatrix : Dict String (Dict String ℤ)

namespace PolisEngine

/-! ## The code -/

section Code

variable (E : PolisEngine) (cluster : OpinionCluster)

def clusterVotes (statementId : String) : Dict String ℤ :=
  cluster.memberStakeholders.foldl
    (fun votes stakeholderId =>
      match (E.votingMatrix.nested statementId).get stakeholderId with
      | none => votes
      | some vote => votes.set stakeholderId vote) .empty

def calculateStatementCentrality (statementId : String) : ℚ :=
  let votes := (E.clusterVotes cluster statementId).values
  if E.statements.get statementId = none ∨ votes = [] then 0
  else
    let participationRate : ℚ := votes.length / max 1 cluster.memberStakeholders.length
    let agreementRate : ℚ := votes.count 1 / votes.length
    let consensusStrength : ℚ :=
      (((votes.count 1 : ℚ) - votes.count (-1)) / votes.length + 1) / 2
    min 1 (max 0 (3 / 10 * participationRate + 4 / 10 * agreementRate + 3 / 10 * consensusStrength))

/-- `set(re.findall(r"\b\w+\b", content.lower()))` -/
def tokens (U : CharTable) (content : String) : Finset String :=
  ((((U.lower content).toList.splitOnP fun c => !U.isWord c).filter (· ≠ [])).map
    String.ofList).toFinset

def calculateStatementSimilarity (U : CharTable) (statementId1 statementId2 : String) : ℚ :=
  match E.statements.get statementId1, E.statements.get statementId2 with
  | some content1, some content2 =>
    if statementId1 = statementId2 then 1
    else
      let tokens1 := tokens U content1
      let tokens2 := tokens U content2
      if tokens1 = ∅ ∧ tokens2 = ∅ then 1
      else if tokens1 = ∅ ∨ tokens2 = ∅ then 0
      else (tokens1 ∩ tokens2).card / (tokens1 ∪ tokens2).card
  | _, _ => 0

/-- `_get_sorted_statement_scores`: the sort is stable. -/
def getSortedStatementScores : List (String × ℚ) :=
  ((E.statements.keys.map fun id => (id, E.calculateStatementCentrality cluster id)).filter
    fun s => 0 < s.2).mergeSort fun s s' => decide (s'.2 ≤ s.2)

def calculateMaxSimilarity (U : CharTable) (candidateId : String) (selected : List String) : ℚ :=
  selected.foldl
    (fun similarity id => max similarity (E.calculateStatementSimilarity U candidateId id)) 0

/-- The loop of `_select_diverse_candidates`. -/
def selectDiverseCandidates (U : CharTable) (topN : ℕ) (threshold : ℚ) :
    List (String × ℚ) → List String → List String
  | [], selected => selected
  | (id, _) :: rest, selected =>
    if selected = [] then selectDiverseCandidates U topN threshold rest [id]
    else if topN ≤ selected.length then selected
    else if E.calculateMaxSimilarity U id selected < threshold then
      selectDiverseCandidates U topN threshold rest (selected ++ [id])
    else selectDiverseCandidates U topN threshold rest selected

def validatedTopN (topN : ℤ) : ℕ := if topN < 1 then 5 else if 10 < topN then 10 else topN.toNat

def validatedThreshold (threshold : ℚ) : ℚ :=
  if threshold < 0 ∨ 1 < threshold then max 0 (min 1 threshold) else threshold

def selectRepresentativeStatements (topN : ℤ) : List String :=
  if cluster.memberStakeholders = [] then []
  else ((E.getSortedStatementScores cluster).take (validatedTopN topN)).map Prod.fst

def selectDiverseRepresentativeStatements (U : CharTable) (topN : ℤ) (threshold : ℚ) :
    List String :=
  if cluster.memberStakeholders = [] then []
  else if 1 ≤ validatedThreshold threshold then
    E.selectRepresentativeStatements cluster (validatedTopN topN)
  else
    E.selectDiverseCandidates U (validatedTopN topN) (validatedThreshold threshold)
      (E.getSortedStatementScores cluster) []

end Code

/-! ## What is asked of a selection -/

/-- The statements with a positive centrality, the most central first. -/
def order (E : PolisEngine) (cluster : OpinionCluster) : List String :=
  (E.getSortedStatementScores cluster).map Prod.fst

/-- `b` stands before `a`. -/
def Precedes (order : List String) (b a : String) : Prop :=
  ∃ before after, order = before ++ a :: after ∧ b ∈ before

/-- A selection of at most `n` in this order.  Another statement is left out for one before it that
it is too similar to, or comes after `n` others. -/
structure GreedyMaximal (similarity : String → String → ℚ) (n : ℕ) (threshold : ℚ)
    (order selected : List String) : Prop where
  sublist : selected.Sublist order
  length : selected.length ≤ n
  diverse : ∀ a ∈ selected, ∀ b ∈ selected, a ≠ b → similarity a b < threshold
  maximal : ∀ a ∈ order, a ∉ selected →
    (∃ b ∈ selected, Precedes order b a ∧ threshold ≤ similarity a b) ∨
      selected.length = n ∧ ∀ b ∈ selected, Precedes order b a

variable {E : PolisEngine} {U : CharTable} {threshold : ℚ} {n : ℕ}

theorem calculateStatementSimilarity_comm (E : PolisEngine) (U : CharTable) (a b : String) :
    E.calculateStatementSimilarity U a b = E.calculateStatementSimilarity U b a := by
  unfold calculateStatementSimilarity
  rcases E.statements.get a with _ | x <;> rcases E.statements.get b with _ | y
  · rfl
  · rfl
  · rfl
  · simp only [eq_comm (a := a), and_comm (a := tokens U x = ∅), or_comm (a := tokens U x = ∅),
      Finset.inter_comm (tokens U x), Finset.union_comm (tokens U x)]

theorem calculateStatementSimilarity_nonneg (E : PolisEngine) (U : CharTable) (a b : String) :
    0 ≤ E.calculateStatementSimilarity U a b := by
  unfold calculateStatementSimilarity
  split
  · split_ifs
    · exact zero_le_one
    · dsimp only
      split_ifs
      · exact zero_le_one
      · exact le_rfl
      · exact div_nonneg (Nat.cast_nonneg _) (Nat.cast_nonneg _)
  · exact le_rfl

theorem le_foldl_max {f : String → ℚ} (selected : List String) (m : ℚ) :
    threshold ≤ selected.foldl (fun m id => max m (f id)) m ↔
      threshold ≤ m ∨ ∃ id ∈ selected, threshold ≤ f id := by
  induction selected generalizing m with
  | nil => simp
  | cons id selected ih => rw [List.foldl_cons, ih, le_max_iff, List.exists_mem_cons_iff, or_assoc]

/-- What the loop has selected from the statements before. -/
structure Selected (similarity : String → String → ℚ) (n : ℕ) (threshold : ℚ)
    (order before selected : List String) : Prop where
  sublist : selected.Sublist before
  length : selected.length ≤ n
  diverse : selected.Pairwise fun b a => similarity a b < threshold
  maximal : ∀ a ∈ before, a ∉ selected →
    ∃ b ∈ selected, Precedes order b a ∧ threshold ≤ similarity a b

theorem Selected.diverse_of_ne {order before selected : List String}
    (h : Selected (E.calculateStatementSimilarity U) n threshold order before selected) :
    ∀ a ∈ selected, ∀ b ∈ selected, a ≠ b → E.calculateStatementSimilarity U a b < threshold := by
  have hsymm : Std.Symm fun b a => E.calculateStatementSimilarity U a b < threshold := by
    refine ⟨fun b a hlt => ?_⟩
    rwa [calculateStatementSimilarity_comm]
  exact fun a ha b hb hne => h.diverse.forall hb ha hne.symm

theorem calculateMaxSimilarity_lt {a : String} {selected : List String}
    (h : E.calculateMaxSimilarity U a selected < threshold) :
    ∀ b ∈ selected, E.calculateStatementSimilarity U a b < threshold := by
  intro b hb
  refine lt_of_not_ge fun hge => not_le_of_gt h ?_
  exact (le_foldl_max selected 0).mpr (.inr ⟨b, hb, hge⟩)

theorem le_calculateMaxSimilarity {a : String} {selected : List String} (hne : selected ≠ [])
    (h : threshold ≤ E.calculateMaxSimilarity U a selected) :
    ∃ b ∈ selected, threshold ≤ E.calculateStatementSimilarity U a b := by
  rcases (le_foldl_max selected 0).mp h with hzero | hsome
  · obtain ⟨b, hb⟩ := List.exists_mem_of_ne_nil selected hne
    exact ⟨b, hb, hzero.trans (E.calculateStatementSimilarity_nonneg U a b)⟩
  · exact hsome

/-- **The loop** -/
theorem Selected.greedyMaximal (hn : 1 ≤ n) {order before selected : List String}
    (rest : List (String × ℚ))
    (h : Selected (E.calculateStatementSimilarity U) n threshold order before selected)
    (hstarted : selected = [] → before = []) (horder : order = before ++ rest.map Prod.fst) :
    GreedyMaximal (E.calculateStatementSimilarity U) n threshold order
      (E.selectDiverseCandidates U n threshold rest selected) := by
  induction rest generalizing before selected with
  | nil =>
    rw [List.map_nil, List.append_nil] at horder
    subst horder
    exact ⟨h.sublist, h.length, h.diverse_of_ne, fun a ha hnot => .inl (h.maximal a ha hnot)⟩
  | cons s rest ih =>
    obtain ⟨id, score⟩ := s
    have hnext : order = (before ++ [id]) ++ rest.map Prod.fst := by
      rw [horder, List.map_cons, List.append_assoc, List.singleton_append]
    rw [selectDiverseCandidates]
    split
    · rename_i hnil
      subst hnil
      cases hstarted rfl
      refine ih ⟨List.Sublist.refl _, hn, List.pairwise_singleton _ _, ?_⟩ (by simp) hnext
      exact fun a ha hnot => absurd ha hnot
    · rename_i hne
      have hstarted' (l : List String) : selected ++ l = [] → before ++ [id] = [] := fun heq =>
        absurd (List.append_eq_nil_iff.mp heq).1 hne
      split
      · rename_i hfull
        refine ⟨horder ▸ h.sublist.trans (List.sublist_append_left _ _), h.length,
          h.diverse_of_ne, fun a ha hnot => ?_⟩
        rw [horder, List.mem_append] at ha
        rcases ha with hbefore | hrest
        · exact .inl (h.maximal a hbefore hnot)
        · obtain ⟨l, l', hsplit⟩ := List.append_of_mem hrest
          refine .inr ⟨Nat.le_antisymm h.length hfull, fun b hb => ⟨before ++ l, l', ?_, ?_⟩⟩
          · rw [horder, hsplit, List.append_assoc]
          · exact List.mem_append_left l (h.sublist.subset hb)
      · rename_i hroom
        split
        · rename_i hdiverse
          refine ih ⟨h.sublist.append_right [id], ?_, ?_, fun a ha hnot => ?_⟩ (hstarted' [id])
            hnext
          · rw [List.length_append, List.length_singleton]
            omega
          · rw [List.pairwise_append]
            refine ⟨h.diverse, List.pairwise_singleton _ _, fun b hb a ha => ?_⟩
            rw [List.mem_singleton.mp ha]
            exact calculateMaxSimilarity_lt hdiverse b hb
          · rw [List.mem_append, not_or] at hnot
            obtain ⟨b, hb, hcause⟩ :=
              h.maximal a ((List.mem_append.mp ha).resolve_right hnot.2) hnot.1
            exact ⟨b, List.mem_append_left _ hb, hcause⟩
        · rename_i hsimilar
          refine ih ⟨h.sublist.trans (List.sublist_append_left _ _), h.length, h.diverse,
            fun a ha hnot => ?_⟩ (fun heq => absurd heq hne) hnext
          rcases List.mem_append.mp ha with hbefore | hid
          · exact h.maximal a hbefore hnot
          · obtain ⟨b, hb, hge⟩ := le_calculateMaxSimilarity hne (le_of_not_gt hsimilar)
            rw [List.mem_singleton.mp hid]
            exact ⟨b, hb, ⟨before, rest.map Prod.fst, horder, h.sublist.subset hb⟩, hge⟩

theorem one_le_validatedTopN (topN : ℤ) :
    1 ≤ validatedTopN topN ∧ validatedTopN (validatedTopN topN) = validatedTopN topN := by
  unfold validatedTopN
  split_ifs <;> omega

theorem mem_getSortedStatementScores {cluster : OpinionCluster} {s : String × ℚ} :
    s ∈ E.getSortedStatementScores cluster ↔
      s.2 = E.calculateStatementCentrality cluster s.1 ∧ 0 < s.2 := by
  rw [getSortedStatementScores, List.mem_mergeSort, List.mem_filter, List.mem_map]
  constructor
  · rintro ⟨⟨id, -, rfl⟩, hpos⟩
    exact ⟨rfl, of_decide_eq_true hpos⟩
  · rintro ⟨hscore, hpos⟩
    refine ⟨⟨s.1, ?_, Prod.ext rfl hscore.symm⟩, decide_eq_true hpos⟩
    rcases hget : E.statements.get s.1 with _ | content
    · rw [hscore, calculateStatementCentrality, if_pos (.inl hget)] at hpos
      exact absurd hpos (lt_irrefl 0)
    · exact Dict.mem_keys_iff.mpr ⟨content, hget⟩

/-- The order goes by centrality, and has the statements for which it is positive. -/
theorem order_spec (E : PolisEngine) (cluster : OpinionCluster) :
    (E.order cluster).Pairwise (fun a b => E.calculateStatementCentrality cluster b ≤
      E.calculateStatementCentrality cluster a) ∧
    ∀ a, a ∈ E.order cluster ↔ 0 < E.calculateStatementCentrality cluster a := by
  have hsorted : (E.getSortedStatementScores cluster).Pairwise fun s s' => s'.2 ≤ s.2 := by
    refine (List.pairwise_mergeSort (fun s s' s'' h h' => ?_) (fun s s' => ?_) _).imp fun h =>
      of_decide_eq_true h
    · exact decide_eq_true ((of_decide_eq_true h').trans (of_decide_eq_true h))
    · simpa using le_total s'.2 s.2
  constructor
  · rw [order, List.pairwise_map]
    refine hsorted.imp_of_mem fun hs hs' h => ?_
    rwa [← (mem_getSortedStatementScores.mp hs).1, ← (mem_getSortedStatementScores.mp hs').1]
  · intro a
    rw [order, List.mem_map]
    constructor
    · rintro ⟨s, hs, rfl⟩
      obtain ⟨hscore, hpos⟩ := mem_getSortedStatementScores.mp hs
      exact hscore ▸ hpos
    · intro hpos
      exact ⟨(a, _), mem_getSortedStatementScores.mpr ⟨rfl, hpos⟩, rfl⟩

/-- **The greedy maximal diverse choice**, where `top_n` counts as 5 below 1 and as 10 above 10. -/
theorem selectDiverse_greedyMaximal (E : PolisEngine) (cluster : OpinionCluster) (U : CharTable)
    (topN : ℤ) (h0 : 0 ≤ threshold) (h1 : threshold < 1) :
    GreedyMaximal (E.calculateStatementSimilarity U) (validatedTopN topN) threshold
        (E.order cluster) (E.selectDiverseRepresentativeStatements cluster U topN threshold) ∧
      (E.order cluster).Pairwise (fun a b => E.calculateStatementCentrality cluster b ≤
        E.calculateStatementCentrality cluster a) ∧
      (∀ a, a ∈ E.order cluster ↔ 0 < E.calculateStatementCentrality cluster a) ∧
      E.selectDiverseRepresentativeStatements cluster U topN 1 =
        E.selectRepresentativeStatements cluster topN := by
  obtain ⟨hpairwise, hmem⟩ := E.order_spec cluster
  have hthreshold : validatedThreshold threshold = threshold :=
    if_neg (not_or.mpr ⟨not_lt_of_ge h0, not_lt_of_ge h1.le⟩)
  refine ⟨?_, hpairwise, hmem, ?_⟩
  · rw [selectDiverseRepresentativeStatements]
    split_ifs with hmembers hone
    · have hnil : E.order cluster = [] := by
        rw [List.eq_nil_iff_forall_not_mem]
        intro a ha
        have hzero : E.calculateStatementCentrality cluster a = 0 := by
          rw [calculateStatementCentrality, clusterVotes, hmembers]
          exact if_pos (.inr rfl)
        exact absurd ((hmem a).mp ha) (hzero.symm ▸ lt_irrefl 0)
      rw [hnil]
      exact ⟨List.Sublist.refl _, Nat.zero_le _, fun a ha => absurd ha List.not_mem_nil,
        fun a ha => absurd ha List.not_mem_nil⟩
    · exact absurd (hthreshold ▸ hone) (not_le_of_gt h1)
    · rw [hthreshold]
      refine Selected.greedyMaximal (one_le_validatedTopN topN).1 _
        ⟨List.Sublist.refl _, Nat.zero_le _, List.Pairwise.nil, ?_⟩ (fun _ => rfl) rfl
      exact fun a ha => absurd ha List.not_mem_nil
  · rw [selectDiverseRepresentativeStatements, if_pos (show 1 ≤ validatedThreshold 1 by decide)]
    rw [selectRepresentativeStatements, selectRepresentativeStatements,
      (one_le_validatedTopN topN).2]
    split <;> rfl

def ascii : CharTable := ⟨id, Char.isAlphanum⟩

/-- A statement that a resident agrees with. -/
def parks : PolisEngine where
  statements := Dict.empty.set "more" "more parks"
  votingMatrix := Dict.empty.set "more" (Dict.empty.set "resident" 1)

theorem selectDiverse_greedyMaximal_parks :
    GreedyMaximal (parks.calculateStatementSimilarity ascii) 5 (1 / 2)
      (parks.order ⟨["resident"]⟩)
      (parks.selectDiverseRepresentativeStatements ⟨["resident"]⟩ ascii 5 (1 / 2)) :=
  (selectDiverse_greedyMaximal parks ⟨["resident"]⟩ ascii 5 (by decide +kernel)
    (by decide +kernel)).1

/-- None is asked for, and one is selected. -/
theorem noneAsked_selectsOne : ¬∀ (E : PolisEngine) cluster U (topN : ℤ) (threshold : ℚ),
    0 ≤ threshold → threshold < 1 →
      (E.selectDiverseRepresentativeStatements cluster U topN threshold).length ≤ topN := by
  intro h
  have hnone := h parks ⟨["resident"]⟩ ascii 0 (1 / 2) (by decide +kernel) (by decide +kernel)
  have hscores : (parks.statements.keys.map fun id =>
      (id, parks.calculateStatementCentrality ⟨["resident"]⟩ id)).filter (fun s => 0 < s.2) =
        [("more", 1)] := by decide +kernel
  rw [selectDiverseRepresentativeStatements, getSortedStatementScores, hscores,
    List.mergeSort_singleton] at hnone
  revert hnone
  decide +kernel

end PolisEngine

end EnhancedAgentBus.Governance
