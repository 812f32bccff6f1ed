import Mathlib.Algebra.Order.BigOperators.Group.List
import Mathlib.Algebra.Order.Ring.Int

/-!
# Streaming with overlap

A long sequence is processed in chunks.  Each chunk but the first starts some positions earlier, and
what the processor makes of these is cut off.  If the output at a position depends on no more than
that many positions before it (`Local`), the parts are those of one call on the whole sequence.

A sequence is the list of what an array of two or three dimensions holds at its positions.
-/

namespace EnhancedAgentBus.ContextMemory

variable {α : Type*}

structure StreamingResult (α : Type*) where
  outputEmbeddings : List α
  chunksStreamed : ℕ
  overlapTokens : ℕ
  totalTokens : ℕ

structure StreamingProcessor where
  bufferSize : ℕ := 8192
  overlapSize : ℕ := 819
  streamsProcessed : ℕ := 0
  totalTokens : ℕ := 0

namespace StreamingProcessor

/-- The variables of the loop, and what has been handed to the processor. -/
structure Loop (α : Type*) where
  position : ℕ := 0
  outputs : List (List α) := []
  chunksStreamed : ℕ := 0
  totalOverlap : ℕ := 0
  /-- ghost: the chunks, latest first -/
  handed : List (List α) := []

variable (P : StreamingProcessor) (processorFn : List α → List α) (embeddings : List α)

def chunkEnd (S : Loop α) : ℕ := min (S.position + P.bufferSize) embeddings.length

def chunkStart (S : Loop α) : ℕ := if 0 < S.position then S.position - P.overlapSize else S.position

def chunk (S : Loop α) : List α := (embeddings.take (P.chunkEnd embeddings S)).drop (P.chunkStart S)

def trimmed (S : Loop α) : List α :=
  let processed := processorFn (P.chunk embeddings S)
  if 0 < S.position ∧ S.outputs ≠ [] then processed.drop (S.position - P.chunkStart S)
  else processed

def chunkStep (S : Loop α) : Loop α where
  position := P.chunkEnd embeddings S
  outputs := S.outputs ++ [P.trimmed processorFn embeddings S]
  chunksStreamed := S.chunksStreamed + 1
  totalOverlap := S.totalOverlap + (S.position - P.chunkStart S)
  handed := P.chunk embeddings S :: S.handed

/-- The `while` loop, stopped after so many chunks. -/
def streamLoop : ℕ → Loop α → Option (Loop α)
  | 0, _ => none
  | fuel + 1, S =>
    if S.position < embeddings.length then
      streamLoop fuel (P.chunkStep processorFn embeddings S)
    else some S

/-- `stream_process`, with what it handed to the processor. -/
def streamProcess (fuel : ℕ) : Option (StreamingResult α × List (List α) × StreamingProcessor) :=
  (P.streamLoop processorFn embeddings fuel {}).map fun S =>
    ({ outputEmbeddings := if S.outputs = [] then embeddings else S.outputs.flatten
       chunksStreamed := S.chunksStreamed
       overlapTokens := S.totalOverlap
       totalTokens := embeddings.length }, S.handed,
      { P with
        streamsProcessed := P.streamsProcessed + 1
        totalTokens := P.totalTokens + embeddings.length })

end StreamingProcessor

/-! ## Local processors -/

/-- A position with so many positions before it, or as many as there are. -/
def window (overlap : ℕ) (l : List α) (i : ℕ) : List α := (l.take (i + 1)).drop (i - overlap)

/-- The output has the length of the input, and depends at each position on its window only. -/
structure Local (overlap : ℕ) (f : List α → List α) : Prop where
  length : ∀ l, (f l).length = l.length
  window : ∀ l l' i j, i < l.length → j < l'.length → window overlap l i = window overlap l' j →
    (f l)[i]? = (f l')[j]?

theorem window_chunk {overlap start stop i : ℕ} (l : List α) (hstop : start + i < stop)
    (hstart : start = 0 ∨ overlap ≤ i) :
    window overlap ((l.take stop).drop start) i = window overlap l (start + i) := by
  have htake : ((l.take stop).drop start).take (i + 1) = (l.take (start + i + 1)).drop start := by
    rw [List.take_drop, List.take_take, Nat.min_eq_left (by omega), Nat.add_assoc]
  rw [window, window, htake, List.drop_drop]
  congr 1
  omega

/-- **A chunk** gives what the whole sequence gives from a position on. -/
theorem Local.chunk {overlap : ℕ} {f : List α → List α} (hf : Local overlap f) {l : List α}
    (position : ℕ) {stop : ℕ} (hstop : stop ≤ l.length) :
    (f ((l.take stop).drop (position - overlap))).drop (position - (position - overlap)) =
      ((f l).take stop).drop position := by
  have hlength : ((l.take stop).drop (position - overlap)).length = stop - (position - overlap) := by
    rw [List.length_drop, List.length_take, Nat.min_eq_left hstop]
  refine List.ext_getElem? fun k => ?_
  rw [List.getElem?_drop, List.getElem?_drop]
  by_cases hk : position + k < stop
  · rw [List.getElem?_take_of_lt hk]
    refine hf.window _ _ _ _ (by omega) (by omega) ?_
    rw [window_chunk l (by omega) (by omega)]
    congr 1
    omega
  · rw [List.getElem?_eq_none (by rw [hf.length]; omega), List.getElem?_eq_none]
    rw [List.length_take]
    omega

/-! ## The loop -/

namespace StreamingProcessor

variable {P : StreamingProcessor} {processorFn : List α → List α} {embeddings : List α}

structure Streamed (processorFn : List α → List α) (embeddings : List α) (S : Loop α) : Prop where
  position : S.position ≤ embeddings.length
  outputs : S.outputs.flatten = (processorFn embeddings).take S.position
  started : 0 < S.position → S.outputs ≠ []
  overlap : S.totalOverlap + S.position = (S.handed.map List.length).sum

theorem Streamed.step (hf : Local P.overlapSize processorFn) {S : Loop α}
    (h : Streamed processorFn embeddings S) :
    Streamed processorFn embeddings (P.chunkStep processorFn embeddings S) := by
  have hstop : P.chunkEnd embeddings S ≤ embeddings.length := Nat.min_le_right _ _
  have hle : S.position ≤ P.chunkEnd embeddings S :=
    Nat.le_min.mpr ⟨Nat.le_add_right _ _, h.position⟩
  have hstart : P.chunkStart S = S.position - P.overlapSize := by
    unfold chunkStart
    split <;> omega
  have htrimmed : P.trimmed processorFn embeddings S =
      ((processorFn embeddings).take (P.chunkEnd embeddings S)).drop S.position := by
    rw [← hf.chunk S.position hstop, ← hstart]
    unfold trimmed
    split
    · rfl
    · next hfirst =>
      have hzero : S.position = 0 := by
        by_contra hne
        exact hfirst ⟨Nat.pos_of_ne_zero hne, h.started (Nat.pos_of_ne_zero hne)⟩
      rw [hzero, Nat.zero_sub]
      rfl
  refine ⟨hstop, ?_, fun _ => by simp [chunkStep], ?_⟩
  · have hprefix : (processorFn embeddings).take S.position =
        ((processorFn embeddings).take (P.chunkEnd embeddings S)).take S.position := by
      rw [List.take_take, Nat.min_eq_left hle]
    rw [chunkStep, List.flatten_append, List.flatten_singleton, htrimmed, h.outputs, hprefix]
    exact List.take_append_drop _ _
  · have hchunk : (P.chunk embeddings S).length = P.chunkEnd embeddings S - P.chunkStart S := by
      rw [chunk, List.length_drop, List.length_take, Nat.min_eq_left hstop]
    rw [chunkStep, List.map_cons, List.sum_cons, hchunk, ← h.overlap]
    dsimp only
    omega

theorem Streamed.loop (hbuffer : 1 ≤ P.bufferSize) (hf : Local P.overlapSize processorFn)
    {fuel : ℕ} {S : Loop α} (h : Streamed processorFn embeddings S)
    (hfuel : embeddings.length - S.position < fuel) :
    ∃ S', P.streamLoop processorFn embeddings fuel S = some S' ∧
      Streamed processorFn embeddings S' ∧ S'.position = embeddings.length := by
  induction fuel generalizing S with
  | zero => exact absurd hfuel (Nat.not_lt_zero _)
  | succ fuel ih =>
    rw [streamLoop]
    split
    · next hmore =>
      have hposition : (P.chunkStep processorFn embeddings S).position =
        min (S.position + P.bufferSize) embeddings.length := rfl
      exact ih (h.step hf) (by omega)
    · next hdone => exact ⟨S, rfl, h, Nat.le_antisymm h.position (Nat.le_of_not_lt hdone)⟩

/-- **Streaming is one call** of the processor on the whole sequence, and the loop ends. -/
theorem streamProcess_eq (hbuffer : 1 ≤ P.bufferSize) (hf : Local P.overlapSize processorFn)
    (embeddings : List α) {fuel : ℕ} (hfuel : embeddings.length < fuel) :
    ∃ result handed P', P.streamProcess processorFn embeddings fuel = some (result, handed, P') ∧
      result.outputEmbeddings = processorFn embeddings ∧
      result.overlapTokens + embeddings.length = (handed.map List.length).sum := by
  have hinit : Streamed processorFn embeddings {} :=
    ⟨Nat.zero_le _, rfl, fun h => absurd h (Nat.lt_irrefl 0), rfl⟩
  obtain ⟨S, hloop, h, hend⟩ := hinit.loop hbuffer hf hfuel
  have houtputs := h.outputs
  rw [hend, ← hf.length embeddings, List.take_length] at houtputs
  have hoverlap := h.overlap
  rw [hend] at hoverlap
  refine ⟨_, _, _, by rw [streamProcess, hloop]; rfl, ?_, hoverlap⟩
  dsimp only
  split
  · next hnone =>
    rw [hnone, eq_comm, List.flatten_nil, ← List.length_eq_zero_iff, hf.length,
      List.length_eq_zero_iff] at houtputs
    rw [houtputs]
    exact (List.length_eq_zero_iff.mp (hf.length [])).symm
  · exact houtputs

def windowSums (overlap : ℕ) (l : List ℤ) : List ℤ :=
  (List.range l.length).map fun i => (window overlap l i).sum

theorem local_windowSums (overlap : ℕ) : Local overlap (windowSums overlap) := by
  refine ⟨fun l => by simp [windowSums], fun l l' i j hi hj hwindow => ?_⟩
  simp [windowSums, hi, hj, hwindow]

theorem streamProcess_eq_windowSums : ∃ result handed P',
    StreamingProcessor.streamProcess { bufferSize := 2, overlapSize := 1 } (windowSums 1) [1, 2, 3]
      4 = some (result, handed, P') ∧ result.outputEmbeddings = windowSums 1 [1, 2, 3] ∧
      result.overlapTokens + 3 = (handed.map List.length).sum :=
  streamProcess_eq (P := { bufferSize := 2, overlapSize := 1 }) (by decide) (local_windowSums 1)
    [1, 2, 3] (by decide)

end StreamingProcessor

end EnhancedAgentBus.ContextMemory
