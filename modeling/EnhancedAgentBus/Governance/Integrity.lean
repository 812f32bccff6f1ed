import EnhancedAgentBus.Governance.Models
import EnhancedAgentBus.Lib.HashChain

/-!
# The signature chain of a path

The two checks of a path's signatures, and what a verified path is bound to.  `verify_chain` stops
at the first hop that breaks the chain, `check_signature_chain` goes on, and a comparison of digests
raises where a signature is not of ASCII characters: so the two differ where such a signature comes
after a break.

The last signature of a verified path determines the payloads of all its hops (`fronts_eq`), and a
payload determines its fields as far as their lengths do.  The role of a node and the instant are no
part of it.
-/

namespace EnhancedAgentBus.Governance

inductive GapDetail where
  /-- `Expected prev_signature ..., found ...` -/
  | prevSignature (expected found : String)
  /-- `Segment signature does not verify against the expected chain state` -/
  | notVerified
  deriving DecidableEq

structure PathIntegrityError where
  errorType : String
  hopIndex : ℤ
  detail : GapDetail
  deriving DecidableEq

section Checks

variable (hmac : String → String)

/-- The loop of `verify_chain`. -/
def verifyChainFrom (prevSig : String) : List PathSegment → Except CompareError Bool
  | [] => .ok true
  | segment :: rest =>
    if segment.prevSignature ≠ prevSig then .ok false
    else
      match segment.verify hmac prevSig with
      | .error e => .error e
      | .ok false => .ok false
      | .ok true => verifyChainFrom segment.signature rest

def GovernancePath.verifyChain (path : GovernancePath) : Except CompareError Bool :=
  verifyChainFrom hmac "" path.segments

/-- The loop of `check_signature_chain`. -/
def checkSignaturesFrom (index : ℕ) (expectedPrev : String) :
    List PathSegment → Except CompareError (List PathIntegrityError)
  | [] => .ok []
  | segment :: rest =>
    if segment.prevSignature ≠ expectedPrev then
      (checkSignaturesFrom (index + 1) segment.signature rest).map
        (⟨"SIGNATURE_GAP", index, .prevSignature expectedPrev segment.prevSignature⟩ :: ·)
    else
      match segment.verify hmac expectedPrev with
      | .error e => .error e
      | .ok false =>
        (checkSignaturesFrom (index + 1) segment.signature rest).map
          (⟨"SIGNATURE_GAP", index, .notVerified⟩ :: ·)
      | .ok true => checkSignaturesFrom (index + 1) segment.signature rest

def checkSignatureChain (path : GovernancePath) : Except CompareError (List PathIntegrityError) :=
  checkSignaturesFrom hmac 0 "" path.segments

def signAll (prevSig : String) : List PathSegment → List PathSegment
  | [] => []
  | segment :: rest =>
    segment.sign hmac prevSig :: signAll (segment.sign hmac prevSig).signature rest

end Checks

/-- What is relied on of the HMAC under one key: no two payloads have one digest, and a digest is a
text of hexadecimal digits. -/
structure IsHexHmac (hmac : String → String) : Prop where
  injective : Function.Injective hmac
  ne_empty : ∀ payload, hmac payload ≠ ""
  hexDigits : ∀ payload, ∀ c ∈ (hmac payload).toList, c ∈ "0123456789abcdef".toList

/-! ## The two checks -/

inductive HopState where
  | intact
  | broken
  /-- Its signature cannot be compared. -/
  | unreadable
  deriving DecidableEq

section Agreement

variable (hmac : String → String)

/-- How a hop stands to the signature before it. -/
def hopState (prevSig : String) (segment : PathSegment) : HopState :=
  if segment.prevSignature ≠ prevSig then .broken
  else if isAscii segment.signature = false then .unreadable
  else if hmac (segment.canonicalPayload prevSig) = segment.signature then .intact
  else .broken

def hopStates (prevSig : String) : List PathSegment → List HopState
  | [] => []
  | segment :: rest => hopState hmac prevSig segment :: hopStates segment.signature rest

/-- What a check makes of the hops, one of which may be unreadable. -/
def readUpToBreak : List HopState → Except CompareError Bool
  | [] => .ok true
  | .intact :: rest => readUpToBreak rest
  | .broken :: _ => .ok false
  | .unreadable :: _ => .error .typeError

variable {hmac}

theorem IsHexHmac.ascii (h : IsHexHmac hmac) (payload : String) :
    isAscii (hmac payload) = true := by
  refine List.all_eq_true.mpr fun c hc => ?_
  have hdigits : ∀ c ∈ "0123456789abcdef".toList, decide (c.toNat < 128) = true := by simp
  exact hdigits c (h.hexDigits payload c hc)

theorem IsHexHmac.verify_eq (h : IsHexHmac hmac) (segment : PathSegment) (prevSig : String) :
    segment.verify hmac prevSig =
      if isAscii segment.signature = false then .error .typeError
      else .ok (decide (hmac (segment.canonicalPayload prevSig) = segment.signature)) := by
  rw [PathSegment.verify, compareDigest, h.ascii, Bool.true_and]
  rcases isAscii segment.signature with _ | _
  · rfl
  · rfl

theorem IsHexHmac.verifyChainFrom_eq (h : IsHexHmac hmac) (prevSig : String)
    (segments : List PathSegment) :
    verifyChainFrom hmac prevSig segments = readUpToBreak (hopStates hmac prevSig segments) := by
  induction segments generalizing prevSig with
  | nil => rfl
  | cons segment rest ih =>
    rw [verifyChainFrom, hopStates, hopState, h.verify_eq]
    by_cases hprev : segment.prevSignature ≠ prevSig
    · rw [if_pos hprev, if_pos hprev]
      rfl
    · rw [if_neg hprev, if_neg hprev]
      by_cases hascii : isAscii segment.signature = false
      · rw [if_pos hascii, if_pos hascii]
        rfl
      · rw [if_neg hascii, if_neg hascii]
        by_cases hsig : hmac (segment.canonicalPayload prevSig) = segment.signature
        · rw [if_pos hsig, decide_eq_true hsig]
          exact ih segment.signature
        · rw [if_neg hsig, decide_eq_false hsig]
          rfl

def readAll (states : List HopState) : Except CompareError Bool :=
  if .unreadable ∈ states then .error .typeError else .ok (decide (.broken ∉ states))

theorem readAll_intact (rest : List HopState) : readAll (.intact :: rest) = readAll rest := by
  simp [readAll]

theorem readAll_unreadable (rest : List HopState) :
    readAll (.unreadable :: rest) = .error .typeError := by
  simp [readAll]

theorem readAll_broken (rest : List HopState) :
    readAll (.broken :: rest) = (readAll rest).map fun _ => false := by
  rw [readAll, readAll]
  by_cases hmem : .unreadable ∈ rest
  · rw [if_pos hmem, if_pos (List.mem_cons_of_mem _ hmem)]
    rfl
  · rw [if_neg hmem, if_neg (by simp [hmem])]
    simp [Except.map]

def reportsNone (result : Except CompareError (List PathIntegrityError)) :
    Except CompareError Bool :=
  result.map fun errors => decide (errors = [])

theorem reportsNone_cons (result : Except CompareError (List PathIntegrityError))
    (error : PathIntegrityError) :
    reportsNone (result.map (error :: ·)) = (reportsNone result).map fun _ => false := by
  rcases result with e | errors
  · rfl
  · simp [reportsNone, Except.map]

theorem IsHexHmac.checkSignaturesFrom_eq (h : IsHexHmac hmac) (index : ℕ) (prevSig : String)
    (segments : List PathSegment) :
    reportsNone (checkSignaturesFrom hmac index prevSig segments) =
      readAll (hopStates hmac prevSig segments) := by
  induction segments generalizing index prevSig with
  | nil => rfl
  | cons segment rest ih =>
    rw [checkSignaturesFrom, hopStates, hopState, h.verify_eq]
    by_cases hprev : segment.prevSignature ≠ prevSig
    · rw [if_pos hprev, if_pos hprev, reportsNone_cons, ih, readAll_broken]
    · rw [if_neg hprev, if_neg hprev]
      by_cases hascii : isAscii segment.signature = false
      · rw [if_pos hascii, if_pos hascii, readAll_unreadable]
        rfl
      · rw [if_neg hascii, if_neg hascii]
        by_cases hsig : hmac (segment.canonicalPayload prevSig) = segment.signature
        · rw [if_pos hsig, decide_eq_true hsig, readAll_intact]
          exact ih (index + 1) segment.signature
        · rw [if_neg hsig, decide_eq_false hsig, readAll_broken, ← ih (index + 1)]
          exact reportsNone_cons _ _

/-- No hop that cannot be read comes after the first break, unless one came before it. -/
def BreaksReadable (states : List HopState) : Prop :=
  ∀ before after, states = before ++ .broken :: after → .unreadable ∉ before →
    .unreadable ∉ after

theorem breaksReadable_intact (rest : List HopState) :
    BreaksReadable (.intact :: rest) ↔ BreaksReadable rest := by
  constructor
  · intro h before after heq hbefore
    exact h (.intact :: before) after (by rw [heq, List.cons_append]) (by simpa using hbefore)
  · intro h before after heq hbefore
    rcases before with _ | ⟨state, before⟩
    · cases heq
    · obtain ⟨-, heq⟩ := List.cons.inj heq
      exact h before after heq fun hmem => hbefore (List.mem_cons_of_mem _ hmem)

/-- **The two checks.**  They agree exactly when every hop after the first break can be read. -/
theorem readUpToBreak_eq_readAll_iff (states : List HopState) :
    readUpToBreak states = readAll states ↔ BreaksReadable states := by
  induction states with
  | nil => exact iff_of_true rfl fun before _ heq => absurd heq (by simp)
  | cons state rest ih =>
    cases state with
    | intact =>
      rw [readAll_intact, breaksReadable_intact]
      exact ih
    | unreadable =>
      rw [readAll_unreadable]
      refine iff_of_true rfl fun before after heq hbefore => ?_
      rcases before with _ | ⟨state, before⟩
      · cases heq
      · obtain ⟨rfl, -⟩ := List.cons.inj heq
        exact absurd List.mem_cons_self hbefore
    | broken =>
      rw [readAll_broken]
      constructor
      · intro h before after heq hbefore
        have hrest : .unreadable ∉ rest := by
          intro hmem
          rw [readAll, if_pos hmem] at h
          cases h
        rcases before with _ | ⟨state, before⟩
        · obtain ⟨-, rfl⟩ := List.cons.inj heq
          exact hrest
        · obtain ⟨-, rfl⟩ := List.cons.inj heq
          exact fun hmem => hrest (List.mem_append_right _ (List.mem_cons_of_mem _ hmem))
      · intro h
        have hrest : .unreadable ∉ rest := h [] rest rfl List.not_mem_nil
        rw [readAll, if_neg hrest]
        rfl

end Agreement

/-! ## What the last signature determines -/

/-- The part of a payload before the signature that it follows. -/
def PathSegment.front (segment : PathSegment) : String :=
  "|".intercalate [segment.hopId, segment.nodeId, segment.constitutionalHash,
    ",".intercalate (segment.checksPerformed.sort (· ≤ ·))]

theorem PathSegment.canonicalPayload_eq (segment : PathSegment) (prevSig : String) :
    segment.canonicalPayload prevSig = segment.front ++ "|" ++ prevSig := by
  simp only [canonicalPayload, payloadFields, front, String.intercalate_cons_cons,
    String.intercalate_singleton, String.append_assoc]

/-- The signature that the hop after these is to name. -/
def lastSignature (prevSig : String) (segments : List PathSegment) : String :=
  (segments.getLast?.map PathSegment.signature).getD prevSig

@[simp] theorem lastSignature_nil (prevSig : String) : lastSignature prevSig [] = prevSig := rfl

@[simp] theorem lastSignature_concat (prevSig : String) (segments : List PathSegment)
    (segment : PathSegment) :
    lastSignature prevSig (segments ++ [segment]) = segment.signature := by
  rw [lastSignature, List.getLast?_concat]
  rfl

section Chain

variable {hmac : String → String}

/-- Every hop stands to the signature before it as the check wants it. -/
def Intact (hmac : String → String) (segments : List PathSegment) : Prop :=
  ∀ state ∈ hopStates hmac "" segments, state = .intact

theorem readUpToBreak_eq_true_iff (states : List HopState) :
    readUpToBreak states = .ok true ↔ ∀ state ∈ states, state = .intact := by
  induction states with
  | nil => exact iff_of_true rfl fun state h => absurd h List.not_mem_nil
  | cons state rest ih =>
    cases state with
    | intact =>
      rw [List.forall_mem_cons]
      exact ih.trans (iff_and_self.mpr fun _ => rfl)
    | broken =>
      refine iff_of_false (fun h => ?_) fun h => ?_
      · cases h
      · cases h _ List.mem_cons_self
    | unreadable =>
      refine iff_of_false (fun h => ?_) fun h => ?_
      · cases h
      · cases h _ List.mem_cons_self

theorem IsHexHmac.verifyChain_eq_true_iff (h : IsHexHmac hmac) (path : GovernancePath) :
    path.verifyChain hmac = .ok true ↔ Intact hmac path.segments := by
  rw [GovernancePath.verifyChain, h.verifyChainFrom_eq]
  exact readUpToBreak_eq_true_iff _

theorem hopStates_concat (hmac : String → String) (prevSig : String)
    (segments : List PathSegment) (segment : PathSegment) :
    hopStates hmac prevSig (segments ++ [segment]) =
      hopStates hmac prevSig segments ++
        [hopState hmac (lastSignature prevSig segments) segment] := by
  induction segments generalizing prevSig with
  | nil => rfl
  | cons first rest ih =>
    have hlast : lastSignature first.signature rest = lastSignature prevSig (first :: rest) := by
      rw [lastSignature, lastSignature, List.getLast?_cons]
      rcases rest.getLast? with _ | last
      · rfl
      · rfl
    rw [List.cons_append, hopStates, hopStates, ih, hlast, List.cons_append]

theorem hopState_eq_intact {prevSig : String} {segment : PathSegment}
    (h : hopState hmac prevSig segment = .intact) :
    hmac (segment.canonicalPayload prevSig) = segment.signature := by
  unfold hopState at h
  split at h
  · cases h
  · split at h
    · cases h
    · split at h
      · assumption
      · cases h

theorem intact_concat {segments : List PathSegment} {segment : PathSegment}
    (h : Intact hmac (segments ++ [segment])) :
    Intact hmac segments ∧
      hmac (segment.canonicalPayload (lastSignature "" segments)) = segment.signature := by
  rw [Intact, hopStates_concat] at h
  exact ⟨fun state hstate => h state (List.mem_append_left _ hstate),
    hopState_eq_intact (h _ (List.mem_append_right _ List.mem_cons_self))⟩

theorem IsHexHmac.separator_notMem (h : IsHexHmac hmac) {segments : List PathSegment}
    (hintact : Intact hmac segments) : '|' ∉ (lastSignature "" segments).toList := by
  rcases List.eq_nil_or_concat' segments with rfl | ⟨init, last, rfl⟩
  · exact List.not_mem_nil
  · rw [lastSignature_concat, ← (intact_concat hintact).2]
    intro hmem
    exact absurd (h.hexDigits _ _ hmem) (by decide)

/-- **Backwards along the chain.**  Two intact paths that end in one signature have the same
payloads, hop by hop. -/
theorem IsHexHmac.fronts_eq (h : IsHexHmac hmac) (segments segments' : List PathSegment)
    (hintact : Intact hmac segments) (hintact' : Intact hmac segments')
    (hlast : lastSignature "" segments = lastSignature "" segments') :
    List.Forall₂ (fun s s' => s.front = s'.front) segments segments' := by
  induction segments using List.reverseRecOn generalizing segments' with
  | nil =>
    rcases List.eq_nil_or_concat' segments' with rfl | ⟨init', last', rfl⟩
    · exact .nil
    · rw [lastSignature_nil, lastSignature_concat, ← (intact_concat hintact').2] at hlast
      exact absurd hlast.symm (h.ne_empty _)
  | append_singleton init last ih =>
    obtain ⟨hinit, hsigned⟩ := intact_concat hintact
    rcases List.eq_nil_or_concat' segments' with rfl | ⟨init', last', rfl⟩
    · rw [lastSignature_nil, lastSignature_concat, ← hsigned] at hlast
      exact absurd hlast (h.ne_empty _)
    · obtain ⟨hinit', hsigned'⟩ := intact_concat hintact'
      rw [lastSignature_concat, lastSignature_concat, ← hsigned, ← hsigned'] at hlast
      have hpayload := h.injective hlast
      rw [PathSegment.canonicalPayload_eq, PathSegment.canonicalPayload_eq] at hpayload
      have hlist := congrArg String.toList hpayload
      rw [String.toList_append, String.toList_append, String.toList_append,
        String.toList_append, List.append_assoc, List.append_assoc] at hlist
      obtain ⟨hfront, hprev⟩ := HashChain.append_separator_inj_right
        (h.separator_notMem hinit) (h.separator_notMem hinit') hlist
      have hrest := ih init' hinit hinit' (String.toList_inj.mp hprev)
      exact List.rel_append hrest (.cons (String.toList_inj.mp hfront) .nil)

end Chain

/-! ## The fields of a hop -/

/-- Two hops that are told apart by none of the fields that are read off a path. -/
structure SameFields (s s' : PathSegment) : Prop where
  hopId : s.hopId = s'.hopId
  nodeId : s.nodeId = s'.nodeId
  nodeRole : s.nodeRole = s'.nodeRole
  constitutionalHash : s.constitutionalHash = s'.constitutionalHash
  checksPerformed : s.checksPerformed = s'.checksPerformed
  timestamp : s.timestamp = s'.timestamp

/-- Two hops whose payloads are cut at the same places, and which agree where no payload says
anything. -/
structure Unambiguous (s s' : PathSegment) : Prop where
  hopId : s.hopId.length = s'.hopId.length
  nodeId : s.nodeId.length = s'.nodeId.length
  nodeRole : s.nodeRole = s'.nodeRole
  constitutionalHash : s.constitutionalHash.length = s'.constitutionalHash.length
  checksPerformed : (s.checksPerformed.sort (· ≤ ·)).map String.length =
    (s'.checksPerformed.sort (· ≤ ·)).map String.length
  timestamp : s.timestamp = s'.timestamp

theorem sameFields_iff_unambiguous {s s' : PathSegment} (hfront : s.front = s'.front) :
    SameFields s s' ↔ Unambiguous s s' := by
  constructor
  · intro h
    exact ⟨congrArg _ h.hopId, congrArg _ h.nodeId, h.nodeRole, congrArg _ h.constitutionalHash,
      by rw [h.checksPerformed], h.timestamp⟩
  · intro h
    have hchecks := HashChain.length_intercalate_congr "," h.checksPerformed
    have hfields := HashChain.intercalate_inj_of_lengths "|"
      (by simp only [List.map_cons, List.map_nil, h.hopId, h.nodeId, h.constitutionalHash,
        hchecks]) hfront
    obtain ⟨hhop, hfields⟩ := List.cons.inj hfields
    obtain ⟨hnode, hfields⟩ := List.cons.inj hfields
    obtain ⟨hconstitutional, hfields⟩ := List.cons.inj hfields
    have hsorted := HashChain.intercalate_inj_of_lengths "," h.checksPerformed
      (List.cons.inj hfields).1
    refine ⟨hhop, hnode, h.nodeRole, hconstitutional, ?_, h.timestamp⟩
    rw [← Finset.sort_toFinset s.checksPerformed (· ≤ ·), hsorted, Finset.sort_toFinset]

theorem forall₂_sameFields_iff {segments segments' : List PathSegment}
    (hfronts : List.Forall₂ (fun s s' => s.front = s'.front) segments segments') :
    List.Forall₂ SameFields segments segments' ↔ List.Forall₂ Unambiguous segments segments' := by
  induction hfronts with
  | nil => exact iff_of_true .nil .nil
  | cons hfront _ ih =>
    rw [List.forall₂_cons, List.forall₂_cons]
    exact and_congr (sameFields_iff_unambiguous hfront) ih

/-! ## Tamper evidence -/

section Evidence

variable (hmac : String → String)

def GovernancePath.signed (path : GovernancePath) : GovernancePath :=
  { path with segments := signAll hmac "" path.segments }

def SameLast (p q : GovernancePath) : Prop :=
  p.segments.getLast?.map PathSegment.signature = q.segments.getLast?.map PathSegment.signature

def ChecksAgree (path : GovernancePath) : Prop :=
  reportsNone (checkSignatureChain hmac path) = path.verifyChain hmac

/-- What is asked of the signatures: a signed path passes both checks, the checks agree, and the
last signature of a path that passes determines what is read off it. -/
structure TamperEvident (p q : GovernancePath) : Prop where
  verified : (p.signed hmac).verifyChain hmac = .ok true
  noErrors : checkSignatureChain hmac (p.signed hmac) = .ok []
  agree : ChecksAgree hmac p
  determined : p.verifyChain hmac = .ok true → q.verifyChain hmac = .ok true → SameLast p q →
    List.Forall₂ SameFields p.segments q.segments

/-- The readings of a path and of a second one are clear. -/
structure Unmistakable (p q : GovernancePath) : Prop where
  breaksReadable : BreaksReadable (hopStates hmac "" p.segments)
  unambiguous : Intact hmac p.segments → Intact hmac q.segments → SameLast p q →
    List.Forall₂ Unambiguous p.segments q.segments

variable {hmac}

theorem IsHexHmac.intact_signAll (h : IsHexHmac hmac) (prevSig : String)
    (segments : List PathSegment) :
    ∀ state ∈ hopStates hmac prevSig (signAll hmac prevSig segments), state = .intact := by
  induction segments generalizing prevSig with
  | nil => exact fun state hstate => absurd hstate List.not_mem_nil
  | cons segment rest ih =>
    have hascii : isAscii (segment.sign hmac prevSig).signature ≠ false := by
      rw [PathSegment.sign, h.ascii]
      exact Bool.noConfusion
    have hfirst : hopState hmac prevSig (segment.sign hmac prevSig) = .intact := by
      have hprev : ¬(segment.sign hmac prevSig).prevSignature ≠ prevSig := not_not_intro rfl
      rw [hopState, if_neg hprev, if_neg hascii]
      exact if_pos rfl
    rw [signAll, hopStates, List.forall_mem_cons]
    exact ⟨hfirst, ih _⟩

theorem IsHexHmac.checksAgree_iff (h : IsHexHmac hmac) (path : GovernancePath) :
    ChecksAgree hmac path ↔ BreaksReadable (hopStates hmac "" path.segments) := by
  rw [ChecksAgree, checkSignatureChain, h.checkSignaturesFrom_eq, GovernancePath.verifyChain,
    h.verifyChainFrom_eq]
  exact eq_comm.trans (readUpToBreak_eq_readAll_iff _)

theorem IsHexHmac.verifyChain_signed (h : IsHexHmac hmac) (path : GovernancePath) :
    (path.signed hmac).verifyChain hmac = .ok true :=
  (h.verifyChain_eq_true_iff _).mpr (h.intact_signAll "" path.segments)

theorem IsHexHmac.checkSignatureChain_signed (h : IsHexHmac hmac) (path : GovernancePath) :
    checkSignatureChain hmac (path.signed hmac) = .ok [] := by
  have hreading := h.checkSignaturesFrom_eq 0 "" (path.signed hmac).segments
  have hall : Intact hmac (path.signed hmac).segments := h.intact_signAll "" path.segments
  have hreadable : .unreadable ∉ hopStates hmac "" (path.signed hmac).segments := fun hmem =>
    absurd (hall _ hmem) (by decide)
  have hunbroken : .broken ∉ hopStates hmac "" (path.signed hmac).segments := fun hmem =>
    absurd (hall _ hmem) (by decide)
  rw [readAll, if_neg hreadable, decide_eq_true hunbroken] at hreading
  rw [checkSignatureChain]
  rcases hcheck : checkSignaturesFrom hmac 0 "" (path.signed hmac).segments with e | errors
  · rw [hcheck] at hreading
    cases hreading
  · rw [hcheck] at hreading
    rw [of_decide_eq_true (Except.ok.inj hreading)]

theorem IsHexHmac.fronts_eq_of_sameLast (h : IsHexHmac hmac) {p q : GovernancePath}
    (hp : Intact hmac p.segments) (hq : Intact hmac q.segments) (hlast : SameLast p q) :
    List.Forall₂ (fun s s' => s.front = s'.front) p.segments q.segments :=
  h.fronts_eq _ _ hp hq (congrArg (fun last => last.getD "") hlast)

/-- **What a path's signatures say.**  They are evidence of tampering exactly where the payloads are
cut at the same places and the rest agrees. -/
theorem tamperEvident_iff (hmac : String → String) (h : IsHexHmac hmac) (p q : GovernancePath) :
    TamperEvident hmac p q ↔ Unmistakable hmac p q := by
  constructor
  · intro hevident
    refine ⟨(h.checksAgree_iff p).mp hevident.agree, fun hp hq hlast => ?_⟩
    have hsame := hevident.determined ((h.verifyChain_eq_true_iff p).mpr hp)
      ((h.verifyChain_eq_true_iff q).mpr hq) hlast
    exact (forall₂_sameFields_iff (h.fronts_eq_of_sameLast hp hq hlast)).mp hsame
  · intro hclear
    refine ⟨h.verifyChain_signed p, h.checkSignatureChain_signed p,
      (h.checksAgree_iff p).mpr hclear.breaksReadable, fun hp hq hlast => ?_⟩
    have hp := (h.verifyChain_eq_true_iff p).mp hp
    have hq := (h.verifyChain_eq_true_iff q).mp hq
    exact (forall₂_sameFields_iff (h.fronts_eq_of_sameLast hp hq hlast)).mpr
      (hclear.unambiguous hp hq hlast)

end Evidence

/-! ## Two paths that differ in an instant -/

def digitsOf (c : Char) : List Char := List.replicate c.toNat '0' ++ ['1']

/-- A text of two digits that no two payloads share. -/
def unary (payload : String) : String :=
  String.ofList ('1' :: payload.toList.flatMap digitsOf)

theorem digitsOf_append_inj {c c' : Char} {rest rest' : List Char}
    (h : digitsOf c ++ rest = digitsOf c' ++ rest') : c = c' ∧ rest = rest' := by
  rw [digitsOf, digitsOf, List.append_assoc, List.append_assoc] at h
  have hzeros : ∀ n : ℕ, '1' ∉ List.replicate n '0' := fun n hmem =>
    absurd (List.eq_of_mem_replicate hmem) (by decide)
  obtain ⟨hcount, hrest⟩ := HashChain.append_separator_inj (hzeros _) (hzeros _) h
  have hlength := congrArg List.length hcount
  rw [List.length_replicate, List.length_replicate] at hlength
  exact ⟨Char.toNat_inj.mp hlength, hrest⟩

theorem flatMap_digitsOf_injective :
    Function.Injective fun l : List Char => l.flatMap digitsOf := by
  intro l
  induction l with
  | nil =>
    intro l' h
    rcases l' with _ | ⟨c', l'⟩
    · rfl
    · exact absurd h (by simp [digitsOf])
  | cons c l ih =>
    intro l' h
    rcases l' with _ | ⟨c', l'⟩
    · exact absurd h (by simp [digitsOf])
    · simp only [List.flatMap_cons] at h
      obtain ⟨rfl, hrest⟩ := digitsOf_append_inj h
      rw [ih hrest]

theorem isHexHmac_unary : IsHexHmac unary where
  injective := by
    intro payload payload' h
    have hlist := (List.cons.inj (String.ofList_injective h)).2
    exact String.toList_inj.mp (flatMap_digitsOf_injective hlist)
  ne_empty := by
    intro payload h
    have hlist := congrArg String.toList h
    rw [unary, String.toList_ofList] at hlist
    cases hlist
  hexDigits := by
    intro payload c hc
    rw [unary, String.toList_ofList] at hc
    rcases List.mem_cons.mp hc with rfl | hmem
    · decide
    · obtain ⟨d, -, hd⟩ := List.mem_flatMap.mp hmem
      rcases List.mem_append.mp hd with hzero | hone
      · rw [List.eq_of_mem_replicate hzero]
        decide
      · rw [List.mem_singleton.mp hone]
        decide

def hopAt (timestamp : ℚ) : GovernancePath :=
  GovernancePath.signed unary
    { segments := [{ hopId := "hop", timestamp := timestamp }], pathId := "path" }

theorem tamperEvident_iff_one_hop :
    TamperEvident unary (hopAt 0) (hopAt 0) ∧ Unmistakable unary (hopAt 0) (hopAt 0) := by
  have hsame : TamperEvident unary (hopAt 0) (hopAt 0) := by
    refine (tamperEvident_iff unary isHexHmac_unary (hopAt 0) (hopAt 0)).mpr ⟨?_, fun _ _ _ => ?_⟩
    · refine (isHexHmac_unary.checksAgree_iff (hopAt 0)).mp ?_
      rw [ChecksAgree, hopAt, isHexHmac_unary.checkSignatureChain_signed,
        isHexHmac_unary.verifyChain_signed]
      rfl
    · exact .cons ⟨rfl, rfl, rfl, rfl, rfl, rfl⟩ .nil
  exact ⟨hsame, (tamperEvident_iff unary isHexHmac_unary (hopAt 0) (hopAt 0)).mp hsame⟩

/-- The instant of a hop can be changed under its signature. -/
theorem not_tamperEvident :
    IsHexHmac unary ∧ ¬TamperEvident unary (hopAt 0) (hopAt 1) := by
  refine ⟨isHexHmac_unary, fun h => ?_⟩
  have hverified : ∀ t, (hopAt t).verifyChain unary = .ok true := fun t =>
    isHexHmac_unary.verifyChain_signed _
  have hsame := h.determined (hverified 0) (hverified 1) rfl
  exact absurd (List.forall₂_cons.mp hsame).1.timestamp zero_ne_one

end EnhancedAgentBus.Governance
