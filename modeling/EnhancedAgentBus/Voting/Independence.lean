import EnhancedAgentBus.Voting.Sessions

/-!
# Independent sessions

Whether a session of the collector is what it would be without the other sessions.  Two things tie
sessions together.  A vote is one object, whose weight each session that takes it may overwrite, so
what a session has recorded changes when another one takes the vote after it.  And the channel
belongs to the message, so the first session of a message that is cleaned up takes the channel from
the others.

The session by itself (`VoteSession.alone`) is the reference: it keeps its votes by value and knows
of no other session.  `view_step` says that the collector's session follows it as long as the events
are `Sound`, in the whole run and in the run without the others alike, and `sessions_independent`
compares the two runs.
-/

namespace EnhancedAgentBus.Voting

open Machine

variable {kernel : Kernel} {C : Collector} {vote voted : VoteEvent} {sessionId : String}

/-! ## A session by itself -/

namespace VoteSession

def Takes (session : VoteSession VoteEvent) (vote : VoteEvent) : Prop :=
  session.messageId = vote.messageId ∧ session.completed = false ∧
    vote.agentId ∉ session.votes.map VoteEvent.agentId

instance (session : VoteSession VoteEvent) (vote : VoteEvent) : Decidable (session.Takes vote) :=
  inferInstanceAs (Decidable (_ ∧ _ ∧ _))

def withVote (kernel : Kernel) (session : VoteSession VoteEvent) (vote : VoteEvent) :
    VoteSession VoteEvent :=
  { session with
    votes := session.votes ++ [vote]
    completed := ({ session with
      votes := session.votes ++ [vote] }.checkConsensus kernel).reached }

def receive (kernel : Kernel) (vote : VoteEvent) (session : VoteSession VoteEvent) :
    VoteSession VoteEvent :=
  if session.Takes vote then session.withVote kernel (session.applyWeight vote) else session

/-- What a session is after an event, if there is no other session. -/
def alone (kernel : Kernel) (sessionId : String) (session : Option (VoteSession VoteEvent)) :
    Event → Option (VoteSession VoteEvent)
  | .create creation =>
    if creation.sessionId = sessionId then some (session.getD creation.session) else session
  | .published vote => session.map (receive kernel vote)
  | .submitted vote => session.map (receive kernel vote)
  | .finish id _ => if id = sessionId then none else session
  | .cleanup id _ => if id = sessionId then none else session

end VoteSession

open VoteSession

/-! ## Vote objects -/

def VoteEvent.weighing (vote : VoteEvent) (weight : ℚ) : VoteEvent := { vote with weight := weight }

theorem exists_weighing (session : VoteSession VoteEvent) (vote : VoteEvent) :
    ∃ weight, session.applyWeight vote = vote.weighing weight := by
  unfold applyWeight
  split
  · exact ⟨vote.weight, rfl⟩
  · next weight _ => exact ⟨weight, rfl⟩

theorem applyWeight_weighing {session : VoteSession VoteEvent} {weight : ℚ}
    (hvoted : session.applyWeight vote = vote.weighing weight) {vote' : VoteEvent}
    (h : vote' = vote ∨ vote' = vote.weighing weight) :
    session.applyWeight vote' = vote.weighing weight := by
  rcases h with rfl | rfl
  · exact hvoted
  · unfold applyWeight at hvoted ⊢
    dsimp only [VoteEvent.weighing] at hvoted ⊢
    split at hvoted
    · rfl
    · exact hvoted

/-- What a session keeps is among the vote objects. -/
def Kept (heap : List VoteEvent) (session : VoteSession ℕ) : Prop :=
  ∀ place ∈ session.votes, place < heap.length

theorem resolve_append {heap : List VoteEvent} {session : VoteSession ℕ} (h : Kept heap session)
    (rest : List VoteEvent) : session.resolve (heap ++ rest) = session.resolve heap := by
  have hvotes : session.votes.filterMap (fun place => (heap ++ rest)[place]?) =
      session.votes.filterMap fun place => heap[place]? :=
    List.filterMap_congr fun place hplace => List.getElem?_append_left (h place hplace)
  unfold resolve
  rw [hvotes]

theorem resolve_place {heap : List VoteEvent} {session : VoteSession ℕ} (h : Kept heap session)
    (vote : VoteEvent) (completed : Bool) :
    resolve (heap ++ [vote])
      { session with votes := session.votes ++ [heap.length], completed := completed } =
      { session.resolve heap with
        votes := (session.resolve heap).votes ++ [vote], completed := completed } := by
  have hvotes := congrArg VoteSession.votes (resolve_append h [vote])
  unfold resolve at hvotes ⊢
  dsimp only at hvotes ⊢
  rw [List.filterMap_append, hvotes]
  simp

/-! ## One vote, offered to every session -/

/-- The session after it has been offered the vote at a place, if it gives it the weight that it
has in the end. -/
def offered (kernel : Kernel) (heap : List VoteEvent) (vote voted : VoteEvent)
    (session : VoteSession ℕ) : VoteSession ℕ :=
  if (session.resolve heap).Takes vote then
    { session with
      votes := session.votes ++ [heap.length]
      completed := ((session.resolve heap).withVote kernel voted).completed }
  else session

/-- The sessions that take a vote give it the same weight. -/
def Agreed (C : Collector) (vote voted : VoteEvent) : Prop :=
  ∀ sessionId session, C.view sessionId = some session → session.Takes vote →
    session.applyWeight vote = voted

/-- The collector when the vote has been offered to some of the sessions. -/
structure Offered (kernel : Kernel) (C : Collector) (vote voted : VoteEvent) (ids : List String)
    (D : Collector) : Prop where
  sessions : ∀ id, D.sessions.get id =
    if id ∈ ids then (C.sessions.get id).map (offered kernel C.heap vote voted)
    else C.sessions.get id
  /-- the vote has its own weight until the first session takes it -/
  heap : D.heap = C.heap ++ [voted] ∨ (D.heap = C.heap ++ [vote] ∧
    ∀ id ∈ ids, ∀ session, C.view id = some session → ¬ session.Takes vote)
  pubsub : D.pubsub = C.pubsub
  maxConcurrentSessions : D.maxConcurrentSessions = C.maxConcurrentSessions

theorem Offered.skip {ids : List String} {D : Collector}
    (h : Offered kernel C vote voted ids D) {id : String}
    (hnot : ∀ session, C.view id = some session → ¬ session.Takes vote) :
    Offered kernel C vote voted (id :: ids) D where
  sessions id' := by
    rw [h.sessions]
    by_cases hid : id' = id
    · subst hid
      rw [if_pos List.mem_cons_self]
      rcases hget : C.sessions.get id' with _ | session
      · rw [Option.map_none, ite_self]
      · have hskip := hnot (session.resolve C.heap) (by rw [Collector.view, hget, Option.map_some])
        rw [Option.map_some, offered, if_neg hskip, ite_self]
    · simp only [List.mem_cons, hid, false_or]
  heap := h.heap.imp_right fun ⟨hheap, hids⟩ => ⟨hheap, fun id' hid' => by
    rcases List.mem_cons.mp hid' with rfl | hid'
    · exact hnot
    · exact hids id' hid'⟩
  pubsub := h.pubsub
  maxConcurrentSessions := h.maxConcurrentSessions

theorem addVote_of_takes {heap : List VoteEvent} {session : VoteSession ℕ}
    (hkept : Kept heap session) (htakes : (session.resolve heap).Takes vote) {vote' : VoteEvent}
    (hagent : vote'.agentId = vote.agentId) :
    session.addVote (heap ++ [vote']) heap.length =
      some (heap ++ [session.applyWeight vote'],
        { session with votes := session.votes ++ [heap.length] }) := by
  unfold addVote
  rw [List.getElem?_concat_length]
  dsimp only
  rw [resolve_append hkept, hagent, if_neg htakes.2.2, List.set_append_right _ _ le_rfl,
    Nat.sub_self]
  rfl

theorem addVote_of_voted {heap : List VoteEvent} {session : VoteSession ℕ}
    (hkept : Kept heap session)
    (hmem : vote.agentId ∈ (session.resolve heap).votes.map VoteEvent.agentId) {vote' : VoteEvent}
    (hagent : vote'.agentId = vote.agentId) :
    session.addVote (heap ++ [vote']) heap.length = none := by
  unfold addVote
  rw [List.getElem?_concat_length]
  dsimp only
  rw [resolve_append hkept, hagent, if_pos hmem]

theorem Offered.next {ids : List String} {D : Collector} {weight : ℚ}
    (h : Offered kernel C vote (vote.weighing weight) ids D) (hkept : ∀ id session,
      C.sessions.get id = some session → Kept C.heap session)
    (hagreed : Agreed C vote (vote.weighing weight)) {id : String} (hid : id ∉ ids) :
    Offered kernel C vote (vote.weighing weight) (id :: ids)
      (D.offer kernel vote.messageId C.heap.length id) := by
  have hget : D.sessions.get id = C.sessions.get id := by rw [h.sessions, if_neg hid]
  unfold Collector.offer
  rw [hget]
  rcases hC : C.sessions.get id with _ | session
  · exact h.skip fun session hview => by
      rw [Collector.view, hC] at hview
      cases hview
  · have hview : C.view id = some (session.resolve C.heap) := by
      rw [Collector.view, hC, Option.map_some]
    have hkept := hkept id session hC
    obtain ⟨vote', hvote', hheap⟩ : ∃ vote',
        (vote' = vote ∨ vote' = vote.weighing weight) ∧ D.heap = C.heap ++ [vote'] :=
      h.heap.elim (fun hheap => ⟨_, .inr rfl, hheap⟩) fun hheap => ⟨_, .inl rfl, hheap.1⟩
    have hagent : vote'.agentId = vote.agentId := by rcases hvote' with rfl | rfl <;> rfl
    dsimp only
    by_cases htakes : (session.resolve C.heap).Takes vote
    · have hweight : session.applyWeight vote' = vote.weighing weight :=
        applyWeight_weighing (hagreed id _ hview htakes) hvote'
      have hmessage : ¬ session.messageId ≠ vote.messageId := not_not_intro htakes.1
      have hopen : ¬ session.completed = true := Bool.eq_false_iff.mp htakes.2.1
      rw [if_neg hmessage, if_neg hopen, hheap, addVote_of_takes hkept htakes hagent, hweight]
      dsimp only
      have hplace := resolve_place hkept (vote.weighing weight) session.completed
      constructor
      · intro id'
        dsimp only
        rw [Dict.get_set, hplace]
        by_cases hid' : id' = id
        · rw [if_pos hid', hid', if_pos List.mem_cons_self, hC, Option.map_some, offered,
            if_pos htakes]
          rfl
        · rw [if_neg hid', h.sessions]
          simp only [List.mem_cons, hid', false_or]
      · exact .inl rfl
      · exact h.pubsub
      · exact h.maxConcurrentSessions
    · have hskip := h.skip fun s hs => by
        rw [hview, Option.some_inj] at hs
        exact hs ▸ htakes
      by_cases hmessage : session.messageId ≠ vote.messageId
      · rw [if_pos hmessage]
        exact hskip
      · rw [if_neg hmessage]
        by_cases hcompleted : session.completed = true
        · rw [if_pos hcompleted]
          exact hskip
        · rw [if_neg hcompleted, hheap, addVote_of_voted hkept ?_ hagent]
          · exact hskip
          · by_contra hnew
            exact htakes ⟨not_not.mp hmessage, Bool.eq_false_iff.mpr hcompleted, hnew⟩

theorem Offered.all (kernel : Kernel) {weight : ℚ} (hkept : ∀ id session,
      C.sessions.get id = some session → Kept C.heap session)
    (hagreed : Agreed C vote (vote.weighing weight)) :
    Offered kernel C vote (vote.weighing weight) C.sessions.keys.reverse
      (C.processVoteEvent kernel vote) := by
  have hfold (rest : List String) : ∀ (ids : List String) (D : Collector),
      Offered kernel C vote (vote.weighing weight) ids D → (rest ++ ids).Nodup →
      Offered kernel C vote (vote.weighing weight) (rest.reverse ++ ids)
        (rest.foldl (Collector.offer kernel vote.messageId C.heap.length) D) := by
    induction rest with
    | nil =>
      intro ids D h _
      exact h
    | cons id rest ih =>
      intro ids D h hnodup
      rw [List.cons_append, List.nodup_cons, List.mem_append, not_or] at hnodup
      have hnext := ih (id :: ids) _ (h.next hkept hagreed hnodup.1.2)
        (List.nodup_middle.mpr (List.nodup_cons.mpr ⟨by simpa using hnodup.1, hnodup.2⟩))
      rwa [List.reverse_cons, List.append_assoc, List.singleton_append]
  have hstart : Offered kernel C vote (vote.weighing weight) []
      { C with heap := C.heap ++ [vote] } :=
    ⟨fun id => by simp, .inr ⟨rfl, fun _ h => by cases h⟩, rfl, rfl⟩
  have h := hfold C.sessions.keys [] _ hstart (by rw [List.append_nil]; exact C.sessions.nodup)
  rwa [List.append_nil] at h

/-- The collector's own invariants: the votes of the sessions are there, and the collector listens
for every session. -/
structure WellFormed (C : Collector) : Prop where
  kept : ∀ id session, C.sessions.get id = some session → Kept C.heap session
  subscribed : ∀ id session, C.view id = some session → C.Subscribed session.messageId

theorem view_eq_some_iff {session : VoteSession VoteEvent} : C.view sessionId = some session ↔
    ∃ s, C.sessions.get sessionId = some s ∧ s.resolve C.heap = session := Option.map_eq_some_iff

theorem Offered.get {D : Collector} (h : Offered kernel C vote voted C.sessions.keys.reverse D)
    (id : String) : D.sessions.get id =
      (C.sessions.get id).map (offered kernel C.heap vote voted) := by
  rw [h.sessions]
  split
  · rfl
  · rename_i hid
    rw [List.mem_reverse, Dict.mem_keys_iff, not_exists] at hid
    rw [Option.eq_none_iff_forall_ne_some.mpr hid]
    rfl

/-- **One vote**: where the sessions that take it agree on its weight, each receives it as it would
alone. -/
theorem view_processVoteEvent (hC : WellFormed C) {weight : ℚ}
    (hagreed : Agreed C vote (vote.weighing weight)) (id : String) :
    (C.processVoteEvent kernel vote).view id = (C.view id).map (receive kernel vote) := by
  have h := Offered.all kernel hC.kept hagreed
  unfold Collector.view
  rw [h.get]
  rcases hget : C.sessions.get id with _ | session
  · rfl
  · have hview : C.view id = some (session.resolve C.heap) := by
      rw [Collector.view, hget, Option.map_some]
    have hkept := hC.kept id session hget
    rw [Option.map_some, Option.map_some, Option.map_some, Option.map_some, offered, receive]
    by_cases htakes : (session.resolve C.heap).Takes vote
    · have hheap : (C.processVoteEvent kernel vote).heap = C.heap ++ [vote.weighing weight] :=
        h.heap.resolve_right fun ⟨_, hnot⟩ => hnot id
          (List.mem_reverse.mpr (Dict.mem_keys_iff.mpr ⟨session, hget⟩)) _ hview htakes
      rw [if_pos htakes, if_pos htakes, hheap, resolve_place hkept, hagreed id _ hview htakes]
      rfl
    · rw [if_neg htakes, if_neg htakes]
      obtain hheap | ⟨hheap, -⟩ := h.heap <;> rw [hheap, resolve_append hkept]

theorem WellFormed.processVoteEvent (hC : WellFormed C) {weight : ℚ}
    (hagreed : Agreed C vote (vote.weighing weight)) :
    WellFormed (C.processVoteEvent kernel vote) := by
  have h := Offered.all kernel hC.kept hagreed
  have hlength : (C.processVoteEvent kernel vote).heap.length = C.heap.length + 1 := by
    obtain hheap | ⟨hheap, -⟩ := h.heap <;> rw [hheap] <;> simp
  constructor
  · intro id session hget place hplace
    rw [h.get] at hget
    obtain ⟨s, hs, rfl⟩ := Option.map_eq_some_iff.mp hget
    have hkept := hC.kept id s hs
    rw [hlength]
    unfold offered at hplace
    split at hplace
    · rcases List.mem_append.mp hplace with hplace | hplace
      · exact Nat.lt_succ_of_lt (hkept place hplace)
      · rw [List.mem_singleton.mp hplace]
        exact Nat.lt_succ_self _
    · exact Nat.lt_succ_of_lt (hkept place hplace)
  · intro id session hview
    rw [view_processVoteEvent hC hagreed] at hview
    obtain ⟨s, hs, rfl⟩ := Option.map_eq_some_iff.mp hview
    have hmessage : (s.receive kernel vote).messageId = s.messageId := by
      unfold receive
      split <;> rfl
    rw [hmessage, Collector.Subscribed, h.pubsub]
    exact hC.subscribed id s hs

/-! ## What the calls have to see to -/

/-- The sessions that take a vote give it one weight: their own for the agent, or the vote's. -/
def SameWeight (C : Collector) (vote : VoteEvent) : Prop :=
  ∀ id id' session session', C.view id = some session → C.view id' = some session' →
    session.Takes vote → session'.Takes vote → session.applyWeight vote = session'.applyWeight vote

/-- No other session is about the message of the session. -/
def LastOfMessage (C : Collector) (sessionId : String) : Prop :=
  ∀ session id session', C.view sessionId = some session → C.view id = some session' →
    session'.messageId = session.messageId → id = sessionId

/-- A new session is subscribed by a collector that is connected, and nothing has expired where
there is no room for it; the sessions that take a vote give it one weight; and `UNSUBSCRIBE`
succeeds for the last session of a message only. -/
def Sound (C : Collector) : Event → Prop
  | .create creation => creation.sessionId ∉ C.sessions.keys →
      if C.full then C.expired creation.now = []
      else creation.subscribes = true ∧ C.pubsub.isSome = true
  | .published vote => C.Subscribed vote.messageId → SameWeight C vote
  | .submitted vote => SameWeight C vote
  | .finish sessionId unsubscribes => unsubscribes = true → LastOfMessage C sessionId
  | .cleanup sessionId unsubscribes => unsubscribes = true → LastOfMessage C sessionId

theorem SameWeight.agreed (h : SameWeight C vote) :
    ∃ weight, Agreed C vote (vote.weighing weight) := by
  by_cases htaken : ∃ id session, C.view id = some session ∧ session.Takes vote
  · obtain ⟨id, session, hview, htakes⟩ := htaken
    obtain ⟨weight, hweight⟩ := exists_weighing session vote
    refine ⟨weight, fun id' session' hview' htakes' => ?_⟩
    rw [← hweight]
    exact h id' id session' session hview' hview htakes' htakes
  · exact ⟨0, fun id session hview htakes => absurd ⟨id, session, hview, htakes⟩ htaken⟩

/-! ## Making and cleaning up -/

theorem mem_keys_iff_view : sessionId ∈ C.sessions.keys ↔ (C.view sessionId).isSome = true := by
  rw [Dict.mem_keys_iff, Collector.view, Option.isSome_map, Option.isSome_iff_exists]

theorem makeRoom_of_sound {creation : Collector.Creation}
    (h : Sound C (.create creation)) (hnew : creation.sessionId ∉ C.sessions.keys) :
    C.makeRoom creation = C := by
  have hsound := h hnew
  unfold Collector.makeRoom
  split
  · rename_i hfull
    rw [if_pos hfull] at hsound
    rw [Collector.cleanupExpiredSessions, hsound, List.foldl_nil]
  · rfl

theorem create_cases (kernel : Kernel) {creation : Collector.Creation} (h : Sound C (.create creation)) :
    (C.step kernel (.create creation) = C ∧
      (creation.sessionId ∈ C.sessions.keys ∨ C.full = true)) ∨
    (creation.sessionId ∉ C.sessions.keys ∧ C.full = false ∧ C.pubsub.isSome = true ∧
      C.step kernel (.create creation) =
        Collector.subscribe { C with
          sessions := C.sessions.set creation.sessionId creation.session }
          creation.messageId) := by
  unfold Collector.step
  by_cases hnew : creation.sessionId ∈ C.sessions.keys
  · exact .inl ⟨if_pos hnew, .inl hnew⟩
  · have hsound := h hnew
    dsimp only
    rw [if_neg hnew, Collector.createVoteSession, makeRoom_of_sound h hnew]
    by_cases hfull : C.full = true
    · exact .inl ⟨if_pos hfull, .inr hfull⟩
    · rw [if_neg hfull] at hsound
      exact .inr ⟨hnew, Bool.eq_false_iff.mpr hfull, hsound.2, by
        rw [if_neg hfull, if_pos hsound.1]⟩

theorem cleanup_cases (C : Collector) (id : String) (unsubscribes : Bool) :
    (C.view id = none ∧ C.cleanupSession id unsubscribes = C) ∨
    ∃ session, C.view id = some session ∧ C.cleanupSession id unsubscribes =
      { C with
        sessions := C.sessions.erase id
        pubsub := if unsubscribes then
            C.pubsub.map fun channels => channels.filter (· ≠ session.messageId)
          else C.pubsub } := by
  unfold Collector.cleanupSession Collector.view
  rcases C.sessions.get id with _ | session
  · exact .inl ⟨rfl, rfl⟩
  · refine .inr ⟨_, rfl, ?_⟩
    cases unsubscribes <;> rfl

theorem view_cleanupSession (C : Collector) (id sessionId : String) (unsubscribes : Bool) :
    (C.cleanupSession id unsubscribes).view sessionId =
      if id = sessionId then none else C.view sessionId := by
  obtain ⟨hnone, heq⟩ | ⟨session, -, heq⟩ := cleanup_cases C id unsubscribes
  · rw [heq]
    split
    · next hid => rw [← hid, hnone]
    · rfl
  · rw [heq]
    unfold Collector.view
    dsimp only
    rw [Dict.get_erase]
    by_cases hid : id = sessionId
    · rw [if_pos hid, if_pos hid.symm, Option.map_none]
    · rw [if_neg hid, if_neg fun h => hid h.symm]

theorem WellFormed.cleanupSession (hC : WellFormed C) {id : String} {unsubscribes : Bool}
    (hlast : unsubscribes = true → LastOfMessage C id) :
    WellFormed (C.cleanupSession id unsubscribes) := by
  obtain ⟨-, heq⟩ | ⟨session, hsession, heq⟩ := cleanup_cases C id unsubscribes
  · rw [heq]
    exact hC
  · constructor
    · intro id' session' hget
      rw [heq] at hget ⊢
      rw [Dict.get_erase] at hget
      split at hget
      · cases hget
      · exact hC.kept id' session' hget
    · intro id' session' hview
      rw [view_cleanupSession] at hview
      split at hview
      · cases hview
      · rename_i hid
        obtain ⟨channels, hpubsub, hmem⟩ := hC.subscribed id' session' hview
        rw [heq]
        unfold Collector.Subscribed
        rcases unsubscribes with _ | _
        · exact ⟨channels, hpubsub, hmem⟩
        · refine ⟨_, by rw [if_pos rfl, hpubsub, Option.map_some], List.mem_filter.mpr
            ⟨hmem, ?_⟩⟩
          rw [decide_eq_true_iff]
          intro hmessage
          exact hid (hlast rfl session id' session' hsession hview hmessage).symm

/-! ## One step -/

/-- The event would have made another session, or finds no room. -/
def Dropped (sessionId : String) (C : Collector) : Event → Bool
  | .create creation => creation.sessionId ≠ sessionId ∨
      (creation.sessionId ∉ C.sessions.keys ∧ (C.makeRoom creation).full)
  | _ => false

theorem receive_of_not_takes {session : VoteSession VoteEvent} (h : ¬ session.Takes vote) :
    session.receive kernel vote = session := if_neg h

theorem view_create (C : Collector) (creation : Collector.Creation) (sessionId : String) :
    (Collector.subscribe { C with
      sessions := C.sessions.set creation.sessionId creation.session }
      creation.messageId).view sessionId =
      if creation.sessionId = sessionId then some creation.session else C.view sessionId := by
  unfold Collector.view Collector.subscribe
  dsimp only
  rw [Dict.get_set]
  by_cases hid : creation.sessionId = sessionId
  · rw [if_pos hid, if_pos hid.symm]
    rfl
  · rw [if_neg hid, if_neg fun h => hid h.symm]

theorem view_published (hC : WellFormed C) (hsame : C.Subscribed vote.messageId → SameWeight C vote)
    (sessionId : String) :
    (C.step kernel (.published vote)).view sessionId =
      (C.view sessionId).map (receive kernel vote) := by
  unfold Collector.step
  dsimp only
  split
  · rename_i hsubscribed
    obtain ⟨weight, hagreed⟩ := (hsame hsubscribed).agreed
    exact view_processVoteEvent hC hagreed sessionId
  · rename_i hnot
    -- no session is about a message whose channel is not subscribed
    rcases hview : C.view sessionId with _ | session
    · rfl
    · rw [Option.map_some, receive_of_not_takes]
      intro htakes
      exact hnot (htakes.1 ▸ hC.subscribed sessionId session hview)

/-- **One step**: the collector's session goes the way of the session by itself. -/
theorem view_step (hC : WellFormed C) {e : Event} (he : Sound C e) (sessionId : String) :
    (C.step kernel e).view sessionId =
      if Dropped sessionId C e then C.view sessionId
      else alone kernel sessionId (C.view sessionId) e := by
  cases e with
  | create creation =>
    unfold Dropped
    dsimp only
    obtain ⟨heq, hwhy⟩ | ⟨hnew, hroom, -, heq⟩ := create_cases kernel he
    · rw [heq]
      split
      · rfl
      · rename_i hkept
        rw [decide_eq_true_iff, not_or, not_not] at hkept
        obtain ⟨rfl, hroom⟩ := hkept
        have hmem : creation.sessionId ∈ C.sessions.keys := by
          by_contra hnew
          rw [makeRoom_of_sound he hnew] at hroom
          exact hroom ⟨hnew, hwhy.resolve_left hnew⟩
        obtain ⟨session, hview⟩ := Option.isSome_iff_exists.mp (mem_keys_iff_view.mp hmem)
        rw [hview]
        exact (if_pos rfl).symm
    · rw [heq, view_create]
      by_cases hid : creation.sessionId = sessionId
      · have hkept : ¬ (creation.sessionId ≠ sessionId ∨
            (creation.sessionId ∉ C.sessions.keys ∧ (C.makeRoom creation).full = true)) := by
          rw [makeRoom_of_sound he hnew, hroom]
          rintro (h | ⟨-, h⟩)
          · exact h hid
          · cases h
        have hnone : C.view sessionId = none := by
          rw [← hid]
          exact Option.not_isSome_iff_eq_none.mp fun h => hnew (mem_keys_iff_view.mpr h)
        rw [if_pos hid, if_neg (by rwa [decide_eq_true_iff]), hnone]
        exact (if_pos hid).symm
      · rw [if_neg hid, if_pos (decide_eq_true (.inl hid))]
  | published vote => exact view_published hC he sessionId
  | submitted vote =>
    obtain ⟨weight, hagreed⟩ := SameWeight.agreed he
    exact view_processVoteEvent hC hagreed sessionId
  | finish id unsubscribes => exact view_cleanupSession C id sessionId unsubscribes
  | cleanup id unsubscribes => exact view_cleanupSession C id sessionId unsubscribes

theorem WellFormed.step (hC : WellFormed C) {e : Event} (he : Sound C e) :
    WellFormed (C.step kernel e) := by
  cases e with
  | create creation =>
    obtain ⟨heq, -⟩ | ⟨-, -, hconnected, heq⟩ := create_cases kernel he
    · rw [heq]
      exact hC
    · obtain ⟨channels, hpubsub⟩ := Option.isSome_iff_exists.mp hconnected
      rw [heq]
      constructor
      · intro id session hget
        rcases Dict.get_set_cases hget with ⟨-, rfl⟩ | ⟨-, hget⟩
        · intro place hplace
          cases hplace
        · exact hC.kept id session hget
      · intro id session hview
        refine ⟨creation.messageId :: channels, by rw [Collector.subscribe, hpubsub]; rfl, ?_⟩
        rw [view_create] at hview
        split at hview
        · cases hview
          exact List.mem_cons_self
        · obtain ⟨channels', hpubsub', hmem⟩ := hC.subscribed id session hview
          rw [hpubsub, Option.some_inj] at hpubsub'
          exact List.mem_cons_of_mem _ (hpubsub' ▸ hmem)
  | published vote =>
    unfold Collector.step
    dsimp only
    split
    · rename_i hsubscribed
      obtain ⟨weight, hagreed⟩ := SameWeight.agreed (he hsubscribed)
      exact hC.processVoteEvent hagreed
    · exact hC
  | submitted vote =>
    obtain ⟨weight, hagreed⟩ := SameWeight.agreed he
    exact hC.processVoteEvent hagreed
  | finish id unsubscribes => exact hC.cleanupSession he
  | cleanup id unsubscribes => exact hC.cleanupSession he

theorem step_connected (hC : WellFormed C) {e : Event} (he : Sound C e) :
    (C.step kernel e).pubsub.isSome = C.pubsub.isSome ∧
      (C.step kernel e).maxConcurrentSessions = C.maxConcurrentSessions := by
  have hvote {vote : VoteEvent} (hsame : SameWeight C vote) :
      (C.processVoteEvent kernel vote).pubsub.isSome = C.pubsub.isSome ∧
        (C.processVoteEvent kernel vote).maxConcurrentSessions = C.maxConcurrentSessions := by
    obtain ⟨weight, hagreed⟩ := hsame.agreed
    have h := Offered.all kernel hC.kept hagreed
    exact ⟨congrArg Option.isSome h.pubsub, h.maxConcurrentSessions⟩
  have hcleanup (id : String) (unsubscribes : Bool) :
      (C.cleanupSession id unsubscribes).pubsub.isSome = C.pubsub.isSome ∧
        (C.cleanupSession id unsubscribes).maxConcurrentSessions = C.maxConcurrentSessions := by
    obtain ⟨-, heq⟩ | ⟨session, -, heq⟩ := cleanup_cases C id unsubscribes
    · rw [heq]
      exact ⟨rfl, rfl⟩
    · rw [heq]
      refine ⟨?_, rfl⟩
      rcases unsubscribes with _ | _
      · rfl
      · exact Option.isSome_map
  cases e with
  | create creation =>
    obtain ⟨heq, -⟩ | ⟨-, -, -, heq⟩ := create_cases kernel he
    · rw [heq]
      exact ⟨rfl, rfl⟩
    · rw [heq]
      exact ⟨Option.isSome_map, rfl⟩
  | published vote =>
    unfold Collector.step
    dsimp only
    split
    · next hsubscribed => exact hvote (he hsubscribed)
    · exact ⟨rfl, rfl⟩
  | submitted vote => exact hvote he
  | finish id unsubscribes => exact hcleanup id unsubscribes
  | cleanup id unsubscribes => exact hcleanup id unsubscribes

/-! ## Two runs -/

/-- The events of a run without those that make the other sessions. -/
def without (kernel : Kernel) (sessionId : String) : Collector → List Event → List Event
  | _, [] => []
  | C, e :: es =>
    if Dropped sessionId C e then without kernel sessionId (C.step kernel e) es
    else e :: without kernel sessionId (C.step kernel e) es

/-- A collector that has the session and no other. -/
structure Shadow (sessionId : String) (C D : Collector) : Prop where
  view : D.view sessionId = C.view sessionId
  only : ∀ id session, D.view id = some session → id = sessionId
  connected : D.pubsub.isSome = C.pubsub.isSome
  limit : D.maxConcurrentSessions = C.maxConcurrentSessions

variable {D : Collector} {e : Event}

theorem Shadow.sound (h : Shadow sessionId C D) (he : Sound C e)
    (hkept : Dropped sessionId C e = false) : Sound D e ∧ Dropped sessionId D e = false := by
  have hlast (id : String) : LastOfMessage D id := fun session id' session' hview hview' _ =>
    (h.only id' session' hview').trans (h.only id session hview).symm
  have hsame (vote : VoteEvent) : SameWeight D vote := by
    intro id id' session session' hview hview' _ _
    rw [h.only id session hview, ← h.only id' session' hview', hview', Option.some_inj] at hview
    rw [hview]
  cases e with
  | create creation =>
    simp only [Dropped, decide_eq_false_iff_not, not_or, not_not] at hkept
    obtain ⟨hid, hroom⟩ := hkept
    by_cases hmem : creation.sessionId ∈ D.sessions.keys
    · refine ⟨fun hnew => absurd hmem hnew, ?_⟩
      simp only [Dropped, decide_eq_false_iff_not, not_or, not_not]
      exact ⟨hid, fun hnew => absurd hmem hnew.1⟩
    · have hnew : creation.sessionId ∉ C.sessions.keys := by
        rw [mem_keys_iff_view, hid, ← h.view, ← hid, ← mem_keys_iff_view]
        exact hmem
      have hempty : D.sessions.keys = [] := by
        refine List.eq_nil_iff_forall_not_mem.mpr fun id hid' => ?_
        obtain ⟨session, hview⟩ := Option.isSome_iff_exists.mp (mem_keys_iff_view.mp hid')
        exact hmem (hid ▸ h.only id session hview ▸ hid')
      have hfull : C.full = false := by
        rw [makeRoom_of_sound he hnew] at hroom
        exact Bool.eq_false_iff.mpr fun hfull => hroom ⟨hnew, hfull⟩
      have hfullD : D.full = false := by
        unfold Collector.full at hfull ⊢
        rw [decide_eq_false_iff_not] at hfull ⊢
        rw [hempty, List.length_nil, h.limit]
        omega
      have hsound := he hnew
      rw [if_neg (Bool.eq_false_iff.mp hfull)] at hsound
      have hsoundD : Sound D (.create creation) := fun _ => by
        rw [if_neg (Bool.eq_false_iff.mp hfullD), h.connected]
        exact hsound
      refine ⟨hsoundD, ?_⟩
      simp only [Dropped, decide_eq_false_iff_not, not_or, not_not]
      refine ⟨hid, ?_⟩
      rw [makeRoom_of_sound hsoundD hmem, hfullD]
      rintro ⟨-, h⟩
      cases h
  | published vote => exact ⟨fun _ => hsame vote, rfl⟩
  | submitted vote => exact ⟨hsame vote, rfl⟩
  | finish id unsubscribes => exact ⟨fun _ => hlast id, rfl⟩
  | cleanup id unsubscribes => exact ⟨fun _ => hlast id, rfl⟩

theorem Shadow.dropped (h : Shadow sessionId C D) (hC : WellFormed C) (he : Sound C e)
    (hdropped : Dropped sessionId C e = true) : Shadow sessionId (C.step kernel e) D where
  view := by rw [view_step hC he, if_pos hdropped, h.view]
  only := h.only
  connected := by rw [(step_connected hC he).1, h.connected]
  limit := by rw [(step_connected hC he).2, h.limit]

theorem Shadow.kept (h : Shadow sessionId C D) (hC : WellFormed C) (hD : WellFormed D)
    (he : Sound C e) (hkept : Dropped sessionId C e = false) :
    Shadow sessionId (C.step kernel e) (D.step kernel e) := by
  obtain ⟨heD, hkeptD⟩ := h.sound he hkept
  constructor
  · rw [view_step hC he, view_step hD heD, hkept, hkeptD, h.view]
  · intro id session hview
    by_contra hid
    have hnone : D.view id = none := by
      rw [Option.eq_none_iff_forall_ne_some]
      exact fun session hview => hid (h.only id session hview)
    rw [view_step hD heD, hnone] at hview
    split at hview
    · cases hview
    · rename_i hkeptId
      cases e with
      | create creation =>
        simp only [Dropped, decide_eq_false_iff_not, not_or, not_not] at hkeptD
        unfold alone at hview
        dsimp only at hview
        rw [if_neg fun h => hid (h.symm.trans hkeptD.1)] at hview
        cases hview
      | published vote => cases hview
      | submitted vote => cases hview
      | finish id' unsubscribes =>
        unfold alone at hview
        dsimp only at hview
        rw [ite_self] at hview
        cases hview
      | cleanup id' unsubscribes =>
        unfold alone at hview
        dsimp only at hview
        rw [ite_self] at hview
        cases hview
  · rw [(step_connected hC he).1, (step_connected hD heD).1, h.connected]
  · rw [(step_connected hC he).2, (step_connected hD heD).2, h.limit]

/-- **Two runs**: the session is the same with and without the others. -/
theorem Shadow.run (h : Shadow sessionId C D) (hC : WellFormed C) (hD : WellFormed D)
    {es : List Event} (hes : Along (Collector.step kernel) Sound C es) :
    Shadow sessionId (run (Collector.step kernel) C es)
      (run (Collector.step kernel) D (without kernel sessionId C es)) := by
  induction es generalizing C D with
  | nil => exact h
  | cons e es ih =>
    unfold without
    cases hdropped : Dropped sessionId C e with
    | true => exact ih (h.dropped hC hes.1 hdropped) (hC.step hes.1) hD hes.2
    | false =>
      have heD := (h.sound hes.1 hdropped).1
      exact ih (h.kept hC hD hes.1 hdropped) (hC.step hes.1) (hD.step heD) hes.2

/-- A collector as it is made: connected, if it is, to no channel yet. -/
def start (connected : Bool) (maxConcurrentSessions : ℕ) : Collector where
  pubsub := if connected then some [] else none
  maxConcurrentSessions := maxConcurrentSessions

/-- The votes that an active session has recorded, with their weights, and what `check_consensus`
answers. -/
def record (kernel : Kernel) (C : Collector) (sessionId : String) :
    Option (List VoteEvent × Consensus) :=
  (C.view sessionId).map fun session => (session.votes, session.checkConsensus kernel)

/-- After a run every session has recorded what it would have recorded without the others, and the
collector listens to the channel of every active session. -/
def Independent (kernel : Kernel) (C : Collector) (es : List Event) : Prop :=
  (∀ sessionId, record kernel (run (Collector.step kernel) C es) sessionId =
    record kernel (run (Collector.step kernel) C (without kernel sessionId C es)) sessionId) ∧
  ∀ sessionId session, (run (Collector.step kernel) C es).view sessionId = some session →
    (run (Collector.step kernel) C es).Subscribed session.messageId

/-- **Sessions are independent where the calls see to it**: in every run whose events are `Sound` in
the state that they find, the sessions are independent after every event. -/
theorem sessions_independent (kernel : Kernel) (connected : Bool) (maxConcurrentSessions : ℕ)
    (past future : List Event)
    (h : Along (Collector.step kernel) Sound (start connected maxConcurrentSessions)
      (past ++ future)) :
    Independent kernel (start connected maxConcurrentSessions) past := by
  have hpast := (along_append.mp h).1
  have hstart : WellFormed (start connected maxConcurrentSessions) :=
    ⟨(fun _ _ h => by cases h), (fun _ _ h => by cases h)⟩
  constructor
  · intro sessionId
    have hshadow : Shadow sessionId (start connected maxConcurrentSessions)
        (start connected maxConcurrentSessions) := ⟨rfl, (fun _ _ h => by cases h), rfl, rfl⟩
    rw [record, record, (hshadow.run hstart hstart hpast).view]
  · exact (hpast.invariant WellFormed hstart fun _ _ hC he => hC.step he).subscribed

def creationOf (messageId hex : String) (agentWeights : Dict String ℚ) : Collector.Creation :=
  { messageId := messageId, hex := hex, agentWeights := agentWeights, now := 0 }

def voteOf (messageId agentId : String) : VoteEvent :=
  { voteId := "v", messageId := messageId, agentId := agentId, decision := "approve",
    timestamp := 0 }

/-- Two sessions about different messages get a vote each. -/
theorem sessions_independent_two : Independent (fun _ => none) (start true 1000)
    [.create (creationOf "m" "0" .empty), .create (creationOf "n" "1" .empty),
      .published (voteOf "m" "x")] := by
  refine sessions_independent (fun _ => none) true 1000 _ [] ⟨fun _ => by decide +kernel,
    fun _ => by decide +kernel, fun _ => ?_, trivial⟩
  set D := (((start true 1000).step (fun _ => none) (.create (creationOf "m" "0" .empty))).step
    (fun _ => none) (.create (creationOf "n" "1" .empty)))
  have hempty : D.sessions.entries.all (fun e => (e.2.agentWeights.get "x").isNone) = true := by
    decide +kernel
  have hown (id : String) (session : VoteSession VoteEvent) (hview : D.view id = some session) :
      session.applyWeight (voteOf "m" "x") = voteOf "m" "x" := by
    obtain ⟨s, hget, rfl⟩ := view_eq_some_iff.mp hview
    have hnone := Option.isNone_iff_eq_none.mp
      (List.all_eq_true.mp hempty _ (Dict.mem_entries_of_get hget))
    unfold applyWeight resolve
    dsimp only [voteOf]
    rw [hnone]
  intro id id' session session' hview hview' _ _
  rw [hown id session hview, hown id' session' hview']

/-- One message, two sessions: the weight of the one gets into the votes of the other, and the
cleanup of the one takes the channel from the other. -/
theorem two_sessions_not_independent :
    ¬ Independent (fun _ => none) (start true 1000)
      [.create (creationOf "m" "0" (Dict.empty.set "x" 5)), .create (creationOf "m" "1" .empty),
        .published (voteOf "m" "x")] ∧
    ¬ Independent (fun _ => none) (start true 1000)
      [.create (creationOf "m" "0" .empty), .create (creationOf "m" "1" .empty),
        .cleanup "m:0" true] := by
  constructor
  · rintro ⟨h, -⟩
    have hweights := congrArg (Option.map fun r => r.1.map VoteEvent.weight) (h "m:1")
    revert hweights
    decide +kernel
  · rintro ⟨-, h⟩
    set D := run (Collector.step fun _ => none) (start true 1000)
      [.create (creationOf "m" "0" .empty), .create (creationOf "m" "1" .empty),
        .cleanup "m:0" true]
    have hactive : (D.view "m:1").map VoteSession.messageId = some "m" := by decide +kernel
    obtain ⟨session, hview, hmessage⟩ := Option.map_eq_some_iff.mp hactive
    have hlost : ¬ D.Subscribed "m" := by decide +kernel
    exact hlost (hmessage ▸ h "m:1" session hview)

end EnhancedAgentBus.Voting
