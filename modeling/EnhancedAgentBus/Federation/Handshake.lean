import EnhancedAgentBus.Json
import EnhancedAgentBus.Lib.Dict
import EnhancedAgentBus.Lib.Machine
import Mathlib.Data.Rat.Defs
import Mathlib.Data.Sym.Sym2

/-!
# The federation handshake

The four calls of `FederationProtocol` and the registries behind them, over a network in which every
handshake object goes through the adversary's hands.

HMAC-SHA256 is symbolic: a signature is the MAC of a challenge under a key, or another text, which is
the MAC of nothing.  Two organisations share a key, and the adversary holds the keys of the corrupt
ones.  What it can put into an object is every text, the MACs under the keys that it holds, and the
MACs that the organisations have sent.  Challenges that are created are new.

`complete_handshake` looks at no signature, so that it admits whom it should where its caller has
seen to it (`Guarded`).
-/

namespace EnhancedAgentBus.Federation

open Machine

/-! ## The objects -/

inductive TrustLevel where
  | untrusted
  | verified
  | trusted
  deriving DecidableEq

structure FederationPeer where
  orgId : String
  constitutionalHash : String
  publicKey : String
  capabilities : List String
  kafkaTopicPrefix : String
  trustLevel : TrustLevel := .untrusted
  lastHeartbeat : ℚ := 0
  expiresAt : ℚ := 0

abbrev Key := Sym2 String

inductive Signature where
  /-- the HMAC of a challenge -/
  | mac (key : Key) (challenge : String)
  /-- a text that is no HMAC -/
  | other (text : String)
  deriving DecidableEq

structure FederationHandshake where
  initiatorOrgId : String
  responderOrgId : Option String := none
  handshakeId : String
  challenge : String
  responseSignature : Option Signature := none
  status : String := "PENDING"
  createdAt : ℚ

inductive PeerInfo where
  | peer (peer : FederationPeer)
  | dict (data : Json)

/-- `text.encode("ascii")` does not raise. -/
def isAscii (text : String) : Bool := text.toList.all fun c => c.toNat < 128

/-! ## The calls -/

namespace FederationProtocol

/-- `initiate_handshake`, with the identifier, the challenge and the time that are drawn. -/
def initiateHandshake (ourOrgId peerOrgId handshakeId challenge : String) (now : ℚ) :
    FederationHandshake :=
  { initiatorOrgId := ourOrgId, responderOrgId := some peerOrgId, handshakeId := handshakeId
    challenge := challenge, createdAt := now }

/-- `respond_to_handshake`: nothing where it raises. -/
def respondToHandshake (handshake : FederationHandshake) (ourKey : Key) :
    Option FederationHandshake :=
  if isAscii handshake.challenge then
    some { handshake with
      responseSignature := some (.mac ourKey handshake.challenge)
      status := "COMPLETED"
      responderOrgId := some (handshake.responderOrgId.getD "") }
  else none

/-- `verify_handshake`: nothing where it raises. -/
def verifyHandshake (handshake : FederationHandshake) (peerKey : Key) : Option Bool :=
  if handshake.status ≠ "COMPLETED" then some false
  else match handshake.responseSignature with
    | none => some false
    | some signature =>
      if isAscii handshake.challenge = false then none
      else match signature with
        | .mac key challenge => some (key = peerKey ∧ challenge = handshake.challenge)
        -- `compare_digest` takes no text that is not ASCII
        | .other text => if isAscii text then some false else none

def registerPeer (registry : Dict String FederationPeer) (peer : FederationPeer) :
    Bool × Dict String FederationPeer :=
  if peer.orgId ∈ registry.keys then (false, registry)
  else (true, registry.set peer.orgId peer)

/-- The peer of a call, if `FederationPeer.from_dict` does not raise. -/
def readPeer (fromDict : Json → Option FederationPeer) : PeerInfo → Option FederationPeer
  | .peer peer => some peer
  | .dict data => fromDict data

/-- `complete_handshake`: nothing where it raises. -/
def completeHandshake (fromDict : Json → Option FederationPeer) (handshake : FederationHandshake)
    (peerInfo : PeerInfo) (registry : Dict String FederationPeer) :
    Option Bool × Dict String FederationPeer :=
  if handshake.status ≠ "COMPLETED" then (some false, registry)
  else if handshake.responseSignature = none then (some false, registry)
  else match readPeer fromDict peerInfo with
    | none => (none, registry)
    | some peer =>
      if handshake.responderOrgId ≠ none ∧ handshake.responderOrgId ≠ some "" ∧
          handshake.responderOrgId ≠ some peer.orgId then (some false, registry)
      else
        let registered := registerPeer registry peer
        (some registered.1, registered.2)

end FederationProtocol

open FederationProtocol

/-! ## The network -/

structure Network where
  registries : String → Dict String FederationPeer := fun _ => .empty
  /-- who has created which challenge for whom -/
  created : List (String × String × String) := []
  /-- who has answered which challenge, with the key shared with whom -/
  answered : List (String × String × String) := []
  /-- where a handshake with which challenge has admitted a peer -/
  admitted : List (String × String) := []
  /-- the signatures that went over the network -/
  sent : List Signature := []

inductive Event where
  | initiate (org peerOrg handshakeId challenge : String) (now : ℚ)
  /-- the organisation answers with the key that it shares with another -/
  | respond (org peerOrg : String) (handshake : FederationHandshake)
  | verify (org peerOrg : String) (handshake : FederationHandshake)
  | complete (org : String) (handshake : FederationHandshake) (peerInfo : PeerInfo)
  | unregister (org peerOrg : String)

namespace Network

variable (fromDict : Json → Option FederationPeer)

def step (N : Network) : Event → Network
  | .initiate org peerOrg handshakeId challenge now =>
    -- a challenge is drawn anew
    if challenge ∈ N.created.map (fun c => c.2.2) then N
    else
      let handshake := initiateHandshake org peerOrg handshakeId challenge now
      { N with created := N.created ++ [(org, peerOrg, handshake.challenge)] }
  | .respond org peerOrg handshake =>
    match respondToHandshake handshake s(org, peerOrg) with
    | none => N
    | some answer =>
      { N with
        answered := N.answered ++ [(org, peerOrg, handshake.challenge)]
        sent := N.sent ++ answer.responseSignature.toList }
  | .verify _ _ _ => N
  | .complete org handshake peerInfo =>
    let completed := completeHandshake fromDict handshake peerInfo (N.registries org)
    { N with
      registries := Function.update N.registries org completed.2
      admitted :=
        if completed.1 = some true then N.admitted ++ [(org, handshake.challenge)]
        else N.admitted }
  | .unregister org peerOrg =>
    { N with registries := Function.update N.registries org ((N.registries org).erase peerOrg) }

def object : Event → Option FederationHandshake
  | .respond _ _ handshake | .verify _ _ handshake | .complete _ handshake _ => some handshake
  | _ => none

/-- What the adversary can write into an object: what it holds the key of, and what was sent. -/
def Forgeable (corrupt : Set String) (N : Network) : Signature → Prop
  | .mac key challenge => (∃ org ∈ key, org ∈ corrupt) ∨ .mac key challenge ∈ N.sent
  | .other _ => True

def Delivered (corrupt : Set String) (N : Network) (e : Event) : Prop :=
  ∀ handshake signature, object e = some handshake →
    handshake.responseSignature = some signature → Forgeable corrupt N signature

/-! ## What is asked of a completion -/

/-- The peer has answered, with the key that it shares with the organisation, a challenge that the
organisation has created for it and that has admitted nobody there. -/
def Proved (N : Network) (org : String) (peer : FederationPeer) : Prop :=
  ∃ challenge, (org, peer.orgId, challenge) ∈ N.created ∧
    (peer.orgId, org, challenge) ∈ N.answered ∧ (org, challenge) ∉ N.admitted

/-- A peer that is admitted has proved that it has its key, if it and the organisation are honest;
and a completion that is refused leaves the registries as they are. -/
def Admits (corrupt : Set String) (N : Network) (e : Event) : Prop :=
  ∀ org handshake peerInfo, e = .complete org handshake peerInfo →
    ((completeHandshake fromDict handshake peerInfo (N.registries org)).1 = some true →
      ∀ peer, readPeer fromDict peerInfo = some peer → org ∉ corrupt → peer.orgId ∉ corrupt →
        N.Proved org peer) ∧
    ((completeHandshake fromDict handshake peerInfo (N.registries org)).1 ≠ some true →
      (N.step fromDict e).registries = N.registries)

/-! ## What the caller has to see to -/

/-- The handshake passes what `complete_handshake` looks at. -/
structure Presentable (N : Network) (org : String) (handshake : FederationHandshake)
    (peer : FederationPeer) : Prop where
  completed : handshake.status = "COMPLETED"
  signed : handshake.responseSignature ≠ none
  responder : handshake.responderOrgId = none ∨ handshake.responderOrgId = some "" ∨
    handshake.responderOrgId = some peer.orgId
  unknown : peer.orgId ∉ (N.registries org).keys

/-- The handshake verifies under the key shared with the peer, its challenge is one that the
organisation has created for the peer and that has admitted nobody, and the organisation has not
answered it itself with that key. -/
structure Guarded (N : Network) (org : String) (handshake : FederationHandshake)
    (peer : FederationPeer) : Prop where
  verified : verifyHandshake handshake s(org, peer.orgId) = some true
  created : (org, peer.orgId, handshake.challenge) ∈ N.created
  unused : (org, handshake.challenge) ∉ N.admitted
  notReflected : (org, peer.orgId, handshake.challenge) ∉ N.answered

def Sound (corrupt : Set String) (N : Network) (e : Event) : Prop :=
  ∀ org handshake peerInfo peer, e = .complete org handshake peerInfo →
    readPeer fromDict peerInfo = some peer → org ∉ corrupt → peer.orgId ∉ corrupt →
    N.Presentable org handshake peer → N.Guarded org handshake peer

/-! ## The calls, one by one -/

variable {fromDict} {N : Network} {org : String} {handshake : FederationHandshake}
  {peerInfo : PeerInfo} {peer : FederationPeer} {registry : Dict String FederationPeer}

theorem presentable_of_completed
    (h : (completeHandshake fromDict handshake peerInfo (N.registries org)).1 = some true)
    (hpeer : readPeer fromDict peerInfo = some peer) : N.Presentable org handshake peer := by
  unfold completeHandshake at h
  split at h
  · cases h
  · rename_i hstatus
    split at h
    · cases h
    · rename_i hsigned
      rw [hpeer] at h
      dsimp only at h
      split at h
      · cases h
      · rename_i hresponder
        unfold registerPeer at h
        split at h
        · cases h
        · rename_i hunknown
          refine ⟨not_not.mp hstatus, hsigned, ?_, hunknown⟩
          by_contra hother
          push Not at hother
          exact hresponder hother

theorem registry_of_refused
    (h : (completeHandshake fromDict handshake peerInfo registry).1 ≠ some true) :
    (completeHandshake fromDict handshake peerInfo registry).2 = registry := by
  unfold completeHandshake at h ⊢
  split
  · rfl
  · rename_i hstatus
    rw [if_neg hstatus] at h
    split
    · rfl
    · rename_i hsigned
      rw [if_neg hsigned] at h
      rcases hpeer : readPeer fromDict peerInfo with _ | peer
      · rfl
      · rw [hpeer] at h
        dsimp only at h ⊢
        split
        · rfl
        · rename_i hresponder
          rw [if_neg hresponder] at h
          unfold registerPeer at h ⊢
          split
          · rfl
          · rename_i hunknown
            rw [if_neg hunknown] at h
            exact absurd rfl h

theorem signature_of_verified {key : Key} (h : verifyHandshake handshake key = some true) :
    handshake.responseSignature = some (.mac key handshake.challenge) := by
  unfold verifyHandshake at h
  split at h
  · cases h
  · split at h
    · cases h
    · rename_i signature hsignature
      split at h
      · cases h
      · split at h
        · rename_i key' challenge
          obtain ⟨rfl, rfl⟩ := of_decide_eq_true (Option.some_inj.mp h)
          exact hsignature
        · split at h
          · cases h
          · cases h

/-! ## Where signatures come from -/

def Originates (N : Network) : Prop :=
  ∀ key challenge, .mac key challenge ∈ N.sent →
    ∃ org peerOrg, (org, peerOrg, challenge) ∈ N.answered ∧ key = s(org, peerOrg)

theorem Originates.step (hN : N.Originates) (e : Event) : (N.step fromDict e).Originates := by
  cases e with
  | initiate org peerOrg handshakeId challenge now =>
    unfold Network.step
    dsimp only
    split
    · exact hN
    · exact hN
  | respond org peerOrg handshake =>
    unfold Network.step respondToHandshake
    dsimp only
    split
    · exact hN
    · rename_i answer hanswer
      split at hanswer
      · cases hanswer
        intro key challenge hmem
        rcases List.mem_append.mp hmem with hold | hnew
        · obtain ⟨org', peerOrg', hanswered, hkey⟩ := hN key challenge hold
          exact ⟨org', peerOrg', List.mem_append_left _ hanswered, hkey⟩
        · cases List.mem_singleton.mp hnew
          exact ⟨org, peerOrg, List.mem_append_right _ List.mem_cons_self, rfl⟩
      · cases hanswer
  | verify org peerOrg handshake => exact hN
  | complete org handshake peerInfo => exact hN
  | unregister org peerOrg => exact hN

/-- **Possession.**  A guarded handshake between honest organisations that the network delivers was
answered by the peer. -/
theorem proved_of_guarded {corrupt : Set String} (hN : N.Originates)
    (hdelivered : Delivered corrupt N (.complete org handshake peerInfo))
    (hguarded : N.Guarded org handshake peer) (horg : org ∉ corrupt)
    (hpeer : peer.orgId ∉ corrupt) : N.Proved org peer := by
  have hsignature := signature_of_verified hguarded.verified
  have hforgeable := hdelivered handshake _ rfl hsignature
  rcases hforgeable with ⟨holder, hholder, hcorrupt⟩ | hsent
  · -- neither of the two gives the key away
    rcases Sym2.mem_iff.mp hholder with rfl | rfl
    · exact absurd hcorrupt horg
    · exact absurd hcorrupt hpeer
  · obtain ⟨org', peerOrg', hanswered, hkey⟩ := hN _ _ hsent
    rcases Sym2.eq_iff.mp hkey with ⟨rfl, rfl⟩ | ⟨rfl, rfl⟩
    · exact absurd hanswered hguarded.notReflected
    · exact ⟨handshake.challenge, hguarded.created, hanswered, hguarded.unused⟩

theorem admits_of_sound {corrupt : Set String} (hN : N.Originates) {e : Event}
    (hdelivered : Delivered corrupt N e) (hsound : N.Sound fromDict corrupt e) :
    N.Admits fromDict corrupt e := by
  rintro org handshake peerInfo rfl
  constructor
  · intro hcompleted peer hpeer horg hhonest
    have hpresentable := presentable_of_completed hcompleted hpeer
    exact proved_of_guarded hN hdelivered
      (hsound org handshake peerInfo peer rfl hpeer horg hhonest hpresentable) horg hhonest
  · intro hrefused
    have hregistry := registry_of_refused hrefused
    show Function.update N.registries org _ = N.registries
    rw [hregistry, Function.update_eq_self]

/-! ## Runs -/

/-- **A peer is admitted only after it proved possession of its key where every handshake that is
completed is guarded**: in every run in which the network delivers the objects and the callers see to
the completions, whatever the adversary writes into the objects. -/
theorem handshakes_admit (fromDict : Json → Option FederationPeer) (corrupt : Set String)
    (es : List Event)
    (hdelivered : Along (step fromDict) (Delivered corrupt) {} es)
    (hsound : Along (step fromDict) (Sound fromDict corrupt) {} es) :
    Along (step fromDict) (Admits fromDict corrupt) {} es := by
  refine (hdelivered.and hsound).imp Originates nofun fun N e hN he => ?_
  exact ⟨admits_of_sound hN he.1 he.2, hN.step e⟩

def remote : FederationPeer :=
  { orgId := "remote", constitutionalHash := "608508a9bd224290", publicKey := "11"
    capabilities := [], kafkaTopicPrefix := "remote" }

def pendingHandshake : FederationHandshake :=
  initiateHandshake "local" "remote" "h" "c0ffee" 0

def answeredHandshake : FederationHandshake :=
  { pendingHandshake with
    responseSignature := some (.mac s("remote", "local") "c0ffee"), status := "COMPLETED" }

/-- The handshake that the adversary has declared to be completed, with an empty signature. -/
def forgedHandshake : FederationHandshake :=
  { pendingHandshake with responseSignature := some (.other ""), status := "COMPLETED" }

/-- The forged handshake admits a peer that has answered nothing. -/
theorem forged_admitted :
    ¬(Along (step fun _ => none) (Delivered ∅) {}
          [.initiate "local" "remote" "h" "c0ffee" 0,
            .complete "local" forgedHandshake (.peer remote)] →
        Along (step fun _ => none) (Admits (fun _ => none) ∅) {}
          [.initiate "local" "remote" "h" "c0ffee" 0,
            .complete "local" forgedHandshake (.peer remote)]) := by
  intro h
  have hdelivered : Along (step fun _ => none) (Delivered ∅) {}
      [.initiate "local" "remote" "h" "c0ffee" 0,
        .complete "local" forgedHandshake (.peer remote)] := by
    refine ⟨?_, ?_, trivial⟩
    · rintro handshake signature ⟨⟩
    · rintro handshake signature ⟨⟩ ⟨⟩
      trivial
  obtain ⟨-, hlast, -⟩ := h hdelivered
  obtain ⟨challenge, -, hanswered, -⟩ := (hlast "local" forgedHandshake (.peer remote) rfl).1
    (by decide +kernel) remote rfl (Set.notMem_empty _) (Set.notMem_empty _)
  cases hanswered

/-- The handshake that the peer answers. -/
theorem handshakes_admit_answered :
    Along (step fun _ => none) (Admits (fun _ => none) ∅) {}
      [.initiate "local" "remote" "h" "c0ffee" 0, .respond "remote" "local" pendingHandshake,
        .complete "local" answeredHandshake (.peer remote)] := by
  refine handshakes_admit (fun _ => none) ∅ _ ⟨?_, ?_, ?_, trivial⟩ ⟨?_, ?_, ?_, trivial⟩
  · rintro handshake signature ⟨⟩
  · rintro handshake signature ⟨⟩ ⟨⟩
  · rintro handshake signature ⟨⟩ ⟨⟩
    exact .inr (by decide +kernel)
  · rintro org handshake peerInfo peer ⟨⟩
  · rintro org handshake peerInfo peer ⟨⟩
  · rintro org handshake peerInfo peer ⟨⟩ ⟨⟩ - - -
    exact ⟨by decide +kernel, by decide +kernel, by decide +kernel, by decide +kernel⟩

end Network

end EnhancedAgentBus.Federation
