import EnhancedAgentBus.Lib.Buckets
import EnhancedAgentBus.Lib.Machine

/-!
# Presence

The sessions of a `PresenceManager`, their clients, and the index of a user's documents.  Joining
and leaving hold the manager's lock from their first line to their last, so each is one step; what
the callbacks do shows only where one of them raises what `_notify_callbacks` does not catch.

Cursors, activity and the times of a session are left out: joining and leaving write them and never
read them.
-/

namespace EnhancedAgentBus.Collaboration

open Machine

/-! ## The records -/

inductive DocumentType where
  | policy
  | workflow
  | template
  | rule
  deriving DecidableEq

/-- `DocumentType(value)` -/
def DocumentType.ofValue (value : String) : Option DocumentType :=
  if value = "policy" then some .policy
  else if value = "workflow" then some .workflow
  else if value = "template" then some .template
  else if value = "rule" then some .rule
  else none

inductive UserPermissions where
  | read
  | write
  | admin
  deriving DecidableEq

structure Collaborator where
  userId : String
  name : String
  email : Option String
  avatar : Option String
  color : String
  permissions : UserPermissions
  tenantId : String
  isAnonymous : Bool
  clientId : String

structure CollaborationSession where
  documentId : String
  documentType : DocumentType
  tenantId : String
  users : Dict String Collaborator := .empty
  isLocked : Bool := false
  lockedBy : Option String := none
  maxUsers : ℤ

def CollaborationSession.canJoin (session : CollaborationSession) : Bool :=
  (session.users.keys.length : ℤ) < session.maxUsers ∧ session.isLocked = false

/-- The entries of `user_info`, each of them absent or of the type that `Collaborator` takes; a
colour may also be there as `None`. -/
structure UserInfo where
  name : Option String := none
  email : Option String := none
  avatar : Option String := none
  color : Option (Option String) := none
  permissions : Option UserPermissions := none
  isAnonymous : Option Bool := none

def validateColor (v : String) : Bool :=
  v.toList.head? = some '#' ∧ (v.length = 4 ∨ v.length = 7)

/-! ## The manager -/

structure PresenceManager where
  maxUsersPerDocument : ℤ
  sessions : Dict String CollaborationSession := .empty
  userSessions : Dict String (Finset String) := .empty

/-- What `join_session` is called with, and what the environment adds. -/
structure Join where
  documentId : String
  documentType : String
  userId : String
  /-- nothing if an entry is of another type than `Collaborator` takes -/
  userInfo : Option UserInfo
  tenantId : String
  /-- the client's identifier, which `uuid4` draws -/
  clientId : String
  /-- a callback raises what is not caught -/
  callbackRaises : Bool := false

inductive JoinError where
  /-- "... is not a valid DocumentType" -/
  | documentType
  /-- "Session for ... is at capacity (... users)", also where the session is locked -/
  | sessionFull
  /-- "Tenant mismatch" -/
  | tenantMismatch
  /-- the validation of `Collaborator` -/
  | collaborator
  | callback
  deriving DecidableEq

namespace PresenceManager

/-- The colours that `_assign_color` has. -/
def colors : List String :=
  ["#FF6B6B", "#4ECDC4", "#45B7D1", "#96CEB4", "#FFEEAD", "#D4A5A5", "#9B59B6", "#3498DB",
    "#E67E22", "#1ABC9C"]

def assignColor (session : CollaborationSession) : String :=
  let usedColors := session.users.values.map Collaborator.color
  match colors.filter fun c => c ∉ usedColors with
  | c :: _ => c
  | [] => colors.getD (session.users.keys.length % colors.length) ""

def newSession (M : PresenceManager) (j : Join) (documentType : DocumentType) :
    CollaborationSession :=
  { documentId := j.documentId, documentType := documentType, tenantId := j.tenantId
    maxUsers := M.maxUsersPerDocument }

def getOrCreate (M : PresenceManager) (j : Join) :
    Option (CollaborationSession × PresenceManager) :=
  match M.sessions.get j.documentId with
  | some session => some (session, M)
  | none =>
    (DocumentType.ofValue j.documentType).map fun documentType =>
      let session := M.newSession j documentType
      (session, { M with sessions := M.sessions.set j.documentId session })

/-- The new collaborator, unless its validation refuses it. -/
def collaborator (session : CollaborationSession) (j : Join) : Option Collaborator :=
  j.userInfo.bind fun info =>
    (info.color.getD (some (assignColor session))).bind fun color =>
      if validateColor color then
        some { userId := j.userId, name := info.name.getD "Anonymous", email := info.email
               avatar := info.avatar, color := color
               permissions := info.permissions.getD .read, tenantId := j.tenantId
               isAnonymous := info.isAnonymous.getD false, clientId := j.clientId }
      else none

def joinSession (M : PresenceManager) (j : Join) :
    Except JoinError (CollaborationSession × Collaborator) × PresenceManager :=
  match M.getOrCreate j with
  | none => (.error .documentType, M)
  | some (session, M) =>
    if session.canJoin = false then (.error .sessionFull, M)
    else if session.tenantId ≠ j.tenantId then (.error .tenantMismatch, M)
    else match collaborator session j with
      | none => (.error .collaborator, M)
      | some client =>
        let session := { session with users := session.users.set client.clientId client }
        let M := { M with
          sessions := M.sessions.set j.documentId session
          userSessions := Buckets.add M.userSessions j.userId j.documentId }
        if j.callbackRaises then (.error .callback, M) else (.ok (session, client), M)

/-- `leave_session`: the collaborator that is removed, and nothing for none, or where a callback
raises. -/
def leaveSession (M : PresenceManager) (documentId clientId : String) (callbackRaises : Bool) :
    Option Collaborator × PresenceManager :=
  match M.sessions.get documentId with
  | none => (none, M)
  | some session =>
    match session.users.get clientId with
    | none => (none, M)
    | some client =>
      let session := { session with users := session.users.erase clientId }
      let M := { M with
        sessions := M.sessions.set documentId session
        userSessions := Buckets.discard M.userSessions client.userId documentId }
      if callbackRaises then (none, M)
      else if session.users.keys = [] then
        (some client, { M with sessions := M.sessions.erase documentId })
      else (some client, M)

def getUserSessions (M : PresenceManager) (userId : String) : Finset String :=
  Buckets.members M.userSessions userId

/-- What `lock_document` and `unlock_document` do to the session of a document. -/
def setLock (M : PresenceManager) (documentId : String) (isLocked : Bool)
    (lockedBy : Option String) : PresenceManager :=
  match M.sessions.get documentId with
  | none => M
  | some session =>
    let session := { session with isLocked := isLocked, lockedBy := lockedBy }
    { M with sessions := M.sessions.set documentId session }

end PresenceManager

/-! ## Runs -/

/-- A call.  The locks are not the manager's: they are set on its sessions from outside. -/
inductive PresenceEvent where
  | join (j : Join)
  | leave (documentId clientId : String) (callbackRaises : Bool)
  | lock (documentId : String) (isLocked : Bool) (lockedBy : Option String)

namespace CollaborationSession

def HasUser (session : CollaborationSession) (userId : String) : Prop :=
  ∃ clientId client, session.users.get clientId = some client ∧ client.userId = userId

/-- The session does not exceed its size, and its members are of its tenant. -/
structure Proper (session : CollaborationSession) : Prop where
  capacity : (session.users.keys.length : ℤ) ≤ session.maxUsers
  tenant : ∀ clientId client, session.users.get clientId = some client →
    client.tenantId = session.tenantId

end CollaborationSession

namespace PresenceManager

def clientIds (M : PresenceManager) (documentId : String) : List String :=
  ((M.sessions.get documentId).map fun session => session.users.keys).getD []

def step (M : PresenceManager) : PresenceEvent → PresenceManager
  | .join j =>
    -- `uuid4` draws a new identifier
    if j.clientId ∈ M.clientIds j.documentId then M else (M.joinSession j).2
  | .leave documentId clientId callbackRaises =>
    (M.leaveSession documentId clientId callbackRaises).2
  | .lock documentId isLocked lockedBy => M.setLock documentId isLocked lockedBy

/-! ## What is asked of the bookkeeping -/

/-- Some client in the session of the document is the user's. -/
def Present (M : PresenceManager) (userId documentId : String) : Prop :=
  ∃ session, M.sessions.get documentId = some session ∧ session.HasUser userId

/-- The index says who is present, and every session is proper. -/
structure Exact (M : PresenceManager) : Prop where
  index : ∀ userId documentId, documentId ∈ M.getUserSessions userId ↔ M.Present userId documentId
  proper : ∀ documentId session, M.sessions.get documentId = some session → session.Proper

/-- The join is rejected: the session is full or locked, or of another tenant. -/
def Rejects (M : PresenceManager) (j : Join) : Prop :=
  (M.joinSession j).1 = .error .sessionFull ∨ (M.joinSession j).1 = .error .tenantMismatch

/-- The bookkeeping is exact after the call, and a join that is rejected leaves it as it was. -/
structure Respects (M : PresenceManager) (e : PresenceEvent) : Prop where
  exact : Exact (M.step e)
  rejected : ∀ j, e = .join j → M.Rejects j → (M.joinSession j).2 = M

/-- A client that leaves is the last one of its user in the session; and a join that is to make a
session finds that the sessions are to have users. -/
def Sound (M : PresenceManager) : PresenceEvent → Prop
  | .join j => M.sessions.get j.documentId = none → DocumentType.ofValue j.documentType ≠ none →
      0 < M.maxUsersPerDocument
  | .leave documentId clientId _ => ∀ session client,
      M.sessions.get documentId = some session → session.users.get clientId = some client →
      ∀ clientId' client', session.users.get clientId' = some client' → clientId' ≠ clientId →
        client'.userId ≠ client.userId
  | .lock .. => True

/-! ## One step -/

variable {M : PresenceManager} {documentId : String} {session session' : CollaborationSession}

theorem canJoin_iff : session.canJoin = true ↔
    (session.users.keys.length : ℤ) < session.maxUsers ∧ session.isLocked = false := by
  unfold CollaborationSession.canJoin
  rw [decide_eq_true_iff]

theorem present_iff (hget : M.sessions.get documentId = some session) {userId : String} :
    M.Present userId documentId ↔ session.HasUser userId := by
  unfold Present
  rw [hget]
  simp

theorem Exact.set (hM : Exact M) (userSessions : Dict String (Finset String))
    (hproper : session'.Proper)
    (hindex : ∀ userId documentId', documentId' ∈ Buckets.members userSessions userId ↔
      if documentId' = documentId then session'.HasUser userId else M.Present userId documentId') :
    Exact { M with sessions := M.sessions.set documentId session', userSessions := userSessions }
    where
  index userId documentId' := by
    unfold getUserSessions
    dsimp only
    rw [hindex]
    unfold Present
    dsimp only
    rw [Dict.get_set]
    split
    · simp
    · exact Iff.rfl
  proper documentId' session h := by
    rcases Dict.get_set_cases h with ⟨-, rfl⟩ | ⟨-, h⟩
    · exact hproper
    · exact hM.proper documentId' session h

/-! ### Joining -/

variable {M' : PresenceManager} {j : Join} {client : Collaborator}

theorem getOrCreate_some (hM : Exact M) (hsound : Sound M (.join j))
    (h : M.getOrCreate j = some (session, M')) :
    Exact M' ∧ M'.sessions.get j.documentId = some session ∧
      session.users.keys = M.clientIds j.documentId ∧
      (M' = M ∨ (session.canJoin = true ∧ session.tenantId = j.tenantId)) := by
  unfold clientIds
  unfold getOrCreate at h
  cases hget : M.sessions.get j.documentId with
  | some existing =>
    rw [hget] at h
    cases h
    exact ⟨hM, hget, rfl, .inl rfl⟩
  | none =>
    rw [hget] at h
    obtain ⟨documentType, htype, heq⟩ := Option.map_eq_some_iff.mp h
    obtain ⟨rfl, rfl⟩ := Prod.mk.inj heq
    have hpositive : 0 < M.maxUsersPerDocument := hsound hget (by rw [htype]; nofun)
    refine ⟨?_, ?_, rfl, .inr ⟨canJoin_iff.mpr ⟨hpositive, rfl⟩, rfl⟩⟩
    · refine hM.set M.userSessions ⟨hpositive.le, nofun⟩ fun userId documentId => ?_
      have hindex := hM.index userId documentId
      unfold getUserSessions at hindex
      rw [hindex]
      split
      · rename_i heq
        subst heq
        refine iff_of_false ?_ ?_
        · rintro ⟨session, hsession, -⟩
          rw [hget] at hsession
          cases hsession
        · rintro ⟨clientId, client, hclient, -⟩
          cases hclient
      · exact Iff.rfl
    · exact (Dict.get_set ..).trans (if_pos rfl)

theorem collaborator_some (h : collaborator session j = some client) :
    client.userId = j.userId ∧ client.tenantId = j.tenantId ∧ client.clientId = j.clientId := by
  unfold collaborator at h
  obtain ⟨info, -, h⟩ := Option.bind_eq_some_iff.mp h
  obtain ⟨color, -, h⟩ := Option.bind_eq_some_iff.mp h
  split at h
  · cases h
    exact ⟨rfl, rfl, rfl⟩
  · cases h

theorem hasUser_set (hnew : client.clientId ∉ session.users.keys) {userId : String} :
    CollaborationSession.HasUser
        { session with users := session.users.set client.clientId client } userId ↔
      userId = client.userId ∨ session.HasUser userId := by
  unfold CollaborationSession.HasUser
  dsimp only
  constructor
  · rintro ⟨clientId', client', hget, huser⟩
    rcases Dict.get_set_cases hget with ⟨-, rfl⟩ | ⟨-, hget⟩
    · exact .inl huser.symm
    · exact .inr ⟨clientId', client', hget, huser⟩
  · rintro (huser | ⟨clientId', client', hget, huser⟩)
    · exact ⟨client.clientId, client, (Dict.get_set ..).trans (if_pos rfl), huser.symm⟩
    · have hne : clientId' ≠ client.clientId := by
        rintro rfl
        exact hnew (Dict.mem_keys_iff.mpr ⟨client', hget⟩)
      exact ⟨clientId', client', (Dict.get_set ..).trans ((if_neg hne).trans hget), huser⟩

theorem exact_addClient (hM : Exact M) (hget : M.sessions.get documentId = some session)
    (hroom : session.canJoin = true) (htenant : client.tenantId = session.tenantId)
    (hnew : client.clientId ∉ session.users.keys) :
    Exact { M with
      sessions := M.sessions.set documentId
        { session with users := session.users.set client.clientId client }
      userSessions := Buckets.add M.userSessions client.userId documentId } := by
  refine hM.set _ ⟨?_, ?_⟩ ?_
  · dsimp only
    rw [Dict.keys_set_of_new hnew, List.length_append]
    have hless := (canJoin_iff.mp hroom).1
    push_cast [List.length_singleton]
    omega
  · intro clientId' client' hclient'
    rcases Dict.get_set_cases hclient' with ⟨-, rfl⟩ | ⟨-, hclient'⟩
    · exact htenant
    · exact (hM.proper documentId session hget).tenant clientId' client' hclient'
  · intro userId documentId'
    rw [Buckets.mem_members_add, hasUser_set hnew]
    have hindex := hM.index userId documentId'
    unfold getUserSessions at hindex
    rw [hindex]
    split
    · rename_i heq
      subst heq
      rw [and_iff_left rfl, present_iff hget]
    · next hne => simp [hne]

theorem exact_joinSession (hM : Exact M) (hsound : Sound M (.join j))
    (hnew : j.clientId ∉ M.clientIds j.documentId) : Exact (M.joinSession j).2 := by
  unfold joinSession
  rcases hmade : M.getOrCreate j with _ | made
  · exact hM
  · obtain ⟨session, M'⟩ := made
    obtain ⟨hM', hget, hkeys, -⟩ := getOrCreate_some hM hsound hmade
    dsimp only
    split
    · exact hM'
    · rename_i hroom
      split
      · exact hM'
      · rename_i htenant
        rcases hclient : collaborator session j with _ | client
        · exact hM'
        · obtain ⟨huser, hof, hid⟩ := collaborator_some hclient
          have hexact := exact_addClient hM' hget ((Bool.not_eq_false _).mp hroom)
            (hof.trans (not_not.mp htenant).symm) (by rwa [hid, hkeys])
          rw [huser] at hexact
          dsimp only
          split
          · exact hexact
          · exact hexact

theorem rejects_iff (hmade : M.getOrCreate j = some (session, M')) :
    M.Rejects j ↔ session.canJoin = false ∨ session.tenantId ≠ j.tenantId := by
  unfold Rejects joinSession
  rw [hmade]
  dsimp only
  split
  · next hfull => exact iff_of_true (.inl rfl) (.inl hfull)
  · rename_i hroom
    split
    · next htenant => exact iff_of_true (.inr rfl) (.inr htenant)
    · rename_i htenant
      -- what comes after the checks is no rejection
      refine iff_of_false ?_ (not_or_intro hroom htenant)
      split
      · rintro (h | h) <;> cases h
      · split
        · rintro (h | h) <;> cases h
        · rintro (h | h) <;> cases h

theorem joinSession_rejected (hmade : M.getOrCreate j = some (session, M')) (h : M.Rejects j) :
    (M.joinSession j).2 = M' := by
  unfold joinSession
  rw [hmade]
  dsimp only
  split
  · rfl
  · rename_i hroom
    have htenant := ((rejects_iff hmade).mp h).resolve_left hroom
    rw [if_pos htenant]

theorem joinSession_leaves (hM : Exact M) (hsound : Sound M (.join j)) (h : M.Rejects j) :
    (M.joinSession j).2 = M := by
  rcases hmade : M.getOrCreate j with _ | made
  · unfold joinSession
    rw [hmade]
  · obtain ⟨session, M'⟩ := made
    obtain ⟨-, -, -, hfound | ⟨hroom, htenant⟩⟩ := getOrCreate_some hM hsound hmade
    · rw [joinSession_rejected hmade h, hfound]
    · rcases (rejects_iff hmade).mp h with hfull | hother
      · rw [hroom] at hfull
        cases hfull
      · exact absurd htenant hother

theorem joinSession_of_no_room (hnone : M.sessions.get j.documentId = none)
    (htype : DocumentType.ofValue j.documentType ≠ none) (hroom : ¬0 < M.maxUsersPerDocument) :
    M.Rejects j ∧ (M.joinSession j).2 ≠ M := by
  obtain ⟨documentType, hsome⟩ := Option.ne_none_iff_exists'.mp htype
  have hmade : M.getOrCreate j = some (M.newSession j documentType,
      { M with sessions := M.sessions.set j.documentId (M.newSession j documentType) }) := by
    unfold getOrCreate
    rw [hnone, hsome]
    rfl
  have hfull : (M.newSession j documentType).canJoin = false :=
    Bool.eq_false_iff.mpr fun h => hroom (canJoin_iff.mp h).1
  have hrejects : M.Rejects j := (rejects_iff hmade).mpr (.inl hfull)
  refine ⟨hrejects, fun heq => ?_⟩
  rw [joinSession_rejected hmade hrejects] at heq
  have hget := congrArg (fun M : PresenceManager => M.sessions.get j.documentId) heq
  dsimp only at hget
  rw [Dict.get_set, if_pos rfl, hnone] at hget
  cases hget

theorem respects_join_iff (hM : Exact M) (j : Join) :
    Respects M (.join j) ↔ Sound M (.join j) := by
  constructor
  · intro h hnone htype
    by_contra hroom
    obtain ⟨hrejects, hne⟩ := joinSession_of_no_room hnone htype hroom
    exact hne (h.rejected j rfl hrejects)
  · intro hsound
    refine ⟨?_, ?_⟩
    · unfold step
      dsimp only
      split
      · exact hM
      · next hnew => exact exact_joinSession hM hsound hnew
    · intro j' heq hrejects
      cases heq
      exact joinSession_leaves hM hsound hrejects

/-! ### Leaving -/

variable {clientId : String}

def without (session : CollaborationSession) (clientId : String) : CollaborationSession :=
  { session with users := session.users.erase clientId }

theorem get_without {clientId' : String} : (without session clientId).users.get clientId' =
    some client ↔ session.users.get clientId' = some client ∧ clientId' ≠ clientId := by
  unfold without
  dsimp only
  rw [Dict.get_erase]
  by_cases h : clientId' = clientId
  · rw [if_pos h]
    exact iff_of_false nofun fun hget => hget.2 h
  · rw [if_neg h, and_iff_left h]

theorem proper_without (h : session.Proper) : (without session clientId).Proper where
  capacity := by
    have hfewer : (without session clientId).users.keys.length ≤ session.users.keys.length := by
      unfold without Dict.keys Dict.erase
      dsimp only
      rw [List.length_map, List.length_map]
      exact List.length_filter_le _ _
    exact (Int.ofNat_le.mpr hfewer).trans h.capacity
  tenant clientId' client' hclient' := h.tenant clientId' client' (get_without.mp hclient').1

/-- The manager when the client is removed and the callbacks are notified. -/
def removed (M : PresenceManager) (documentId : String) (session : CollaborationSession)
    (client : Collaborator) (clientId : String) : PresenceManager :=
  { M with
    sessions := M.sessions.set documentId (without session clientId)
    userSessions := Buckets.discard M.userSessions client.userId documentId }

theorem get_removed :
    (M.removed documentId session client clientId).sessions.get documentId =
      some (without session clientId) :=
  (Dict.get_set ..).trans (if_pos rfl)

theorem exact_removed_iff (hM : Exact M) (hget : M.sessions.get documentId = some session)
    (hclient : session.users.get clientId = some client) :
    Exact (M.removed documentId session client clientId) ↔
      ¬(without session clientId).HasUser client.userId := by
  constructor
  · intro h
    rw [← present_iff get_removed, ← h.index]
    unfold getUserSessions removed
    rw [Buckets.mem_members_discard]
    exact fun hmem => hmem.2 ⟨rfl, rfl⟩
  · intro hlast
    refine hM.set _ (proper_without (hM.proper documentId session hget)) fun userId documentId' => ?_
    rw [Buckets.mem_members_discard]
    have hindex := hM.index userId documentId'
    unfold getUserSessions at hindex
    rw [hindex]
    split
    · rename_i heq
      subst heq
      rw [and_iff_left rfl, present_iff hget]
      constructor
      · rintro ⟨⟨clientId', client', hclient', rfl⟩, hother⟩
        refine ⟨clientId', client', get_without.mpr ⟨hclient', ?_⟩, rfl⟩
        rintro rfl
        rw [hclient] at hclient'
        cases hclient'
        exact hother rfl
      · rintro ⟨clientId', client', hclient', rfl⟩
        refine ⟨⟨clientId', client', (get_without.mp hclient').1, rfl⟩, fun huser => ?_⟩
        exact hlast ⟨clientId', client', hclient', huser⟩
    · next hne => simp [hne]

theorem not_hasUser (hempty : session.users.keys = []) {userId : String} :
    ¬session.HasUser userId := by
  rintro ⟨clientId, client, hclient, -⟩
  have hmem := Dict.mem_keys_iff.mpr ⟨client, hclient⟩
  rw [hempty] at hmem
  cases hmem

theorem Exact.erase (hM : Exact M) (hget : M.sessions.get documentId = some session)
    (hempty : session.users.keys = []) :
    Exact { M with sessions := M.sessions.erase documentId } where
  index userId documentId' := by
    refine (hM.index userId documentId').trans ?_
    by_cases h : documentId' = documentId
    · subst h
      rw [present_iff hget]
      refine iff_of_false (not_hasUser hempty) ?_
      rintro ⟨session', hsession', -⟩
      rw [Dict.get_erase, if_pos rfl] at hsession'
      cases hsession'
    · unfold Present
      dsimp only
      rw [Dict.get_erase, if_neg h]
  proper documentId' session' h := by
    dsimp only at h
    rw [Dict.get_erase] at h
    split at h
    · cases h
    · exact hM.proper documentId' session' h

theorem exact_leaveSession_iff (hM : Exact M) (hget : M.sessions.get documentId = some session)
    (hclient : session.users.get clientId = some client) (callbackRaises : Bool) :
    Exact (M.leaveSession documentId clientId callbackRaises).2 ↔
      ¬(without session clientId).HasUser client.userId := by
  have hremoved := exact_removed_iff hM hget hclient
  unfold leaveSession
  rw [hget]
  dsimp only
  rw [hclient]
  dsimp only
  split
  · exact hremoved
  · split
    · rename_i hempty
      -- nobody is left, so the last client of its user has gone
      have hlast : ¬(without session clientId).HasUser client.userId := not_hasUser hempty
      exact iff_of_true ((hremoved.mpr hlast).erase get_removed hempty) hlast
    · exact hremoved

theorem respects_leave_iff (hM : Exact M) (documentId clientId : String) (callbackRaises : Bool) :
    Respects M (.leave documentId clientId callbackRaises) ↔
      Sound M (.leave documentId clientId callbackRaises) := by
  have hrespects : Respects M (.leave documentId clientId callbackRaises) ↔
      Exact (M.leaveSession documentId clientId callbackRaises).2 :=
    ⟨Respects.exact, fun h => ⟨h, fun _ hjoin => by cases hjoin⟩⟩
  rw [hrespects]
  unfold Sound
  dsimp only
  rcases hget : M.sessions.get documentId with _ | session
  · refine iff_of_true ?_ fun session _ hsession => by cases hsession
    unfold leaveSession
    rw [hget]
    exact hM
  · rcases hclient : session.users.get clientId with _ | client
    · refine iff_of_true ?_ ?_
      · unfold leaveSession
        rw [hget]
        dsimp only
        rw [hclient]
        exact hM
      · rintro session' client' ⟨⟩ hclient'
        rw [hclient] at hclient'
        cases hclient'
    · rw [exact_leaveSession_iff hM hget hclient]
      constructor
      · rintro hlast session' client' ⟨⟩ hclient' clientId' other hother hne huser
        rw [hclient] at hclient'
        cases hclient'
        exact hlast ⟨clientId', other, get_without.mpr ⟨hother, hne⟩, huser⟩
      · rintro hlast ⟨clientId', other, hother, huser⟩
        obtain ⟨hother, hne⟩ := get_without.mp hother
        exact hlast session client rfl hclient clientId' other hother hne huser

/-! ### Locking -/

theorem exact_setLock (hM : Exact M) (documentId : String) (isLocked : Bool)
    (lockedBy : Option String) : Exact (M.setLock documentId isLocked lockedBy) := by
  unfold setLock
  rcases hget : M.sessions.get documentId with _ | session
  · exact hM
  · have hproper := hM.proper documentId session hget
    refine hM.set M.userSessions ⟨hproper.capacity, hproper.tenant⟩ fun userId documentId' => ?_
    refine (hM.index userId documentId').trans ?_
    split
    · rename_i heq
      subst heq
      exact present_iff hget
    · exact Iff.rfl

theorem respects_iff (hM : Exact M) (e : PresenceEvent) : Respects M e ↔ Sound M e := by
  cases e with
  | join j => exact respects_join_iff hM j
  | leave documentId clientId callbackRaises =>
    exact respects_leave_iff hM documentId clientId callbackRaises
  | lock documentId isLocked lockedBy =>
    have hexact := exact_setLock hM documentId isLocked lockedBy
    exact iff_of_true ⟨hexact, fun _ hjoin => by cases hjoin⟩ trivial

/-! ## Runs -/

/-- **Presence is exact where every client that leaves is the last one of its user in the session**
and no session is made for nobody: over every run of a manager, every call respects the bookkeeping
if and only if every call is `Sound` in the state that it finds. -/
theorem presence_exact_iff (maxUsersPerDocument : ℤ) (es : List PresenceEvent) :
    Along step Respects { maxUsersPerDocument := maxUsersPerDocument } es ↔
      Along step Sound { maxUsersPerDocument := maxUsersPerDocument } es := by
  refine along_iff Exact ⟨fun userId documentId => ?_, nofun⟩ (fun _ e hM => respects_iff hM e)
    fun _ e hM h => ((respects_iff hM e).mpr ((respects_iff hM e).mp h)).exact
  refine iff_of_false (Finset.notMem_empty documentId) ?_
  rintro ⟨session, hsession, -⟩
  cases hsession

/-- A user opens a document in two windows, and closes one of them. -/
def twoWindows : List PresenceEvent :=
  [.join { documentId := "d", documentType := "policy", userId := "u", userInfo := some {}
           tenantId := "t", clientId := "1" },
    .join { documentId := "d", documentType := "policy", userId := "u", userInfo := some {}
            tenantId := "t", clientId := "2" },
    .leave "d" "1" false]

/-- The user is still there, and the index says that the user is nowhere. -/
theorem closed_window_leaves : ¬Along step Respects { maxUsersPerDocument := 50 } twoWindows := by
  rintro ⟨-, -, hlast, -⟩
  have hpresent : (run step { maxUsersPerDocument := 50 } twoWindows).Present "u" "d" :=
    ⟨_, rfl, "2", _, rfl, rfl⟩
  have hmem := (hlast.exact.index "u" "d").mpr hpresent
  revert hmem
  decide +kernel

end PresenceManager

end EnhancedAgentBus.Collaboration
