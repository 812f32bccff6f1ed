import EnhancedAgentBus.Lib.Versions
import EnhancedAgentBus.SagaPersistence.Postgres

/-!
# Optimistic locking

Clients of either repository that edit a saga (they get it, modify it, set its version to the one
after the version they read, and save it), update its state or update the state of a step.

A save is made on the strength of a version: that of the record it overwrites is to be one less than
its own.  Where every write raises the version by one, a record that still has the version that the
client read is the record that the client read (`Pool.Along.unwritten`), so nothing is lost.  But a
save also accepts a record that has its own version already, which is the record of the client that
saved first; and no write is made together with its check.

`Backend` is what the argument needs of a repository, `Backend.Lawful` what a repository has to
show for it; the argument is made once (`Backend.Lawful.noLostUpdate`).
-/

namespace EnhancedAgentBus.SagaPersistence

open Async Async.Prog

inductive EditCall where
  | edit (sagaId : String) (modify : PersistedSagaState → PersistedSagaState)
  | updateState (sagaId : String) (newState : SagaState) (failureReason : Option String)
  | updateStepState (sagaId stepId : String) (newState : StepState) (outputData : Json)
      (errorMessage : Option String)

def edited (modify : PersistedSagaState → PersistedSagaState) (saga : PersistedSagaState) :
    PersistedSagaState :=
  { modify saga with sagaId := saga.sagaId, version := saga.version + 1 }

structure Backend where
  Op : Type
  Resp : Op → Type
  Store : Type
  Record : Type
  step : Store → (o : Op) → Resp o → Store → Prop
  get : String → Prog Op Resp SagaError (Option PersistedSagaState)
  save : PersistedSagaState → Prog Op Resp SagaError Bool
  updateState : String → SagaState → Option String → Prog Op Resp SagaError Bool
  updateStepState : String → String → StepState → Json → Option String →
    Prog Op Resp SagaError Bool
  /-- the key of an identifier -/
  key : String → Option String
  stored : Store → String → Option Record
  version : Record → ℤ
  /-- the saga that is read from a record -/
  view : Record → PersistedSagaState → Prop
  /-- the record is the one that a save of the saga writes -/
  holds : Record → PersistedSagaState → Prop
  /-- a save of the saga leaves out nothing that is different in the record -/
  keeps : Record → PersistedSagaState → Prop
  /-- the key and the record that an operation reads -/
  reads : (o : Op) → Resp o → Option (String × Record)
  /-- the saga that an operation saves -/
  saves : Op → Option PersistedSagaState
  /-- the key that an executed operation writes -/
  writes : (o : Op) → Resp o → Option String
  /-- what the check before a write found: the version of the record, if there was one -/
  found : Op → Option (Option ℤ)
  /-- the database has refused a statement -/
  refuses : SagaError → Prop

namespace Backend

variable (b : Backend)

def edit (sagaId : String) (modify : PersistedSagaState → PersistedSagaState) :
    Prog b.Op b.Resp SagaError Bool := do
  let saga ← b.get sagaId
  match saga with
  | none => pure false
  | some saga => b.save (edited modify saga)

def code : EditCall → Prog b.Op b.Resp SagaError Bool
  | .edit sagaId modify => b.edit sagaId modify
  | .updateState sagaId newState failureReason => b.updateState sagaId newState failureReason
  | .updateStepState sagaId stepId newState outputData errorMessage =>
    b.updateStepState sagaId stepId newState outputData errorMessage

abbrev Client := ℕ × EditCall

abbrev Entry := Async.Entry b.Store b.Op b.Resp

abbrev Calls := Pool Client b.Op b.Resp SagaError Bool b.Store

def threads (clients : List EditCall) : List (Client × Prog b.Op b.Resp SagaError Bool) :=
  clients.zipIdx.map fun client => ((client.2, client.1), b.code client.1)

abbrev Interleaved (clients : List EditCall) (init : b.Store) (P : b.Calls) : Prop :=
  Pool.Reach b.step (fun _ _ _ => False) (b.threads clients) init P

def Writes (key : String) (e : b.Entry) : Prop := b.writes e.op e.resp = some key

/-- The saga is what its client made of the record that it read first, and nobody has written the
record since. -/
def ReadSince (log : List (Client × b.Entry)) (client : Client) (key : String)
    (saga : PersistedSagaState) : Prop :=
  ∃ later l e earlier sagaId modify record read, log = later ++ (l, e) :: earlier ∧
    l.1 = client.1 ∧ (∀ p ∈ earlier, p.1.1 ≠ client.1) ∧ client.2 = .edit sagaId modify ∧
    b.reads e.op e.resp = some (key, record) ∧ b.view record read ∧ saga = edited modify read ∧
    ∀ p ∈ later, ¬ b.Writes key p.2

structure NoLostUpdate (P : b.Calls) : Prop where
  /-- every write raises the version of the record by one -/
  raised : Pool.Along (fun _ e s' => ∀ key, b.Writes key e.2 → ∃ record record',
    b.stored e.2.before key = some record ∧ b.stored s' key = some record' ∧
      b.version record' = b.version record + 1) P.state P.log
  /-- the record is what the client has saved, and nobody has written it since the client read it -/
  saved : Pool.Along (fun log e s' => ∀ saga key, b.saves e.2.op = some saga → b.Writes key e.2 →
    (∃ record, b.stored s' key = some record ∧ b.holds record saga) ∧
      b.ReadSince log e.1 key saga) P.state P.log
  /-- a client that is told so has saved -/
  returned : ∀ t ∈ P.threads, ∀ sagaId modify, t.1.2 = .edit sagaId modify → t.2 = .done true →
    ∃ e ∈ P.log, e.1.1 = t.1.1 ∧ (b.saves e.2.op).isSome = true ∧
      (b.writes e.2.op e.2.resp).isSome = true
  /-- a client that is not has met a conflict, and has written nothing -/
  conflict : ∀ t ∈ P.threads, ∀ sagaId modify, t.1.2 = .edit sagaId modify →
    ∀ error, t.2 = .raise error →
      ((∃ sagaId version version', error = .versionConflict sagaId version version') ∨
        b.refuses error) ∧
      ∀ e ∈ P.log, e.1.1 = t.1.1 → b.writes e.2.op e.2.resp = none

/-- **The condition** on a write: the record has the version that the call's check found, and for a
save that is not the version of the saga, and the save leaves out nothing that the client has
changed. -/
structure Checked (_ : List (Client × b.Entry)) (e : Client × b.Entry) (_ : b.Store) : Prop where
  found : ∀ key version, b.Writes key e.2 → b.found e.2.op = some version →
    (b.stored e.2.before key).map b.version = version
  next : ∀ saga key, b.saves e.2.op = some saga → b.Writes key e.2 →
    b.found e.2.op ≠ some (some saga.version) ∧
      ∀ record, b.stored e.2.before key = some record → b.keeps record saga

/-! ## What a repository has to show -/

structure May (Sound : b.Op → Prop) (c : EditCall) (own : List b.Entry) (o : b.Op) : Prop where
  sound : Sound o
  /-- an update is made after the record has been seen -/
  seen : ∀ r key, b.saves o = none → b.writes o r = some key →
    ∃ e ∈ own, b.stored e.before key ≠ none
  /-- a save is made of what the first operation read -/
  edits : ∀ saga, b.saves o = some saga → ∃ sagaId modify rest first key record read,
    c = .edit sagaId modify ∧ own = rest ++ [first] ∧
      b.reads first.op first.resp = some (key, record) ∧
      b.key key = some key ∧ b.stored first.before key = some record ∧ b.view record read ∧
      saga = edited modify read

def Returns (c : EditCall) (answer : Bool) (own : List b.Entry) : Prop :=
  ∀ sagaId modify, c = .edit sagaId modify → answer = true →
    ∃ e ∈ own, (b.saves e.op).isSome = true ∧ (b.writes e.op e.resp).isSome = true

def Raises (c : EditCall) (error : SagaError) (own : List b.Entry) : Prop :=
  ∀ sagaId modify, c = .edit sagaId modify →
    ((∃ sagaId version version', error = .versionConflict sagaId version version') ∨
      b.refuses error) ∧ ∀ e ∈ own, b.writes e.op e.resp = none

structure Lawful (Sound : b.Op → Prop) (WellFormed : b.Store → Prop) : Prop where
  protocol : ∀ c, Safe (Pool.OwnStep b.step) (b.May Sound c) (b.code c) [] (b.Returns c)
    (b.Raises c)
  read_key : ∀ {s key record read}, WellFormed s → b.stored s key = some record →
    b.view record read → read.sagaId = key ∧ read.version = b.version record
  saved_key : ∀ {o r saga key}, Sound o → b.saves o = some saga → b.writes o r = some key →
    b.key saga.sagaId = some key
  frame : ∀ {s o r s' key}, b.step s o r s' → Sound o → b.writes o r ≠ some key →
    b.stored s' key = b.stored s key
  wellFormed : ∀ {s o r s'}, WellFormed s → b.step s o r s' → Sound o →
    (∀ key, b.writes o r = some key → b.stored s key ≠ none) → WellFormed s'
  checked : ∀ {o saga}, Sound o → b.saves o = some saga → b.found o ≠ none
  saved : ∀ {s o r s' saga key record}, WellFormed s → b.step s o r s' → Sound o →
    b.saves o = some saga → b.writes o r = some key → b.stored s key = some record →
    b.found o = some (some (b.version record)) → b.version record ≠ saga.version →
    b.keeps record saga → b.version record = saga.version - 1 ∧
      ∃ record', b.stored s' key = some record' ∧ b.holds record' saga ∧
        b.version record' = saga.version
  updated : ∀ {s o r s' key record}, WellFormed s → b.step s o r s' → Sound o →
    b.saves o = none → b.writes o r = some key → b.stored s key = some record →
    (∀ version, b.found o = some version → version = some (b.version record)) →
      ∃ record', b.stored s' key = some record' ∧ b.version record' = b.version record + 1

section May

variable {b : Backend} {Sound : b.Op → Prop} {c : EditCall} {own : List b.Entry}

theorem May.reading {o : b.Op} (hsound : Sound o) (hsaves : b.saves o = none)
    (hwrites : ∀ r, b.writes o r = none) : b.May Sound c own o := by
  refine ⟨hsound, fun r key _ h => ?_, fun saga h => ?_⟩
  · rw [hwrites r] at h
    cases h
  · rw [hsaves] at h
    cases h

theorem May.updating {o : b.Op} (hsound : Sound o) (hsaves : b.saves o = none) (seen : b.Entry)
    (hmem : seen ∈ own) (hseen : ∀ r key, b.writes o r = some key →
      b.stored seen.before key ≠ none) : b.May Sound c own o := by
  refine ⟨hsound, fun r key _ hkey => ⟨seen, hmem, hseen r key hkey⟩, fun saga h => ?_⟩
  rw [hsaves] at h
  cases h

structure HasRead (b : Backend) (c : EditCall) (own : List b.Entry) (saga : PersistedSagaState) :
    Prop where
  read : ∃ sagaId modify rest first key record read, c = .edit sagaId modify ∧
    own = rest ++ [first] ∧ b.reads first.op first.resp = some (key, record) ∧
      b.key key = some key ∧ b.stored first.before key = some record ∧ b.view record read ∧
      saga = edited modify read
  unwritten : ∀ e ∈ own, b.writes e.op e.resp = none

theorem HasRead.cons {saga : PersistedSagaState} (h : HasRead b c own saga) {e : b.Entry}
    (he : b.writes e.op e.resp = none) : HasRead b c (e :: own) saga := by
  obtain ⟨sagaId, modify, rest, first, key, record, read, hcall, rfl, hrest⟩ := h.read
  refine ⟨⟨sagaId, modify, e :: rest, first, key, record, read, hcall, rfl, hrest⟩, fun e' he' => ?_⟩
  rcases List.mem_cons.mp he' with rfl | he'
  · exact he
  · exact h.unwritten e' he'

theorem HasRead.may {saga : PersistedSagaState} (h : HasRead b c own saga) {o : b.Op}
    (hsound : Sound o) (hsaves : b.saves o = some saga) : b.May Sound c own o := by
  refine ⟨hsound, fun r key hnone _ => ?_, fun saga' hsaga' => ?_⟩
  · rw [hsaves] at hnone
    cases hnone
  · obtain rfl := Option.some_inj.mp (hsaves.symm.trans hsaga')
    exact h.read

end May

/-! ## The argument -/

namespace Lawful

variable {b : Backend} {Sound : b.Op → Prop} {WellFormed : b.Store → Prop}

structure Kept (b : Backend) (WellFormed : b.Store → Prop) (s : b.Store)
    (log : List (Client × b.Entry)) : Prop where
  wellFormed : WellFormed s
  before : ∀ e ∈ log, WellFormed e.2.before
  advances : ∀ key, Pool.Along (fun _ e s' => Advances (b.stored · key) b.version (b.Writes key) e.2
    s') s log
  saved : Pool.Along (fun log e s' => ∀ saga key, b.saves e.2.op = some saga → b.Writes key e.2 →
    (∃ record, b.stored s' key = some record ∧ b.holds record saga) ∧
      b.ReadSince log e.1 key saga) s log

section Step

variable {s s' : b.Store} {log : List (Client × b.Entry)} {l : Client} {o : b.Op} {r : b.Resp o}

theorem Kept.there (h : Kept b WellFormed s log) {e : Client × b.Entry} (he : e ∈ log)
    {key : String} (hstored : b.stored e.2.before key ≠ none) : ∃ record,
      b.stored s key = some record := by
  obtain ⟨later, earlier, rfl⟩ := List.append_of_mem he
  obtain ⟨record, hrecord⟩ := Option.ne_none_iff_exists'.mp hstored
  obtain ⟨record', hrecord', _⟩ := (h.advances key).unwritten hrecord
  exact ⟨record', hrecord'⟩

/-- **A save**: the record has the version that the client read, so it is the one that the client
read. -/
theorem Kept.save (hb : b.Lawful Sound WellFormed) (h : Kept b WellFormed s log)
    (hstep : b.step s o r s') (hmay : b.May Sound l.2 (Pool.own Prod.fst l.1 log) o)
    (hchecked : b.Checked log (l, ⟨s, o, r⟩) s') {saga : PersistedSagaState}
    (hsaves : b.saves o = some saga) {key : String} (hwrites : b.writes o r = some key) :
    ∃ record record', b.stored s key = some record ∧ b.stored s' key = some record' ∧
      b.version record' = b.version record + 1 ∧ b.holds record' saga ∧
      b.ReadSince log l key saga := by
  obtain ⟨sagaId, modify, rest, first, key', record, read, hcall, hown, hreads, hcanonical,
    hstored, hview, hsaga⟩ := hmay.edits saga hsaves
  obtain ⟨later, l', earlier, hlog, hl', hearlier⟩ := Pool.own_first hown
  have hmem : (l', first) ∈ log := by
    rw [hlog]
    exact List.mem_append_right _ (List.mem_cons_self ..)
  obtain ⟨hkey, hversion⟩ := hb.read_key (h.before _ hmem) hstored hview
  have hsame : key' = key := by
    have hsaved := hb.saved_key hmay.sound hsaves hwrites
    rw [hsaga, edited, hkey, hcanonical] at hsaved
    exact Option.some_inj.mp hsaved
  subst hsame
  have hadvances := h.advances key'
  rw [hlog] at hadvances
  obtain ⟨now, hnow, _, hunwritten⟩ := hadvances.unwritten hstored
  obtain ⟨version, hfound⟩ := Option.ne_none_iff_exists'.mp (hb.checked hmay.sound hsaves)
  have hthere := hchecked.found key' version hwrites hfound
  have hnowVersion : version = some (b.version now) := by
    rw [← hthere, hnow]
    rfl
  rw [hnowVersion] at hfound
  obtain ⟨hnext, hkeeps⟩ := hchecked.next saga key' hsaves hwrites
  have hne : b.version now ≠ saga.version := by
    intro heq
    rw [hfound, heq] at hnext
    exact hnext rfl
  obtain ⟨hprevious, record', hrecord', hholds, hversion'⟩ :=
    hb.saved h.wellFormed hstep hmay.sound hsaves hwrites hnow hfound hne (hkeeps now hnow)
  have hread : b.version now = b.version record := by
    rw [hprevious, hsaga, ← hversion]
    exact add_sub_cancel_right ..
  obtain ⟨_, hnone⟩ := hunwritten hread
  refine ⟨now, record', hnow, hrecord', by rw [hversion', hprevious, sub_add_cancel], hholds, ?_⟩
  exact ⟨later, l', first, earlier, sagaId, modify, record, read, hlog, hl', hearlier, hcall,
    hreads, hview, hsaga, fun p hp => hnone p (List.mem_append_left _ hp)⟩

theorem Kept.step (hb : b.Lawful Sound WellFormed) (h : Kept b WellFormed s log)
    (hstep : b.step s o r s') (hmay : b.May Sound l.2 (Pool.own Prod.fst l.1 log) o)
    (hchecked : b.Checked log (l, ⟨s, o, r⟩) s') :
    Kept b WellFormed s' ((l, ⟨s, o, r⟩) :: log) := by
  have hraised : ∀ key, b.writes o r = some key → ∃ record record', b.stored s key = some record ∧
      b.stored s' key = some record' ∧ b.version record' = b.version record + 1 := by
    intro key hwrites
    cases hsaves : b.saves o with
    | some saga =>
      obtain ⟨record, record', hrecord, hrecord', hversion, _⟩ :=
        h.save hb hstep hmay hchecked hsaves hwrites
      exact ⟨record, record', hrecord, hrecord', hversion⟩
    | none =>
      obtain ⟨e, he, hseen⟩ := hmay.seen r key hsaves hwrites
      obtain ⟨l', hmem, _⟩ := Pool.mem_own.mp he
      obtain ⟨record, hrecord⟩ := h.there hmem hseen
      have hfound : ∀ version, b.found o = some version → version = some (b.version record) := by
        intro version hversion
        rw [← hchecked.found key version hwrites hversion, hrecord]
        rfl
      obtain ⟨record', hrecord', hversion⟩ :=
        hb.updated h.wellFormed hstep hmay.sound hsaves hwrites hrecord hfound
      exact ⟨record, record', hrecord, hrecord', hversion⟩
  refine ⟨hb.wellFormed h.wellFormed hstep hmay.sound fun key hwrites => ?_, fun e he => ?_,
    fun key => ⟨⟨hraised key, hb.frame hstep hmay.sound⟩, h.advances key⟩,
    ⟨fun saga key hsaves hwrites => ?_, h.saved⟩⟩
  · obtain ⟨record, _, hrecord, _⟩ := hraised key hwrites
    rw [hrecord]
    exact Option.some_ne_none record
  · rcases List.mem_cons.mp he with rfl | he
    · exact h.wellFormed
    · exact h.before e he
  · obtain ⟨_, record', _, hrecord', _, hholds, hsince⟩ :=
      h.save hb hstep hmay hchecked hsaves hwrites
    exact ⟨⟨record', hrecord', hholds⟩, hsince⟩

end Step

/-- **No update is lost** in a run all of whose writes are checked. -/
theorem noLostUpdate (hb : b.Lawful Sound WellFormed) {clients : List EditCall} {init : b.Store}
    {P : b.Calls} (hinit : WellFormed init) (hreach : b.Interleaved clients init P)
    (hcond : Pool.Along b.Checked P.state P.log) : b.NoLostUpdate P := by
  have hdistinct : (b.threads clients).Pairwise fun t t' => t.1.1 ≠ t'.1.1 := by
    have hnodup : (clients.zipIdx.map Prod.snd).Nodup := by
      rw [List.zipIdx_map_snd]
      exact List.nodup_range'
    exact List.pairwise_map.mpr (List.pairwise_map.mp hnodup)
  obtain ⟨hmay, hthreads⟩ := hreach.own_safe Prod.fst (fun l => b.May Sound l.2)
    (fun l => b.Returns l.2) (fun l => b.Raises l.2) hdistinct (by
      intro t ht
      obtain ⟨client, _, rfl⟩ := List.mem_map.mp ht
      exact hb.protocol client.1)
  have hkept : Kept b WellFormed P.state P.log :=
    (hreach.invariant_along (Kept b WellFormed) (fun _ _ _ _ => True)
      ⟨hinit, by simp, fun _ => trivial, trivial⟩ (by simp) (fun _ h => h.elim)
      (fun h _ hstep hboth => ⟨h.step hb hstep hboth.1 hboth.2, trivial⟩)
      (fun _ _ _ _ => id) (hmay.and hcond)).1
  have hlog : ∀ {client e}, e ∈ Pool.own Prod.fst client P.log →
      ∃ p ∈ P.log, p.1.1 = client ∧ p.2 = e := by
    intro client e he
    obtain ⟨l, hl, hclient⟩ := Pool.mem_own.mp he
    exact ⟨(l, e), hl, hclient, rfl⟩
  refine ⟨Pool.Along.imp_forall hkept.advances fun _ _ _ h key => (h key).raised, hkept.saved,
    fun t ht sagaId modify hcall hdone => ?_, fun t ht sagaId modify hcall error herror => ?_⟩
  · obtain ⟨l, p⟩ := t
    subst hdone
    obtain ⟨e, he, hsaved⟩ := hthreads _ ht sagaId modify hcall rfl
    obtain ⟨p, hp, hclient, rfl⟩ := hlog he
    exact ⟨p, hp, hclient, hsaved⟩
  · obtain ⟨l, p⟩ := t
    subst herror
    obtain ⟨hconflict, hnone⟩ := hthreads _ ht sagaId modify hcall
    refine ⟨hconflict, fun e he hclient => hnone e.2 ?_⟩
    exact Pool.mem_own.mpr ⟨e.1, he, hclient⟩

end Lawful

end Backend

end EnhancedAgentBus.SagaPersistence
