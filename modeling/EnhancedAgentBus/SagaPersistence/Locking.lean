import EnhancedAgentBus.Lib.Async
import Mathlib.Algebra.Order.Group.Int
import Mathlib.Data.Option.Basic

/-!
# The lock on a saga

`acquire_lock`, `release_lock` and `extend_lock` of the Redis backend on the lock of one saga, any
number of them in flight, their Redis commands interleaved, with time passing between any two.  A
key whose time is up is gone.  A command may fail, and may have been executed all the same; the
call then ends with `LockError`.

Who owns an unexpired lock is read off the log (`grantedUntil`): a holder whose `SET NX` was
answered with success owns the lock for the time it asked for, or until its own `DEL`, and its own
`EXPIRE` of the lock counts from anew.

### What is load-bearing

A `DEL` or an `EXPIRE` does not say whose lock it is about.  All that `HeldSince` asks for is that
nobody else has acquired the lock since the holder was read; `lastTaker` is the invariant that
makes this enough, because the stored lock is that of the last holder to take it.
-/

namespace EnhancedAgentBus.SagaPersistence

open Async Async.Prog

/-- The key `acgs2:saga:lock:{saga_id}`: its value, and when it expires. -/
structure Lock where
  holder : String
  expiresAt : ℤ
deriving DecidableEq

structure LockStore where
  lock : Option Lock := none
  now : ℤ := 0

inductive Fault where
  | refused
  | lost
deriving DecidableEq

inductive LockOp where
  /-- `SET key lock_holder NX EX ttl` -/
  | setNx (lockHolder : String) (ttlSeconds : ℤ)
  | get
  | delete
  | expire (ttlSeconds : ℤ)
  /-- time passes -/
  | elapse (duration : ℤ)

namespace LockOp

@[reducible] def Answer : LockOp → Type
  | setNx _ _ => Bool
  | get => Option String
  | delete => Unit
  | expire _ => Bool
  | elapse _ => Unit

abbrev Resp (o : LockOp) : Type := Except Fault o.Answer

/-- Redis answers `SET EX` with an error unless the time to live is positive. -/
def valid : LockOp → Bool
  | setNx _ ttlSeconds => 0 < ttlSeconds
  | elapse duration => 0 ≤ duration
  | get | delete | expire _ => true

end LockOp

def executed {α : Type} : Except Fault α → Bool
  | .error .refused => false
  | .error .lost | .ok _ => true

inductive Delivery where
  | answered
  | fails (fault : Fault)

namespace LockStore

def held (s : LockStore) : Option Lock := s.lock.filter fun lock => s.now < lock.expiresAt

def execute (s : LockStore) : (o : LockOp) → o.Answer × LockStore
  | .setNx lockHolder ttlSeconds =>
    match s.held with
    | some _ => (false, s)
    | none => (true, { s with lock := some ⟨lockHolder, s.now + 1000 * ttlSeconds⟩ })
  | .get => (s.held.map Lock.holder, s)
  | .delete => ((), { s with lock := none })
  | .expire ttlSeconds =>
    match s.held with
    | some lock => (true, { s with lock := some ⟨lock.holder, s.now + 1000 * ttlSeconds⟩ })
    | none => (false, s)
  | .elapse duration => ((), { s with now := s.now + duration })

def perform (s : LockStore) (o : LockOp) : Delivery → Option (o.Resp × LockStore)
  | .answered => if o.valid then some (.ok (s.execute o).1, (s.execute o).2) else none
  | .fails .lost => if o.valid then some (.error .lost, (s.execute o).2) else none
  | .fails .refused => some (.error .refused, s)

end LockStore

/-! ## The calls -/

/-- `LockError`, by its message. -/
inductive LockError where
  /-- "Failed to acquire lock" -/
  | acquire
  /-- "Failed to release lock" -/
  | release
  /-- "Failed to extend lock" -/
  | extend
deriving DecidableEq

abbrev LockCode := Prog LockOp LockOp.Resp LockError

/-- A command, whose failure becomes a `LockError`. -/
def command (o : LockOp) (e : LockError) : LockCode o.Answer :=
  .await o fun
    | .ok answer => .done answer
    | .error _ => .raise e

def acquireLock (lockHolder : String) (ttlSeconds : ℤ) : LockCode Bool :=
  command (.setNx lockHolder ttlSeconds) .acquire

/-- `not current_holder or current_holder != lock_holder` -/
def heldByOther (lockHolder : String) : Option String → Bool
  | none => true
  | some currentHolder => currentHolder = "" ∨ currentHolder ≠ lockHolder

def releaseLock (lockHolder : String) : LockCode Bool := do
  let currentHolder ← command .get .release
  if heldByOther lockHolder currentHolder then pure false
  else do
    command .delete .release
    pure true

def extendLock (lockHolder : String) (ttlSeconds : ℤ) : LockCode Bool := do
  let currentHolder ← command .get .extend
  if heldByOther lockHolder currentHolder then pure false
  else do
    let _ ← command (.expire ttlSeconds) .extend
    pure true

inductive LockCall where
  | acquire (lockHolder : String) (ttlSeconds : ℤ)
  | release (lockHolder : String)
  | extend (lockHolder : String) (ttlSeconds : ℤ)
  | time (duration : ℤ)

namespace LockCall

def code : LockCall → LockCode Bool
  | acquire lockHolder ttlSeconds => acquireLock lockHolder ttlSeconds
  | release lockHolder => releaseLock lockHolder
  | extend lockHolder ttlSeconds => extendLock lockHolder ttlSeconds
  | time duration => .await (.elapse duration) fun _ => .done true

def holder : LockCall → Option String
  | acquire lockHolder _ | release lockHolder | extend lockHolder _ => some lockHolder
  | time _ => none

/-- `release_lock` or `extend_lock` -/
def isReleaseOrExtend : LockCall → Bool
  | release _ | extend _ _ => true
  | acquire _ _ | time _ => false

end LockCall

abbrev LockEntry := LockCall × Entry LockStore LockOp LockOp.Resp

abbrev LockCalls := Pool LockCall LockOp LockOp.Resp LockError Bool LockStore

def LockStep (s : LockStore) (o : LockOp) (r : o.Resp) (s' : LockStore) : Prop :=
  ∃ delivery, s.perform o delivery = some (r, s')

abbrev LocksInterleaved (P : LockCalls) : Prop :=
  Pool.Reach LockStep (fun _ c p => p = c.code) [] {} P

/-! ## Ownership -/

def LockOp.grants (h : String) (s : LockStore) :
    (o : LockOp) → o.Resp → Option ℤ → Option ℤ
  | .setNx _ ttlSeconds, .ok true, _ => some (s.now + 1000 * ttlSeconds)
  | .delete, r, granted => if executed r then none else granted
  | .expire ttlSeconds, r, granted =>
    if executed r ∧ s.held.map Lock.holder = some h then granted.map fun _ => s.now + 1000 * ttlSeconds
    else granted
  | _, _, granted => granted

def grantedUntil (h : String) : List LockEntry → Option ℤ
  | [] => none
  | (c, e) :: log =>
    if c.holder = some h then e.op.grants h e.before e.resp (grantedUntil h log)
    else grantedUntil h log

/-- A holder whose acquire returned `True` owns a lock that has not expired. -/
def Owns (P : LockCalls) (h : String) : Prop :=
  ∃ t, grantedUntil h P.log = some t ∧ P.state.now < t

/-- A call of `release_lock` or `extend_lock` leaves the lock of another holder as it is. -/
def LeavesOthers (_ : List LockEntry) (p : LockEntry) (s' : LockStore) : Prop :=
  p.1.isReleaseOrExtend = true → ∀ lock, p.2.before.held = some lock →
    p.1.holder ≠ some lock.holder → s'.lock = some lock

/-- **The lock is safe**: nobody's lock is deleted or its expiry changed by another holder, and at
most one holder owns an unexpired lock. -/
structure LockSafe (P : LockCalls) : Prop where
  foreign : Pool.Along LeavesOthers P.state P.log
  owner : ∀ h h', Owns P h → Owns P h' → h = h'

/-! ## The condition -/

def LockOp.Takes (s : LockStore) : (o : LockOp) → o.Resp → Prop
  | .setNx _ _, r => s.held = none ∧ executed r = true ∧ r ≠ .ok false
  | _, _ => False

def LockOp.Reads (h : String) : (o : LockOp) → o.Resp → Prop
  | .get, r => r = .ok (some h)
  | _, _ => False

def HeldSince (h : String) (log : List LockEntry) : Prop :=
  ∃ later c e earlier, log = later ++ (c, e) :: earlier ∧ e.op.Reads h e.resp ∧
    ∀ p ∈ later, p.2.op.Takes p.2.before p.2.resp → p.1.holder = some h

/-- A `DEL` or an `EXPIRE` comes before anybody else takes the lock. -/
def Undisputed (log : List LockEntry) (p : LockEntry) (_ : LockStore) : Prop :=
  match p.2.op with
  | .delete | .expire _ => ∀ h, p.1.holder = some h → HeldSince h log
  | _ => True

/-! ## The last holder to take the lock -/

def LastTaker (h : String) : List LockEntry → Prop
  | [] => False
  | (c, e) :: log =>
    (e.op.Takes e.before e.resp ∧ c.holder = some h) ∨
      (¬ e.op.Takes e.before e.resp ∧ LastTaker h log)

theorem LastTaker.unique {h h' : String} {log : List LockEntry} (hh : LastTaker h log)
    (hh' : LastTaker h' log) : h = h' := by
  induction log with
  | nil => exact hh.elim
  | cons p log ih =>
    obtain ⟨c, e⟩ := p
    rcases hh with ⟨htakes, hc⟩ | ⟨hnot, hlast⟩
    · rcases hh' with ⟨_, hc'⟩ | ⟨hnot, _⟩
      · exact Option.some_inj.mp (hc.symm.trans hc')
      · exact absurd htakes hnot
    · rcases hh' with ⟨htakes, _⟩ | ⟨_, hlast'⟩
      · exact absurd htakes hnot
      · exact ih hlast hlast'

theorem LastTaker.append {h : String} {log later : List LockEntry} (hlast : LastTaker h log)
    (hlater : ∀ p ∈ later, p.2.op.Takes p.2.before p.2.resp → p.1.holder = some h) :
    LastTaker h (later ++ log) := by
  induction later with
  | nil => exact hlast
  | cons p later ih =>
    have hrest := ih fun q hq => hlater q (List.mem_cons_of_mem p hq)
    by_cases htakes : p.2.op.Takes p.2.before p.2.resp
    · exact .inl ⟨htakes, hlater p (List.mem_cons_self ..) htakes⟩
    · exact .inr ⟨htakes, hrest⟩

/-! ## One step -/

def LockOp.IssuedBy (c : LockCall) : LockOp → Prop
  | .setNx lockHolder _ => c.holder = some lockHolder ∧ c.isReleaseOrExtend = false
  | .get | .delete | .expire _ => c.isReleaseOrExtend = true
  | .elapse _ => c.holder = none

abbrev Issues {α : Type} (c : LockCall) (p : LockCode α) : Prop :=
  Safe (fun _ _ _ _ => True) (fun (_ : Unit) => LockOp.IssuedBy c) p () (fun _ _ => True)
    fun _ _ => True

section Issues

variable {α β : Type} {c : LockCall}

theorem Issues.bind {p : LockCode α} {f : α → LockCode β} (hp : Issues c p)
    (hf : ∀ a, Issues c (f a)) : Issues c (p >>= f) := by
  rw [Issues, safe_bind]
  exact hp.mono (fun a _ _ => hf a) fun _ _ => id

theorem command_issues {o : LockOp} (ho : o.IssuedBy c) (e : LockError) :
    Issues c (command o e) := by
  refine ⟨ho, fun r _ _ => ?_⟩
  cases r <;> trivial

end Issues

theorem code_issues (c : LockCall) : Issues c c.code := by
  cases c with
  | acquire lockHolder ttlSeconds => exact command_issues (by exact ⟨rfl, rfl⟩) _
  | time duration => exact ⟨rfl, fun _ _ _ => trivial⟩
  | release lockHolder =>
    refine Issues.bind (command_issues (by rfl) _) fun currentHolder => ?_
    split
    · trivial
    · exact Issues.bind (command_issues (by rfl) _) fun _ => trivial
  | extend lockHolder ttlSeconds =>
    refine Issues.bind (command_issues (by rfl) _) fun currentHolder => ?_
    split
    · trivial
    · exact Issues.bind (command_issues (by rfl) _) fun _ => trivial

theorem LockStep.cases {s s' : LockStore} {o : LockOp} {r : o.Resp} (h : LockStep s o r s') :
    (executed r = true ∧ o.valid = true ∧ s' = (s.execute o).2 ∧
        ∀ answer, r = .ok answer → answer = (s.execute o).1) ∨
      (r = .error .refused ∧ s' = s) := by
  obtain ⟨delivery, h⟩ := h
  cases delivery with
  | answered =>
    simp only [LockStore.perform, Option.ite_none_right_eq_some, Option.some_inj,
      Prod.mk.injEq] at h
    obtain ⟨hvalid, rfl, rfl⟩ := h
    exact .inl ⟨rfl, hvalid, rfl, fun answer hanswer => (Except.ok.inj hanswer).symm⟩
  | fails fault =>
    cases fault with
    | refused =>
      simp only [LockStore.perform, Option.some_inj, Prod.mk.injEq] at h
      exact .inr ⟨h.1.symm, h.2.symm⟩
    | lost =>
      simp only [LockStore.perform, Option.ite_none_right_eq_some, Option.some_inj,
        Prod.mk.injEq] at h
      obtain ⟨hvalid, rfl, rfl⟩ := h
      exact .inl ⟨rfl, hvalid, rfl, nofun⟩

theorem held_eq_some_iff {s : LockStore} {lock : Lock} :
    s.held = some lock ↔ s.lock = some lock ∧ s.now < lock.expiresAt := by
  simp [LockStore.held, Option.filter_eq_some_iff]

structure LockKept (s : LockStore) (log : List LockEntry) : Prop where
  /-- the stored lock is that of the last holder to take it -/
  taken : ∀ lock, s.lock = some lock → LastTaker lock.holder log
  /-- so was every lock that was read -/
  read : ∀ later c e earlier h, log = later ++ (c, e) :: earlier → e.op.Reads h e.resp →
    LastTaker h earlier
  /-- a lock that is granted is the stored one -/
  granted : ∀ h t, grantedUntil h log = some t → s.now < t → s.lock = some ⟨h, t⟩
  foreign : Pool.Along LeavesOthers s log

theorem LockKept.own {s : LockStore} {log : List LockEntry} (h : LockKept s log) {holder : String}
    (hsince : HeldSince holder log) {lock : Lock} (hlock : s.lock = some lock) :
    lock.holder = holder := by
  obtain ⟨later, c, e, earlier, rfl, hreads, hlater⟩ := hsince
  have hearlier := h.read later c e earlier holder rfl hreads
  have hget : ¬ e.op.Takes e.before e.resp := by
    obtain ⟨before, o, r⟩ := e
    cases o <;> first | exact id | exact hreads.elim
  exact (h.taken lock hlock).unique (LastTaker.append (.inr ⟨hget, hearlier⟩) hlater)

section Step

variable {s s' : LockStore} {log : List LockEntry} {c : LockCall} {o : LockOp} {r : o.Resp}

theorem LockKept.cons (h : LockKept s log)
    (htaken : ∀ lock, s'.lock = some lock → LastTaker lock.holder ((c, ⟨s, o, r⟩) :: log))
    (hread : ∀ holder, o.Reads holder r → LastTaker holder log)
    (hgranted : ∀ h t, grantedUntil h ((c, ⟨s, o, r⟩) :: log) = some t → s'.now < t →
      s'.lock = some ⟨h, t⟩)
    (hforeign : LeavesOthers log (c, ⟨s, o, r⟩) s') : LockKept s' ((c, ⟨s, o, r⟩) :: log) := by
  refine ⟨htaken, ?_, hgranted, hforeign, h.foreign⟩
  intro later c' e' earlier holder hlog hreads
  rcases later with _ | ⟨p, later⟩
  · obtain ⟨heq, rfl⟩ := List.cons_eq_cons.mp hlog
    cases heq
    exact hread holder hreads
  · obtain ⟨_, rfl⟩ := List.cons_eq_cons.mp hlog
    exact h.read later c' e' earlier holder rfl hreads

theorem LockKept.unchanged (h : LockKept s log) (hlock : s'.lock = s.lock) (hnow : s.now ≤ s'.now)
    (hnot : ¬ o.Takes s r) (hread : ∀ holder, o.Reads holder r → LastTaker holder log)
    (hgrants : ∀ h granted, c.holder = some h → o.grants h s r granted = granted) :
    LockKept s' ((c, ⟨s, o, r⟩) :: log) := by
  refine h.cons (fun lock hs' => .inr ⟨hnot, h.taken lock (hlock ▸ hs')⟩) hread ?_ ?_
  · intro holder t hgranted ht
    have hbefore : grantedUntil holder log = some t := by
      rw [grantedUntil] at hgranted
      split at hgranted
      · next hc => rwa [hgrants holder _ hc] at hgranted
      · exact hgranted
    rw [hlock, h.granted holder t hbefore (hnow.trans_lt ht)]
  · intro _ lock hheld _
    rw [hlock, (held_eq_some_iff.mp hheld).1]

theorem LockKept.refused (h : LockKept s log) :
    LockKept s ((c, ⟨s, o, (.error .refused : o.Resp)⟩) :: log) := by
  refine h.unchanged rfl le_rfl ?_ ?_ ?_
  · cases o <;> first | exact id | exact fun ⟨_, hexecuted, _⟩ => by cases hexecuted
  · intro holder hreads
    cases o <;> cases hreads
  · intro holder granted _
    cases o <;> rfl

theorem LockKept.setNx {lockHolder : String} {ttlSeconds : ℤ} {r : Except Fault Bool}
    (h : LockKept s log) (hc : c.holder = some lockHolder) (hexecuted : executed r = true)
    (hanswer : ∀ answer, r = .ok answer → answer = (s.execute (.setNx lockHolder ttlSeconds)).1) :
    LockKept (s.execute (.setNx lockHolder ttlSeconds)).2
      ((c, ⟨s, .setNx lockHolder ttlSeconds, r⟩) :: log) := by
  cases hheld : s.held with
  | some lock =>
    have hexecute : s.execute (.setNx lockHolder ttlSeconds) = (false, s) := by
      simp only [LockStore.execute, hheld]
    rw [hexecute] at hanswer ⊢
    refine h.unchanged rfl le_rfl (fun htakes => ?_) (fun _ => False.elim) ?_
    · rw [htakes.1] at hheld
      cases hheld
    · intro holder granted _
      rcases r with _ | _ | _
      · rfl
      · rfl
      · cases hanswer true rfl
  | none =>
    have hexecute : s.execute (.setNx lockHolder ttlSeconds) =
        (true, { s with lock := some ⟨lockHolder, s.now + 1000 * ttlSeconds⟩ }) := by
      simp only [LockStore.execute, hheld]
    rw [hexecute] at hanswer ⊢
    have hfree : ∀ holder t, grantedUntil holder log = some t → ¬ s.now < t := by
      intro holder t hgranted ht
      rw [held_eq_some_iff.mpr ⟨h.granted holder t hgranted ht, ht⟩] at hheld
      cases hheld
    refine h.cons (fun lock hlock => .inl ⟨⟨hheld, hexecuted, ?_⟩, ?_⟩) (fun _ => False.elim)
      (fun holder t hgranted ht => ?_) fun _ lock hlock _ => ?_
    · rintro rfl
      cases hanswer false rfl
    · rw [hc, ← Option.some_inj.mp hlock]
    · rw [grantedUntil] at hgranted
      split at hgranted
      · rename_i hholder
        obtain rfl := Option.some_inj.mp (hc.symm.trans hholder)
        rcases r with _ | _ | _
        · exact absurd ht (hfree lockHolder t hgranted)
        · cases hanswer false rfl
        · rw [← Option.some_inj.mp hgranted]
      · exact absurd ht (hfree holder t hgranted)
    · rw [hlock] at hheld
      cases hheld

theorem LockKept.delete {r : Except Fault Unit} (h : LockKept s log)
    (hown : ∀ lock, s.lock = some lock → c.holder = some lock.holder)
    (hexecuted : executed r = true) :
    LockKept (s.execute .delete).2 ((c, ⟨s, .delete, r⟩) :: log) := by
  refine h.cons (fun lock hlock => by cases hlock) (fun _ => False.elim)
    (fun holder t hgranted ht => ?_) fun _ lock hlock hc => ?_
  · exfalso
    rw [grantedUntil] at hgranted
    split at hgranted
    · simp [LockOp.grants, hexecuted] at hgranted
    · next hc => exact hc (hown _ (h.granted holder t hgranted ht))
  · exact absurd (hown lock (held_eq_some_iff.mp hlock).1) hc

theorem LockKept.expire {ttlSeconds : ℤ} {r : Except Fault Bool} (h : LockKept s log)
    (hown : ∀ lock, s.lock = some lock → c.holder = some lock.holder)
    (hexecuted : executed r = true) :
    LockKept (s.execute (.expire ttlSeconds)).2 ((c, ⟨s, .expire ttlSeconds, r⟩) :: log) := by
  rcases hheld : s.held with _ | lock
  · have hexecute : s.execute (.expire ttlSeconds) = (false, s) := by
      simp only [LockStore.execute, hheld]
    rw [hexecute]
    refine h.unchanged rfl le_rfl id (fun _ => False.elim) fun holder granted _ => ?_
    simp [LockOp.grants, hheld]
  · have hexecute : s.execute (.expire ttlSeconds) =
        (true, { s with lock := some ⟨lock.holder, s.now + 1000 * ttlSeconds⟩ }) := by
      simp only [LockStore.execute, hheld]
    have hc := hown lock (held_eq_some_iff.mp hheld).1
    rw [hexecute]
    refine h.cons (fun lock' hlock' => .inr ⟨id, ?_⟩) (fun _ => False.elim)
      (fun holder t hgranted ht => ?_) fun _ lock' hlock' hc' => ?_
    · rw [← Option.some_inj.mp hlock']
      exact h.taken lock (held_eq_some_iff.mp hheld).1
    · rw [grantedUntil] at hgranted
      split at hgranted
      · rename_i hholder
        obtain rfl := Option.some_inj.mp (hc.symm.trans hholder)
        simp only [LockOp.grants, hexecuted, hheld, Option.map_some, and_self, if_true,
          Option.map_eq_some_iff] at hgranted
        obtain ⟨_, _, rfl⟩ := hgranted
        rfl
      · next hholder => exact absurd (hown _ (h.granted holder t hgranted ht)) hholder
    · exact absurd (hown lock' (held_eq_some_iff.mp hlock').1) hc'

theorem LockKept.step (h : LockKept s log) (hstep : LockStep s o r s') (hissued : o.IssuedBy c)
    (hundisputed : Undisputed log (c, ⟨s, o, r⟩) s') :
    LockKept s' ((c, ⟨s, o, r⟩) :: log) := by
  have hown : c.isReleaseOrExtend = true → (∀ h, c.holder = some h → HeldSince h log) →
      ∀ lock, s.lock = some lock → c.holder = some lock.holder := by
    intro hc hsince lock hlock
    cases c with
    | acquire | time => cases hc
    | release holder | extend holder => rw [h.own (hsince holder rfl) hlock]; rfl
  rcases hstep.cases with ⟨hexecuted, hvalid, rfl, hanswer⟩ | ⟨rfl, rfl⟩
  · cases o with
    | setNx lockHolder ttlSeconds => exact h.setNx hissued.1 hexecuted hanswer
    | get =>
      refine h.unchanged rfl le_rfl id (fun holder hreads => ?_) fun _ _ _ => rfl
      have hholder := hanswer _ hreads
      obtain ⟨lock, hlock, rfl⟩ := Option.map_eq_some_iff.mp hholder.symm
      exact h.taken lock (held_eq_some_iff.mp hlock).1
    | delete => exact h.delete (hown hissued hundisputed) hexecuted
    | expire ttlSeconds => exact h.expire (hown hissued hundisputed) hexecuted
    | elapse duration =>
      have hduration : 0 ≤ duration := by simpa [LockOp.valid] using hvalid
      refine h.unchanged rfl (le_add_of_nonneg_right hduration) id (fun _ => False.elim) ?_
      intro holder granted hholder
      rw [show c.holder = none from hissued] at hholder
      cases hholder
  · exact h.refused

end Step

/-! ## Whole runs -/

section Run

variable {P : LockCalls}

theorem LocksInterleaved.kept (hreach : LocksInterleaved P)
    (hcond : Pool.Along Undisputed P.state P.log) : LockKept P.state P.log := by
  refine (hreach.invariant_along LockKept (fun _ _ c p => Issues c p) ?_ (by simp) ?_ ?_ ?_
    hcond).1
  · exact ⟨nofun, by simp, nofun, trivial⟩
  · rintro _ _ c p _ rfl
    exact code_issues c
  · intro s log c o k r s' hkept hissues hstep hundisputed
    exact ⟨hkept.step hstep hissues.1 hundisputed, hissues.2 r () trivial⟩
  · exact fun _ _ _ _ => id

/-! ### A lock that is deleted by another holder -/

def LockCalls.go (P : LockCalls) (i n : ℕ) : LockCalls :=
  P.ticks LockStore.perform (fun _ _ _ => some .answered) i n

def LockCalls.start (P : LockCalls) (c : LockCall) : LockCalls := P.add c c.code

theorem LocksInterleaved.go {P : LockCalls} (h : LocksInterleaved P) (i n : ℕ) :
    LocksInterleaved (P.go i n) :=
  Pool.Reach.ticks n h

theorem LocksInterleaved.start {P : LockCalls} (h : LocksInterleaved P) (c : LockCall) :
    LocksInterleaved (P.start c) :=
  Pool.Reach.add h rfl

def releasing : LockCalls :=
  ((LockCalls.start ⟨[], {}, []⟩ (.acquire "ann" 30)).go 0 1).start (.release "ann") |>.go 0 1

def overlapped : LockCalls :=
  ((((((releasing.start (.time 31000)).go 0 1).start (.acquire "bob" 30)).go 0 1).go 2 1).start
    (.acquire "eve" 30)).go 0 1

theorem releasing_interleaved : LocksInterleaved releasing :=
  ((LocksInterleaved.start .init _).go 0 1).start _ |>.go 0 1

theorem overlapped_interleaved : LocksInterleaved overlapped :=
  ((((((releasing_interleaved.start _).go 0 1).start _).go 0 1).go 2 1).start _).go 0 1

/-- Bob and Eve own the lock at the same time. -/
theorem overlapped_owned_twice :
    LocksInterleaved overlapped ∧ Owns overlapped "bob" ∧ Owns overlapped "eve" ∧
      ¬ LockSafe overlapped := by
  have hbob : Owns overlapped "bob" := ⟨61000, by decide +kernel, by decide +kernel⟩
  have heve : Owns overlapped "eve" := ⟨61000, by decide +kernel, by decide +kernel⟩
  exact ⟨overlapped_interleaved, hbob, heve, fun h => absurd (h.owner _ _ hbob heve) (by decide)⟩

/-- **The lock is safe** in every run in which no `DEL` and no `EXPIRE` comes after another holder
has taken the lock. -/
theorem lockSafe_of_undisputed (hreach : LocksInterleaved P)
    (hcond : Pool.Along Undisputed P.state P.log) : LockSafe P := by
  have hkept := hreach.kept hcond
  refine ⟨hkept.foreign, ?_⟩
  rintro h h' ⟨t, hgranted, ht⟩ ⟨t', hgranted', ht'⟩
  have hlock := hkept.granted h t hgranted ht
  have hlock' := hkept.granted h' t' hgranted' ht'
  exact congrArg Lock.holder (Option.some_inj.mp (hlock.symm.trans hlock'))

def released : LockCalls := releasing.go 0 1

theorem released_undisputed : Pool.Along Undisputed released.state released.log := by
  have hdelete : ∀ h, some "ann" = some h → HeldSince h releasing.log := by
    intro h hholder
    obtain rfl := Option.some_inj.mp hholder
    exact ⟨[], .release "ann", ⟨releasing.state, .get, .ok (some "ann")⟩, _, rfl, rfl, by simp⟩
  exact And.intro hdelete (And.intro trivial (And.intro trivial trivial))

theorem lockSafe_of_undisputed_released : LockSafe released :=
  lockSafe_of_undisputed (releasing_interleaved.go 0 1) released_undisputed

end Run

end EnhancedAgentBus.SagaPersistence
