import EnhancedAgentBus.Lib.Async
import Mathlib.Algebra.Order.Group.Int

/-!
# Versions of a record

A record that some operations write, each raising its version by one, and that nothing else
touches.  Its version then tells whether it has been written: between two points of a run at which
it has the same version, it has not (`Pool.Along.unwritten`).
-/

namespace Async

variable {Lbl Op : Type} {Resp : Op → Type} {σ R : Type}

/-- A write raises the version by one, and other operations leave the record as it is. -/
structure Advances (stored : σ → Option R) (version : R → ℤ) (writes : Entry σ Op Resp → Prop)
    (e : Entry σ Op Resp) (s' : σ) : Prop where
  raised : writes e → ∃ r r', stored e.before = some r ∧ stored s' = some r' ∧
    version r' = version r + 1
  kept : ¬ writes e → stored s' = stored e.before

variable {stored : σ → Option R} {version : R → ℤ} {writes : Entry σ Op Resp → Prop}

theorem Advances.le {e : Entry σ Op Resp} {s' : σ} (h : Advances stored version writes e s')
    {r : R} (hr : stored e.before = some r) :
    ∃ r', stored s' = some r' ∧ version r ≤ version r' ∧
      (version r' = version r → r' = r ∧ ¬ writes e) := by
  by_cases hwrites : writes e
  · obtain ⟨r₀, r', hr₀, hr', hversion⟩ := h.raised hwrites
    obtain rfl := Option.some_inj.mp (hr₀.symm.trans hr)
    exact ⟨r', hr', by omega, fun heq => absurd heq (by omega)⟩
  · exact ⟨r, (h.kept hwrites).trans hr, le_rfl, fun _ => ⟨rfl, hwrites⟩⟩

/-- **A record that has its version again has not been written.** -/
theorem Pool.Along.unwritten {s : σ} {later earlier : List (Lbl × Entry σ Op Resp)}
    {e : Lbl × Entry σ Op Resp}
    (h : Pool.Along (fun _ e s' => Advances stored version writes e.2 s') s (later ++ e :: earlier))
    {r : R} (hr : stored e.2.before = some r) :
    ∃ r', stored s = some r' ∧ version r ≤ version r' ∧
      (version r' = version r → r' = r ∧ ∀ p ∈ later ++ [e], ¬ writes p.2) := by
  induction later generalizing s with
  | nil =>
    obtain ⟨r', hr', hle, hsame⟩ := h.1.le hr
    exact ⟨r', hr', hle, fun heq => ⟨(hsame heq).1, by simpa using (hsame heq).2⟩⟩
  | cons x later ih =>
    obtain ⟨r₁, hr₁, hle₁, hsame₁⟩ := ih h.2
    obtain ⟨r₂, hr₂, hle₂, hsame₂⟩ := h.1.le hr₁
    refine ⟨r₂, hr₂, hle₁.trans hle₂, fun heq => ?_⟩
    -- both versions lie between two that are equal
    obtain ⟨rfl, hunwritten⟩ := hsame₂ (by omega)
    obtain ⟨rfl, hbefore⟩ := hsame₁ heq
    refine ⟨rfl, fun p hp => ?_⟩
    rcases List.mem_cons.mp hp with rfl | hp
    · exact hunwritten
    · exact hbefore p hp

end Async
