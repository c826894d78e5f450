import Safeguard.Proofs.CircuitBreaker.Operations
import Safeguard.Scenario.Basic

/-!
# Telling of a change of state

When the breaker changes its state, the log and the hook are told. The hook may look at
the breaker, which may change it again, and it may panic; nothing else comes of it. This
file says so once, so that nobody has to open the telling.

## Main definitions

* `CircuitBreaker.Watched`: looks at a breaker, all at one time.
* `Attachments.HookReturns`: the hook never panics.
* `Attachments.HookListens`: there is a hook, and it never panics.

## Main results

* `Traffic.exists_changeBreaker`: all that telling of a change can do.
* `Traffic.changeBreaker_returns`: it returns if the hook does.
-/

namespace Safeguard

open CircuitBreaker (State Transition)

/-- Looks at a breaker, all at one time. -/
inductive CircuitBreaker.Watched (now : Instant) : CircuitBreaker → CircuitBreaker → Prop where
  | refl (b : CircuitBreaker) : Watched now b b
  | look {b b' : CircuitBreaker} (h : Watched now (b.observe now).1 b') : Watched now b b'

namespace CircuitBreaker

variable {b b' : CircuitBreaker} {now : Instant}

/-- A look counts no call. -/
theorem requests_observe (b : CircuitBreaker) (now : Instant) :
    (b.observe now).1.totalRequests = b.totalRequests ∧
      (b.observe now).1.rejectedRequests = b.rejectedRequests := by
  unfold observe
  obtain ⟨-, -, h⟩ | ⟨-, h⟩ := b.refresh_cases now
  · rw [h]; exact ⟨rfl, rfl⟩
  · rw [h]; exact ⟨rfl, rfl⟩

theorem Watched.requests (h : Watched now b b') :
    b'.totalRequests = b.totalRequests ∧ b'.rejectedRequests = b.rejectedRequests := by
  induction h with
  | refl b => exact ⟨rfl, rfl⟩
  | @look b _ _ ih =>
    obtain ⟨htotal, hrejected⟩ := b.requests_observe now
    exact ⟨ih.1.trans htotal, ih.2.trans hrejected⟩

end CircuitBreaker

/-- The hook that is told of transitions never panics. -/
def Attachments.HookReturns (a : Attachments) : Prop :=
  ∀ hook, a.onTransition = some hook → ∀ s, hook.panics s = .none

/-- There is a hook that is told of transitions, and it never panics. -/
def Attachments.HookListens (a : Attachments) : Prop :=
  a.onTransition.isSome = true ∧ a.HookReturns

namespace Traffic

variable {α : Type}

/-- Telling of a change leads to looks at the breaker and to records; a hook that panics is
one that was attached. -/
theorem exists_announce (levels : Nat) (tr : Traffic α) (call : Option Nat) (t : Transition)
    {b : CircuitBreaker} (hb : tr.layers.circuitBreaker = some b) :
    ∃ b' trace, CircuitBreaker.Watched tr.now b b' ∧
      (announce levels tr call t).1 = { tr.setBreaker b' with trace := trace } ∧
      (tr.attached.HookReturns → (announce levels tr call t).2 = none) := by
  have hsame : ∀ trace, { tr with trace := trace } = { tr.setBreaker b with trace := trace } := by
    intro trace
    simp only [setBreaker, ← hb]
  induction levels generalizing tr b t with
  | zero => exact ⟨b, tr.trace, .refl b, hsame tr.trace, fun _ => rfl⟩
  | succ levels ih =>
    simp only [announce]
    split
    · exact ⟨b, _, .refl b, hsame _, fun _ => rfl⟩
    · rename_i hook hhook
      split
      · rename_i b₀ _ hb₀
        obtain rfl : b = b₀ := Option.some.inj (hb.symm.trans hb₀)
        have hnow : (tr.note (.circuitChanged tr.attached.breakerName t)).now = tr.now := rfl
        simp only [hnow]
        cases (b.observe tr.now).2 with
        | none => exact ⟨_, _, .look (.refl _), rfl, fun h => h hook hhook _⟩
        | some next =>
          -- What the look of the hook changes is told in turn.
          obtain ⟨b', trace, hwatched, heq, hreturns⟩ :=
            ih ((tr.note (.circuitChanged tr.attached.breakerName t)).setBreaker
              (b.observe tr.now).1) next rfl (fun _ => rfl)
          dsimp only
          split
          · rename_i message hpanicked
            refine ⟨b', trace, .look hwatched, heq, fun h => ?_⟩
            rw [hreturns h] at hpanicked
            cases hpanicked
          · exact ⟨b', _, .look hwatched,
              congrArg (·.recordTransition t call (some (b.observe tr.now).1.state)) heq,
              fun h => h hook hhook _⟩
      · exact ⟨b, _, .refl b, hsame _, fun h => h hook hhook _⟩

/-- A change puts the breaker into its new state, looks may follow, and records are made. -/
theorem exists_changeBreaker (tr : Traffic α) (call : Option Nat) (b : CircuitBreaker)
    (change : Option Transition) :
    ∃ b' trace, CircuitBreaker.Watched tr.now b b' ∧
      (tr.changeBreaker call b change).1 = { tr.setBreaker b' with trace := trace } := by
  cases change with
  | none => exact ⟨b, tr.trace, .refl b, rfl⟩
  | some t =>
    obtain ⟨b', trace, hwatched, heq, -⟩ := exists_announce 2 (tr.setBreaker b) call t rfl
    exact ⟨b', trace, hwatched, heq⟩

/-- Without a hook that panics, telling of a change returns. -/
theorem changeBreaker_returns (tr : Traffic α) (h : tr.attached.HookReturns)
    (call : Option Nat) (b : CircuitBreaker) (change : Option Transition) :
    (tr.changeBreaker call b change).2 = none := by
  cases change with
  | none => rfl
  | some t =>
    obtain ⟨-, -, -, -, hreturns⟩ := exists_announce 2 (tr.setBreaker b) call t rfl
    exact hreturns h

end Traffic

end Safeguard
