import Safeguard.Proofs.CircuitBreaker.Chronicle
import Safeguard.Proofs.Traffic.Scenarios

/-!
# The history that a hook is told

A hook is told of a change of state after the breaker has let go of its lock, and the hook may
look at the breaker first, which may change the state again. So it is not told in the order in
which the state changes. But it is told of every change, and of each of them once, however
calls and callers use the breaker.

## Main definitions

* `Change.told`, `heard`: what the hook is told in a move, and in all.

## Main results

* `Traffic.Course.exists_told`: in every course the hook is told the history of the breaker.
* `Traffic.history_told`: the history, what the counters say of it, and that it is told.
-/

namespace Safeguard

open CircuitBreaker (Transition Ledger Unbroken)
open CircuitBreaker.Ledger (Act Accounts)
open Resilience (Layers)

variable {α : Type}

/-- The changes of state that the hook is told of in a move. -/
def Change.told (ch : Change α) : List Transition := ch.after.told.drop ch.before.told.length

/-- All changes of state that the hook is told of, in the order in which it is told. -/
def heard (log : List (Change α)) : List Transition := log.flatMap Change.told

namespace Traffic

variable {tr tr' : Traffic α} {l : Ledger} {m : Move α} {log : List (Change α)}
  {layers : Layers} {attached : Attachments} {c : CircuitBreaker.Config}

/-- In every move the hook is told of the changes that the ledger takes down. -/
theorem exists_told_move (hm : tr.move m = some tr') (hl : tr.DescribedBy l)
    (hlistens : tr.attached.HookListens) :
    ∃ acts l' changes, l.run acts = some l' ∧ tr'.DescribedBy l' ∧
      l'.changes = l.changes ++ changes ∧ (Change.mk tr m tr').told.Perm changes := by
  by_cases hclear : m = .clear
  · -- The records are thrown away, and nothing is told.
    subst hclear
    obtain rfl := Option.some.inj hm
    refine ⟨[], l, [], rfl, ⟨hl.breaker, hl.permits⟩, (List.append_nil _).symm, ?_⟩
    show (List.drop tr.told.length []).Perm []
    rw [List.drop_nil]
  · obtain ⟨acts, l', hrun, hl', -, -, new, changes, htold, hchanges, hperm⟩ :=
      recounts_move hm hclear l hl
    refine ⟨acts, l', changes, hrun, hl', hchanges, ?_⟩
    have hnew : (Change.mk tr m tr').told = new := by
      rw [Change.told, htold, List.drop_left]
    rw [hnew]
    exact hperm hlistens

/-- In every course the hook is told the history of the breaker. -/
theorem Course.exists_told (hcourse : Course (.start layers attached) log tr)
    (hbreaker : layers.circuitBreaker = some (.new c)) (hlistens : attached.HookListens) :
    ∃ acts l, (Ledger.blank c).run acts = some l ∧ tr.DescribedBy l ∧
      (heard log).Perm l.changes := by
  induction hcourse with
  | start => exact ⟨[], .blank c, rfl, ⟨hbreaker, .refl _⟩, .refl _⟩
  | @move log tr tr' m hcourse hm ih =>
    obtain ⟨acts, l, hrun, hl, hperm⟩ := ih
    have hattached : tr.attached = attached := hcourse.keeps Effect.attached_eq
    obtain ⟨acts', l', changes, hrun', hl', hchanges, hnew⟩ :=
      exists_told_move hm hl (hattached ▸ hlistens)
    refine ⟨acts ++ acts', l', ?_, hl', ?_⟩
    · rw [Ledger.run_append, hrun]
      exact hrun'
    · rw [heard, List.flatMap_append, List.flatMap_singleton, hchanges]
      exact hperm.append hnew

/-- **The history and its counters.** In every run of a breaker, whoever uses it and whatever
becomes of the calls, its changes of state lead without a gap from the closed state to the
present one, and are of five kinds. The counters say how many they are, how often they open
and close the circuit, what came of the requests; and the circuit opened as often as it
closed, as often as it reopened, and once more unless it is closed now.

A hook that never panics is told of each of these changes once, in every course, also if it
looks at the breaker whenever it is told. -/
theorem history_told (c : CircuitBreaker.Config) :
    (∀ acts l, (Ledger.blank c).run acts = some l → Accounts acts l) ∧
      ∀ (layers : Layers) (attached : Attachments) (log : List (Change α)) (tr : Traffic α),
        layers.circuitBreaker = some (.new c) → attached.HookListens →
        Course (.start layers attached) log tr →
        ∃ acts l, (Ledger.blank c).run acts = some l ∧ tr.DescribedBy l ∧
          (heard log).Perm l.changes :=
  ⟨fun _ _ hrun => Ledger.accounts_run hrun,
    fun _ _ _ _ hbreaker hlistens hcourse => hcourse.exists_told hbreaker hlistens⟩

/-- A hook that looks at the breaker whenever it is told of a change. -/
def looking : Attachments := { Attachments.none with onTransition := some ⟨true, fun _ => none⟩ }

/-- A breaker without a cooldown is forced open. The hook looks at it, which makes it half-open;
so the hook is told of the second change first. -/
theorem history_told_of_look :
    ∃ (log : List (Change Nat)) (tr : Traffic Nat),
      Course (.start ⟨none, none, some (.new ⟨1, 1, .zero, 1⟩), none, none⟩ looking) log tr ∧
      heard log = [⟨.opened, .halfOpen⟩, ⟨.closed, .opened⟩] ∧
      ∃ acts l, Accounts acts l ∧ tr.DescribedBy l ∧ (heard log).Perm l.changes ∧
        l.breaker.state = .halfOpen ∧ l.breaker.timesOpened = 1 ∧ l.breaker.timesClosed = 0 := by
  have hcourse : Course
      (.start ⟨none, none, some (.new ⟨1, 1, .zero, 1⟩), none, none⟩ looking : Traffic Nat) _ _ :=
    .of_move (m := .breaker .forceOpen) rfl
  have hlistens : looking.HookListens := ⟨rfl, fun hook hhook s => by
    obtain rfl := Option.some.inj hhook
    rfl⟩
  obtain ⟨haccounts, htold⟩ := history_told (α := Nat) ⟨1, 1, .zero, 1⟩
  obtain ⟨acts, l, hrun, hl, hperm⟩ := htold _ _ _ _ rfl hlistens hcourse
  obtain hbreaker := Option.some.inj hl.breaker
  refine ⟨_, _, hcourse, rfl, acts, l, haccounts acts l hrun, hl, hperm, ?_, ?_, ?_⟩
  · rw [← hbreaker]; rfl
  · rw [← hbreaker]; rfl
  · rw [← hbreaker]; rfl

end Traffic

end Safeguard
