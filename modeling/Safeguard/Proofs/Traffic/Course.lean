import Safeguard.Proofs.Traffic.Moves

/-!
# Courses of running traffic

A course is any number of moves, one after the other, with a log of them. Nothing is said
about which call gets a step or when: turns, the passing of time and all that a schedule does
are courses, and so are schedules that the scheduler here would never take. What holds in
every course holds at every moment, as a course may stop at any time.

## Main definitions

* `Change`: a move that was made, with the traffic before and after it.
* `Traffic.Course`: moves one after the other.
* `Traffic.Reaches`: there is a course.
* `Origin`, `origins`: how the calls of a course started.
* `Traffic.play`: moves that are made in turn, computed.

## Main results

* `Traffic.Course.effect`: what is on record has an effect.
* `Traffic.Course.keeps`: what no effect changes stays what it was at the start.
* `Traffic.reaches_turn`: a turn is a course.
-/

namespace Safeguard

open Resilience (Layers)

variable {α : Type}

/-- A move that was made. -/
structure Change (α : Type) where
  before : Traffic α
  move : Move α
  after : Traffic α

/-- How a call started. -/
structure Origin (α : Type) where
  token : TokenId
  stages : List Stage
  work : Work α

/-- How the call started that a change starts. -/
def Change.origin? (ch : Change α) : Option (Origin α) :=
  match ch.move with
  | .begin token stages work => some ⟨token, stages, work⟩
  | _ => none

/-- How the calls started that were started, by number. -/
def origins (log : List (Change α)) : List (Origin α) := log.filterMap Change.origin?

theorem origins_append (log log' : List (Change α)) :
    origins (log ++ log') = origins log ++ origins log' :=
  List.filterMap_append

namespace Traffic

/-- Moves one after the other, and the log of them. -/
inductive Course (tr₀ : Traffic α) : List (Change α) → Traffic α → Prop where
  | start : Course tr₀ [] tr₀
  | move {log : List (Change α)} {tr tr' : Traffic α} {m : Move α} (h : Course tr₀ log tr)
      (hm : tr.move m = some tr') : Course tr₀ (log ++ [⟨tr, m, tr'⟩]) tr'

/-- Some course leads from one to the other. -/
def Reaches (tr tr' : Traffic α) : Prop := ∃ log, Course tr log tr'

variable {tr₀ tr tr' tr'' : Traffic α} {log log' : List (Change α)} {m : Move α}

theorem Course.append (h : Course tr₀ log tr) (h' : Course tr log' tr') :
    Course tr₀ (log ++ log') tr' := by
  induction h' with
  | start => rwa [List.append_nil]
  | move _ hm ih =>
    rw [← List.append_assoc]
    exact ih.move hm

theorem Course.of_move (hm : tr.move m = some tr') : Course tr [⟨tr, m, tr'⟩] tr' :=
  Course.start.move hm

/-- What is on record has an effect. -/
theorem Course.effect (h : Course tr₀ log tr) {ch : Change α} (hch : ch ∈ log) :
    Effect ch.before ch.move ch.after := by
  induction h with
  | start => cases hch
  | move _ hm ih =>
    obtain hch | hch := List.mem_append.mp hch
    · exact ih hch
    · obtain rfl := List.mem_singleton.mp hch
      exact effect_of_move hm

/-- What no effect changes stays what it was at the start. -/
theorem Course.keeps {β : Type} {f : Traffic α → β}
    (hf : ∀ {tr m tr'}, Effect tr m tr' → f tr' = f tr) (h : Course tr₀ log tr) :
    f tr = f tr₀ := by
  induction h with
  | start => rfl
  | move _ hm ih => exact (hf (effect_of_move hm)).trans ih

theorem Reaches.refl (tr : Traffic α) : Reaches tr tr := ⟨[], .start⟩

theorem Reaches.trans (h : Reaches tr tr') (h' : Reaches tr' tr'') : Reaches tr tr'' := by
  obtain ⟨log, h⟩ := h
  obtain ⟨log', h'⟩ := h'
  exact ⟨log ++ log', h.append h'⟩

theorem Reaches.of_move (m : Move α) (hm : tr.move m = some tr') : Reaches tr tr' :=
  ⟨_, .of_move hm⟩

/-! ## What stays -/

theorem Effect.attached_eq (h : Effect tr m tr') : tr'.attached = tr.attached := by
  cases h with
  | stepped _ h => exact h.attached
  | dropped _ _ h => exact h.attached
  | aside _ h => exact h.attached
  | _ => rfl

/-- Cancelled tokens stay cancelled. -/
theorem Effect.tokens_grow (h : Effect tr m tr') : tr.tokens.Grows tr'.tokens := by
  cases h with
  | stepped _ h => exact h.tokens
  | dropped _ _ h => exact h.tokens
  | aside _ h => exact h.tokens
  | _ => exact .refl _

/-- Layers neither come nor go. -/
theorem Effect.has_eq (h : Effect tr m tr') (l : Layer) : tr'.layers.has l = tr.layers.has l := by
  cases h with
  | @stepped id c c' _ _ hstep =>
    obtain ⟨-, hrule, -⟩ := hstep
    generalize tr'.layers = layers at hrule ⊢
    generalize tr'.runs = runs at hrule
    cases hrule with
    | limiter present => cases l <;> simp [Layers.has, present]
    | bulkhead present => cases l <;> simp [Layers.has, present]
    | breaker present => cases l <;> simp [Layers.has, present]
    | inner => rfl
  | dropped _ _ h => rw [h.layers]; cases l <;> simp [Layers.has]
  | limiter use present => cases l <;> simp [Layers.has, setLimiter, present]
  | breaker use present => cases l <;> simp [Layers.has, setBreaker, present]
  | aside _ h => rw [h.layers]
  | begun => rfl
  | told => rfl
  | idle => rfl

/-- The two innermost layers have no state. -/
theorem Effect.policies_eq (h : Effect tr m tr') :
    tr'.layers.retry = tr.layers.retry ∧ tr'.layers.timeout = tr.layers.timeout := by
  cases h with
  | @stepped id c c' _ _ hstep =>
    obtain ⟨-, hrule, -⟩ := hstep
    generalize tr'.layers = layers at hrule ⊢
    generalize tr'.runs = runs at hrule
    cases hrule <;> exact ⟨rfl, rfl⟩
  | dropped _ _ h => rw [h.layers]; exact ⟨rfl, rfl⟩
  | aside _ h => rw [h.layers]; exact ⟨rfl, rfl⟩
  | _ => exact ⟨rfl, rfl⟩

/-! ## Playing -/

/-- The moves in turn: the log and what comes of them, if all are possible. -/
def play (tr : Traffic α) : List (Move α) → Option (List (Change α) × Traffic α)
  | [] => some ([], tr)
  | m :: moves =>
    match tr.move m with
    | none => none
    | some tr' => (tr'.play moves).map fun (log, last) => (⟨tr, m, tr'⟩ :: log, last)

theorem course_of_play {moves : List (Move α)} (h : tr.play moves = some (log, tr')) :
    Course tr log tr' := by
  induction moves generalizing tr log with
  | nil =>
    obtain ⟨rfl, rfl⟩ := Prod.mk.inj (Option.some.inj h)
    exact .start
  | cons m moves ih =>
    unfold play at h
    split at h
    · cases h
    · rename_i tr₁ hm
      obtain ⟨⟨log₁, last⟩, hplay, heq⟩ := Option.map_eq_some_iff.mp h
      obtain ⟨rfl, rfl⟩ := Prod.mk.inj heq
      exact (Course.of_move hm).append (ih hplay)

/-- Moves that are all possible make a course. -/
theorem course_played {moves : List (Move α)} (h : (tr.play moves).isSome = true) :
    Course tr ((tr.play moves).get h).1 ((tr.play moves).get h).2 :=
  course_of_play (Option.some_get h).symm

/-! ## Turns -/

theorem reaches_proceed (fuel : Nat) (tr : Traffic α) (id : Nat) :
    Reaches tr (proceed fuel tr id) := by
  induction fuel generalizing tr with
  | zero => exact .refl tr
  | succ fuel ih =>
    unfold proceed
    split
    · exact .refl tr
    · rename_i tr' hstep
      exact (Reaches.of_move (.step id) hstep).trans (ih tr')

/-- A turn is a course. -/
theorem reaches_turn (tr : Traffic α) (t : Task) : Reaches tr (tr.turn t) := by
  cases t with
  | call id => exact reaches_proceed _ tr id
  | run id => exact .of_move (.look id) rfl

end Traffic

end Safeguard
