import Safeguard.Proofs.Traffic.Journeys

/-!
# What invocations of operations end in

An operation that a call invokes runs as part of the call, or as a task of its own while the
call waits for it under a deadline. Either way the log tells what every invocation ended in,
and a call that leaves with what an operation gave leaves with what its last invocation gave.

## Main definitions

* `Operation.Yields`: what an invocation of an operation can end in.
* `Change.ending?`, `endings`: the invocations that ended, with what they ended in.

## Main results

* `Traffic.Course.finished`: a run that has finished is one of the invocations that ended.
* `Traffic.follows_steady`, `Traffic.follows_racing`: a call that waits for its operation
  waits for its last invocation.
-/

namespace Safeguard

open Resilience (Layers)

variable {α : Type} {tr tr' : Traffic α} {id : Nat} {c c' : Call α} {log : List (Change α)}
  {outcome : Outcome α}

/-- What an invocation can end in: what the operation ends in by itself, or the error with which
it stops if it heeds its token. -/
def Operation.Yields (op : Operation α) (outcome : Outcome α) : Prop :=
  outcome = op.result.1 ∨ op.heeds = true ∧ outcome = .error (.operation stoppedFailure)

theorem Operation.yields_of_poll {op : Operation α} {cancelled : Bool} {due : Option Nat}
    {clock : Nat} {ending : RunEnd} (h : op.poll cancelled due clock = some (outcome, ending)) :
    op.Yields outcome := by
  unfold poll at h
  split at h
  · rename_i hstops
    obtain ⟨rfl, -⟩ := Prod.mk.inj (Option.some.inj h)
    exact .inr ⟨(Bool.and_eq_true_iff.mp hstops).1, rfl⟩
  · split at h
    · cases h
    · split at h
      · exact .inl (congrArg Prod.fst (Option.some.inj h)).symm
      · cases h

/-- An operation does not give an error of a layer. -/
theorem Operation.not_yields_layer (op : Operation α) (e : LayerError) :
    ¬ op.Yields (.error (.layer e)) := by
  rintro (hresult | ⟨-, hstopped⟩)
  · unfold Operation.result at hresult
    split at hresult <;> cases hresult
  · cases hstopped

/-- The invocation that ends in a change: its call, its number, and what it ends in. -/
def Change.ending? (ch : Change α) : Option (Nat × Nat × Outcome α) :=
  match ch.move with
  | .step id => ch.before.calls[id]?.bind fun c =>
    match c.activity with
    | .operating number op due =>
      (op.poll (ch.before.givenUp c) due ch.before.clock).map fun (outcome, _) =>
        (id, number, outcome)
    | _ => none
  | .look run => ch.before.runs[run]?.bind fun r =>
      (ch.before.ending? run).map fun outcome => (r.call, r.number, outcome)
  | _ => none

/-- The invocations that ended, in order. -/
def endings (log : List (Change α)) : List (Nat × Nat × Outcome α) :=
  log.filterMap Change.ending?

theorem mem_endings_snoc {x : Nat × Nat × Outcome α} (ch : Change α) (h : x ∈ endings log) :
    x ∈ endings (log ++ [ch]) := by
  rw [endings, List.filterMap_append]
  exact List.mem_append_left _ h

theorem mem_endings_of_last {x : Nat × Nat × Outcome α} {ch : Change α} (h : ch.ending? = some x) :
    x ∈ endings (log ++ [ch]) := by
  rw [endings, List.filterMap_append]
  exact List.mem_append_right _ (List.mem_filterMap.mpr ⟨ch, .head _, h⟩)

/-! ## Runs -/

/-- A step starts at most one run. -/
theorem Rule.runs_cases {layers : Layers} {runs : List (Run α)}
    (h : Rule tr id c layers runs c') :
    runs = tr.runs ∨ ∃ r, runs = tr.runs ++ [r] ∧ r.status = .fresh := by
  cases h with
  | inner rule =>
    cases rule with
    | raced => exact .inr ⟨_, rfl, rfl⟩
    | _ => exact .inl rfl
  | _ => exact .inl rfl

namespace Traffic

variable {m : Move α} {layers : Layers} {attached : Attachments} {r : Run α} {run : Nat}

theorem yields_of_ending? (h : tr.ending? run = some outcome) (hr : tr.runs[run]? = some r) :
    r.op.Yields outcome := by
  rw [ending?, hr, Option.bind_some] at h
  have hpoll : ∀ {cancelled due clock}, (r.op.poll cancelled due clock).map (·.1) = some outcome →
      r.op.Yields outcome := by
    intro cancelled due clock h
    obtain ⟨⟨outcome', ending⟩, hpoll, rfl⟩ := Option.map_eq_some_iff.mp h
    exact Operation.yields_of_poll hpoll
  split at h
  · exact hpoll h
  · exact hpoll h
  · cases h

/-- A run stays what it is. -/
theorem Effect.exists_run (h : Effect tr m tr') (hr : tr.runs[run]? = some r) :
    ∃ r', tr'.runs[run]? = some r' ∧ r'.call = r.call ∧ r'.number = r.number ∧ r'.op = r.op := by
  have hsame : ∀ {runs : List (Run α)}, runs = tr.runs → ∃ r', runs[run]? = some r' ∧
      r'.call = r.call ∧ r'.number = r.number ∧ r'.op = r.op := by
    rintro runs rfl
    exact ⟨r, hr, rfl, rfl, rfl⟩
  cases h with
  | stepped _ hstep =>
    obtain hruns | ⟨new, hruns, -⟩ := hstep.rule.runs_cases
    · exact hsame hruns
    · refine ⟨r, ?_, rfl, rfl, rfl⟩
      rw [hruns, List.getElem?_append_left (List.getElem?_eq_some_iff.mp hr).1, hr]
  | dropped _ _ hdrop => exact hsame hdrop.runs
  | aside _ haside =>
    have hlt : run < tr'.runs.length := by
      rw [haside.runs_length]
      exact (List.getElem?_eq_some_iff.mp hr).1
    obtain ⟨r₀, hr₀, hcall, hnumber, hop, -⟩ := haside.runs run _ (List.getElem?_eq_getElem hlt)
    obtain rfl := Option.some.inj (hr.symm.trans hr₀)
    exact ⟨_, List.getElem?_eq_getElem hlt, hcall, hnumber, hop⟩
  | _ => exact hsame rfl

/-- A run that has finished is one of the invocations that ended. -/
theorem Course.finished (h : Course (.start layers attached) log tr)
    (hr : tr.runs[run]? = some r) (hfinished : r.status = .finished outcome) :
    (r.call, r.number, outcome) ∈ endings log ∧ r.op.Yields outcome := by
  induction h generalizing r with
  | start => cases hr
  | @move log tr tr' m hcourse hm ih =>
    have hbefore : ∀ {r : Run α}, tr.runs[run]? = some r → r.status = .finished outcome →
        (r.call, r.number, outcome) ∈ endings (log ++ [⟨tr, m, tr'⟩]) ∧ r.op.Yields outcome :=
      fun hr hfinished => ⟨mem_endings_snoc _ (ih hr hfinished).1, (ih hr hfinished).2⟩
    cases effect_of_move hm with
    | stepped _ hstep =>
      obtain hruns | ⟨new, hruns, hfresh⟩ := hstep.rule.runs_cases
      · rw [hruns] at hr
        exact hbefore hr hfinished
      · rw [hruns] at hr
        by_cases hlt : run < tr.runs.length
        · rw [List.getElem?_append_left hlt] at hr
          exact hbefore hr hfinished
        · rw [List.getElem?_append_right (Nat.le_of_not_lt hlt)] at hr
          obtain rfl := List.mem_singleton.mp (List.mem_of_getElem? hr)
          rw [hfresh] at hfinished
          cases hfinished
    | dropped _ _ hdrop =>
      rw [hdrop.runs] at hr
      exact hbefore hr hfinished
    | aside _ haside =>
      obtain ⟨r₀, hr₀, hcall, hnumber, hop, hends⟩ := haside.runs run r hr
      rw [hcall, hnumber, hop]
      -- It had finished before, or it was looked at in this very change.
      obtain hold | ⟨rfl, hending⟩ := hends outcome hfinished
      · exact hbefore hr₀ hold
      · refine ⟨mem_endings_of_last ?_, yields_of_ending? hending hr₀⟩
        simp only [Change.ending?, hr₀, Option.bind_some, hending, Option.map_some]
    | _ => exact hbefore hr hfinished

end Traffic

/-! ## Calls -/

/-- A call keeps its token and its work. -/
theorem Rule.keeps_origin {layers : Layers} {runs : List (Run α)}
    (h : Rule tr id c layers runs c') : c'.token = c.token ∧ c'.work = c.work := by
  cases h with
  | limiter _ rule => cases rule <;> exact ⟨rfl, rfl⟩
  | bulkhead _ rule => cases rule <;> exact ⟨rfl, rfl⟩
  | breaker _ rule => cases rule <;> exact ⟨rfl, rfl⟩
  | inner rule => cases rule <;> exact ⟨rfl, rfl⟩

/-- A call runs its last invocation, and pauses between two attempts. -/
structure Call.Steady (c : Call α) : Prop where
  operating : ∀ number op due, c.activity = .operating number op due →
    0 < number ∧ number = c.invocations ∧
      ∀ script, c.work = .operation script → op = .ofScript script number
  pausing : ∀ due, c.activity = .pausing due →
    ∃ number inner outside, c.frames = .attempt number inner :: outside

theorem Rule.steady {layers : Layers} {runs : List (Run α)} (h : Rule tr id c layers runs c') :
    c'.Steady := by
  cases h with
  | limiter _ rule => cases rule <;> exact ⟨nofun, nofun⟩
  | bulkhead _ rule => cases rule <;> exact ⟨nofun, nofun⟩
  | breaker _ rule => cases rule <;> exact ⟨nofun, nofun⟩
  | inner rule =>
    cases rule with
    | @invoked script entering work =>
      refine ⟨fun number op due h => ?_, nofun⟩
      obtain ⟨rfl, rfl, -⟩ := Activity.operating.inj h
      refine ⟨Nat.succ_pos _, rfl, fun script' hwork => ?_⟩
      obtain rfl := Work.operation.inj (work.symm.trans hwork)
      rfl
    | paused _ frames => exact ⟨nofun, fun _ _ => ⟨_, _, _, frames⟩⟩
    | _ => exact ⟨nofun, nofun⟩

namespace Traffic

variable {m : Move α} {layers : Layers} {attached : Attachments}

/-- A call keeps its token and its operation. -/
theorem follows_origin (tr₀ : Traffic α) : Follows tr₀ fun o _ _ _ c =>
    c.token = o.token ∧ ∀ script, o.work = .operation script → c.work = .operation script :=
  .of_own (fun _ _ _ => ⟨rfl, fun _ h => h⟩)
    (fun hstep ⟨htoken, hwork⟩ => ⟨hstep.rule.keeps_origin.1.trans htoken,
      fun script h => hstep.rule.keeps_origin.2.trans (hwork script h)⟩)
    (fun h => h)
    -- A call that is told to let go never had an operation.
    fun hhold ⟨htoken, hwork⟩ => ⟨htoken, fun script h => by
      have hoperation := hwork script h
      rw [hhold] at hoperation
      cases hoperation⟩

theorem follows_steady (tr₀ : Traffic α) : Follows tr₀ fun _ _ _ _ c => c.Steady :=
  .of_own (fun _ _ _ => ⟨nofun, nofun⟩) (fun hstep _ => hstep.rule.steady)
    (fun _ => ⟨nofun, nofun⟩)
    fun _ ⟨hoperating, hpausing⟩ => ⟨fun number op due h =>
      ⟨(hoperating number op due h).1, (hoperating number op due h).2.1, nofun⟩, hpausing⟩

/-- A call that waits for a run under a deadline waits for its last invocation. -/
theorem follows_racing (tr₀ : Traffic α) : Follows tr₀ fun _ _ tr id c =>
    ∀ run deadline due, c.activity = .racing run deadline due →
      tr.layers.timeout.isSome = true ∧ 0 < c.invocations ∧
        ∃ r, tr.runs[run]? = some r ∧ r.call = id ∧ r.number = c.invocations ∧
          ∀ script, c.work = .operation script → r.op = .ofScript script c.invocations where
  begun _ := nofun
  stepped := by
    intro o log tr tr' id c c' _ _ _ hstep _
    obtain ⟨-, hrule, -⟩ := hstep
    generalize tr'.layers = layers at hrule ⊢
    generalize tr'.runs = runs at hrule ⊢
    cases hrule with
    | limiter _ rule => cases rule <;> exact nofun
    | bulkhead _ rule => cases rule <;> exact nofun
    | breaker _ rule => cases rule <;> exact nofun
    | inner rule =>
      cases rule with
      | @raced inner timeout script entering limit work since =>
        intro run deadline due h
        obtain ⟨rfl, -, -⟩ := Activity.racing.inj h
        refine ⟨by rw [limit]; rfl, Nat.succ_pos _, _, List.getElem?_concat_length, rfl, rfl, ?_⟩
        intro script' hwork
        obtain rfl := Work.operation.inj (work.symm.trans hwork)
        rfl
      | _ => exact nofun
  dropped _ _ _ _ := nofun
  told := by
    intro o log tr tr' id c _ heffect _ ih run deadline due h
    obtain ⟨htimeout, hinvoked, r, hr, hcall, hnumber, -⟩ := ih run deadline due h
    obtain ⟨r', hr', hcall', hnumber', -⟩ := heffect.exists_run hr
    exact ⟨by rw [heffect.policies_eq.2]; exact htimeout, hinvoked, r', hr', hcall'.trans hcall,
      hnumber'.trans hnumber, nofun⟩
  other := by
    intro o log tr tr' m id c _ heffect _ _ _ _ ih run deadline due h
    obtain ⟨htimeout, hinvoked, r, hr, hcall, hnumber, hop⟩ := ih run deadline due h
    obtain ⟨r', hr', hcall', hnumber', hop'⟩ := heffect.exists_run hr
    exact ⟨by rw [heffect.policies_eq.2]; exact htimeout, hinvoked, r', hr', hcall'.trans hcall,
      hnumber'.trans hnumber, fun script hwork => hop'.trans (hop script hwork)⟩

end Traffic

end Safeguard
