import Safeguard.Scenario.Basic

/-!
# Running a scenario

A scenario is set up either with components as they are given or from a
configuration text, which is checked first. Its report has a row for each step:
the clock, the reply, and what was recorded during the step. Events are sorted by
time and call, ends of runs by time, call and number; transitions and notices
stay in the order in which they happened.

## Main definitions

* `Scenario`: components, attachments and steps.
* `Scenario.run`: the report of a scenario.
-/

namespace Safeguard

/-- Where the components of a scenario come from. -/
inductive Scenario.Source where
  /-- Components for these sections, unchecked. -/
  | given (config : Resilience.Config) (attached : Attachments)
  /-- Components for a configuration text, with nothing attached. -/
  | loaded (text : String)

/-- Components, attachments and steps. -/
structure Scenario (α : Type) where
  source : Scenario.Source
  steps : List (Scenario.Step α)
  /-- Whether times are left out of the report. -/
  timeless : Bool

namespace Scenario

variable {α : Type}

/-- What a step led to. -/
structure Row (α : Type) where
  clock : Nat
  reply : Reply
  trace : Trace α

/-- What a scenario led to. -/
structure Report (α : Type) where
  rows : List (Row α)
  /-- The calls that have not ended. -/
  pending : List Nat

/-- The components and attachments of a scenario. -/
def Source.components : Source → Except Resilience.ConfigError (Resilience.Layers × Attachments)
  | .given config attached => .ok (config.assemble 0, attached)
  | .loaded text =>
    match Resilience.Config.load text with
    | .error e => .error e
    | .ok config =>
      match config.build 0 with
      | .error cause => .error (.invalid cause)
      | .ok layers => .ok (layers, .none)

/-- Whether a list of numbers comes before another one or equals it, by the first
difference. -/
def inOrder : List Nat → List Nat → Bool
  | a :: as, b :: bs => a < b || (a = b && inOrder as bs)
  | _, _ => true

/-- The records of a step in the order in which they are reported. -/
def sorted (timeless : Bool) (t : Trace α) : Trace α :=
  -- Records without times keep the order of their calls only.
  let time (n : Nat) : Nat := if timeless then 0 else n
  { t with
    events := t.events.mergeSort fun a b => inOrder [time a.time, a.call] [time b.time, b.call]
    runs := t.runs.mergeSort fun a b =>
      inOrder [time a.time, a.call, a.number] [time b.time, b.call, b.number] }

/-- The rows of the steps, and the session after them. -/
def rows (timeless : Bool) : Session α → List (Step α) → List (Row α) × Session α
  | s, [] => ([], s)
  | s, step :: steps =>
    let (s, reply) := s.perform step
    let row : Row α := ⟨s.traffic.clock, reply, sorted timeless s.traffic.trace⟩
    let (later, s) := rows timeless { s with traffic := { s.traffic with trace := .empty } } steps
    (row :: later, s)

/-- Runs a scenario. -/
def run (s : Scenario α) : Except Resilience.ConfigError (Report α) :=
  s.source.components.map fun (layers, attached) =>
    let (rows, session) := rows s.timeless ⟨.start layers attached, []⟩ s.steps
    ⟨rows, (List.range session.traffic.calls.length).filter session.traffic.isPending⟩

end Scenario

end Safeguard
