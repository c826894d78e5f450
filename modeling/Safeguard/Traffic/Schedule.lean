import Safeguard.Traffic.Call

/-!
# Turns and time

Tasks that are due for a turn get it in order, each until it sleeps or ends, and
until no task is due any more. Only then does the clock move on, to the next
reading at which something is due; tasks that wake at the same reading do so in
the order in which they fell asleep.

## Main definitions

* `Traffic.turn`: a task's turn.
* `Traffic.settle`: turns until no task is due.
* `Traffic.advance`: the passing of time.
* `Traffic.begin`, `Traffic.abort`, `Traffic.letGo`: what callers do, besides cancelling
  their tokens with `Traffic.cancelToken`.
-/

namespace Safeguard.Traffic

variable {α : Type}

/-- The number of attempts that a call can make. -/
def attempts (tr : Traffic α) : Nat :=
  tr.layers.retry.elim 1 fun config => config.maxAttempts.toNat

/-- Steps of a call until it sleeps or ends, at most the given number. -/
def proceed : Nat → Traffic α → Nat → Traffic α
  | 0, tr, _ => tr
  | fuel + 1, tr, id =>
    match tr.step id with
    | none => tr
    | some tr => proceed fuel tr id

/-- More steps than a call can take in a turn: each attempt takes a few, and so
does each layer on the way in and out. -/
def turnBound (tr : Traffic α) : Nat := 16 * (tr.attempts + 2)

/-- A run looks whether it has ended. When it has, its token is dropped and the
call that races it is woken. -/
def turnRun (tr : Traffic α) (id : Nat) : Traffic α :=
  match tr.runs[id]? with
  | none => tr
  | some r =>
    let look (due : Option Nat) (stamp : Bool) : Traffic α :=
      match r.op.poll (tr.tokens.isCancelled r.deadline) due tr.clock with
      | some (outcome, ending) =>
        let tr := (tr.recordRun r.call r.number ending).setRun id
          { r with status := .finished outcome }
        let tr := tr.dropToken r.deadline
        -- The call may have left the race, and may be in another one by now.
        match tr.calls[r.call]? with
        | some ⟨_, _, _, _, .racing run _ _, _⟩ => if run = id then tr.wake (.call r.call) else tr
        | _ => tr
      | none =>
        if stamp then
          { tr with stamps := tr.stamps + 1 }.setRun id
            { r with status := .running due, since := tr.stamps }
        else tr
    match r.status with
    | .fresh => look (r.op.due tr.clock) true
    | .running due => look due false
    | .finished _ => tr

/-- A task's turn. -/
def turn (tr : Traffic α) : Task → Traffic α
  | .call id => proceed tr.turnBound tr id
  | .run id => tr.turnRun id

/-- Turns of the tasks that are due, at most the given number. -/
def turns : Nat → Traffic α → Traffic α
  | 0, tr => tr
  | fuel + 1, tr =>
    match tr.ready with
    | [] => tr
    | t :: rest => turns fuel ({ tr with ready := rest }.turn t)

/-- More turns than can follow at one reading of the clock: each attempt of a call
starts at most one run and is woken by it once, and each end of a call wakes at
most one other. -/
def settleBound (tr : Traffic α) : Nat :=
  64 * (tr.calls.length + tr.runs.length + tr.ready.length + 1) * (tr.attempts + 2)

/-- Turns until no task is due. -/
def settle (tr : Traffic α) : Traffic α := turns tr.settleBound tr

/-! ## Time -/

/-- The next reading of the clock at which something is due. -/
def nextDue? (tr : Traffic α) : Option Nat :=
  (tr.calls.filterMap (·.activity.due?) ++ tr.runs.filterMap (·.due?)).min?

/-- Moves the clock and wakes the tasks that are due. -/
def strike (tr : Traffic α) (clock : Nat) : Traffic α :=
  let tr := { tr with clock := clock }
  let isDue (due : Option Nat) : Bool := due.elim false (· ≤ clock)
  (tr.sleepers (fun c => isDue c.activity.due?) (fun r => isDue r.due?)).foldl wake tr

/-- Moves the clock up to the given reading, through everything that is due on the
way. -/
def advanceTo : Nat → Traffic α → Nat → Traffic α
  | 0, tr, target => { tr with clock := max tr.clock target }
  | fuel + 1, tr, target =>
    match tr.nextDue? with
    | none => { tr with clock := max tr.clock target }
    | some due =>
      if due ≤ target then advanceTo fuel (tr.strike (max tr.clock due)).settle target
      else { tr with clock := max tr.clock target }

/-- Lets that many milliseconds pass. -/
def advance (tr : Traffic α) (millis : Nat) : Traffic α :=
  advanceTo (millis + 1) tr (tr.clock + millis)

/-! ## Callers -/

/-- Starts a call; its number is how many there were before. -/
def begin (tr : Traffic α) (token : TokenId) (stages : List Stage) (work : Work α) : Traffic α :=
  let started : Call α := ⟨token, work, 0, [], .entering stages, 0⟩
  { tr with calls := tr.calls ++ [started] }.wake (.call tr.calls.length)

/-- Whether a call has not ended. -/
def isPending (tr : Traffic α) (id : Nat) : Bool :=
  match tr.calls[id]? with
  | none => false
  | some c =>
    match c.activity with
    | .ended => false
    | _ => true

/-- Drops a call that has not ended. -/
def abort (tr : Traffic α) (id : Nat) : Traffic α := if tr.isPending id then tr.abandon id else tr

/-- Whether a call can be told to let go: it has not ended, it is one that holds,
and it was not told before. -/
def mayLetGo (tr : Traffic α) (id : Nat) : Bool :=
  tr.isPending id &&
    match tr.calls[id]? with
    | some ⟨_, .hold false, _, _, _, _⟩ => true
    | _ => false

/-- Tells a call to let go. -/
def letGo (tr : Traffic α) (id : Nat) : Traffic α :=
  match tr.calls[id]? with
  | none => tr
  | some c =>
    if tr.mayLetGo id then
      let tr := tr.setCall id { c with work := .hold true }
      match c.activity with
      | .holding => tr.wake (.call id)
      | _ => tr
    else tr

end Safeguard.Traffic
