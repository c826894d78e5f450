import Safeguard.Proofs.RateLimiter.Operations

/-!
# Runs of a limiter

A limiter is shared by requests that overlap in any way. One that does not wait touches the
bucket once; one that does touches it when it starts and, if the tokens were missing, again
when its sleep is over, unless it is cancelled or dropped before. Between the two anybody else
may have their turn. A run is therefore a list of acts in the order in which they hold the
lock, with the time that passes in between, and a ledger is what a run leads to: the limiter,
the requests that wait, and what every act was answered and when.

## Main definitions

* `Ledger`, `Ledger.Act`, `Ledger.Answer`: a limiter and its requests, what can happen to it,
  and what comes of that.
* `Ledger.step`, `Ledger.run`: one act, and acts one after the other.
* `Ledger.Effect`: what an act does to the bucket.

## Main results

* `Ledger.effect_step`: all that an act can do to the bucket.
* `Ledger.run_induction`: what every act keeps holds after every run.
-/

namespace Safeguard.RateLimiter

/-- A request that found too few tokens and sleeps. -/
structure Ledger.Waiter where
  demand : UInt32
  /-- When its sleep is over. -/
  due : Instant
deriving DecidableEq, Repr

/-- What happens around a limiter. -/
inductive Ledger.Act where
  /-- Time passes. -/
  | advance (nanos : Nat)
  /-- A request that does not wait. -/
  | ask (n : UInt32)
  /-- A request starts that waits if it has to. -/
  | start (n : UInt32)
  /-- A call wants to pass; it waits if the limiter is configured so. -/
  | execute
  /-- A request that waits asks again when its sleep is over. -/
  | wake (waiter : Nat)
  /-- A request that waits is cancelled or dropped. -/
  | giveUp (waiter : Nat)
  /-- Somebody looks at the tokens. -/
  | look
  /-- Somebody takes a snapshot. -/
  | snapshot
  | reset
deriving DecidableEq, Repr

/-- What comes of an act. -/
inductive Ledger.Answer (R : Type) where
  /-- That many tokens were granted. -/
  | granted (n : UInt32)
  /-- That many tokens were refused. -/
  | refused (n : UInt32)
  /-- The request sleeps that long and asks again. -/
  | asleep (n : UInt32) (delay : Duration)
  /-- A request for that many tokens ended without a verdict. -/
  | abandoned (n : UInt32)
  | level (tokens : R)
  | metrics (m : Metrics R)
  /-- The bucket was filled. -/
  | filled

/-- A limiter, its requests and its history. -/
structure Ledger (R : Type) where
  limiter : RateLimiter R
  now : Instant
  /-- The requests that had to wait, by number; none once they have ended. -/
  waiters : List (Option Ledger.Waiter)
  /-- What acts were answered and when, in order. -/
  answers : List (Instant × Ledger.Answer R)

namespace Ledger

variable {R : Type} [Scalar R]

/-- A new limiter, without requests. -/
def blank (c : Config R) (now : Instant) : Ledger R := ⟨.new c now, now, [], []⟩

/-- Takes over what became of the limiter, and notes the answer. -/
def after (l : Ledger R) (limiter : RateLimiter R) (answer : Answer R) : Ledger R :=
  { l with limiter := limiter, answers := l.answers ++ [(l.now, answer)] }

/-- A request that does not wait, or no longer. -/
def ask (l : Ledger R) (n : UInt32) : Ledger R :=
  let r := l.limiter.allow n l.now
  l.after r.1 (if r.2 then .granted n else .refused n)

/-- A request that waits if it has to. -/
def start (l : Ledger R) (n : UInt32) : Ledger R :=
  match l.limiter.beginWait n l.now with
  | (limiter, .granted) => l.after limiter (.granted n)
  | (limiter, .refused) => l.after limiter (.refused n)
  | (limiter, .pending delay) =>
    { l.after limiter (.asleep n delay) with
        waiters := l.waiters ++ [some ⟨n, l.now + delay.nanos⟩] }

/-- A request that sleeps. -/
def waiter? (l : Ledger R) (id : Nat) : Option Waiter := l.waiters[id]?.join

/-- A request no longer sleeps. -/
def awaken (l : Ledger R) (id : Nat) : Ledger R := { l with waiters := l.waiters.set id none }

/-- One act. Nobody asks again who does not sleep, or whose sleep is not over. -/
def step (l : Ledger R) : Act → Ledger R
  | .advance nanos => { l with now := l.now + nanos }
  | .ask n => l.ask n
  | .start n => l.start n
  | .execute => if l.limiter.config.wait then l.start 1 else l.ask 1
  | .wake id =>
    match l.waiter? id with
    | some w => if w.due ≤ l.now then (l.awaken id).ask w.demand else l
    | none => l
  | .giveUp id =>
    match l.waiter? id with
    | some w => (l.awaken id).after l.limiter (.abandoned w.demand)
    | none => l
  | .look => let r := l.limiter.level l.now; l.after r.1 (.level r.2)
  | .snapshot => let r := l.limiter.metrics l.now; l.after r.1 (.metrics r.2)
  | .reset => l.after (l.limiter.reset l.now) .filled

/-- Acts one after the other. -/
def run (l : Ledger R) (acts : List Act) : Ledger R := acts.foldl step l

variable {l l' : Ledger R} {n : UInt32} {a : Act}

/-- What every act keeps, every run keeps. -/
theorem run_induction {P : Ledger R → Prop} (hstep : ∀ l a, P l → P (l.step a)) (h : P l)
    (acts : List Act) : P (l.run acts) := by
  induction acts generalizing l with
  | nil => exact h
  | cons a acts ih => exact ih (hstep l a h)

/-! ## What an act does to the bucket -/

/-- Whether an answer says what became of the tokens. -/
def Answer.isIdle : Answer R → Bool
  | .granted _ | .filled => false
  | _ => true

/-- What an act does to the bucket, and what is noted about it. -/
inductive Effect (l l' : Ledger R) : Prop where
  /-- The bucket is not touched. -/
  | idle (bucket : l.limiter.SameBucket l'.limiter) (now : l.now ≤ l'.now)
      (answers : ∃ xs, l'.answers = l.answers ++ xs ∧ ∀ x ∈ xs, x.1 = l.now ∧ x.2.isIdle = true)
  /-- The bucket is brought up to date, and nothing is taken. -/
  | refill (bucket : (l.limiter.refill l.now).SameBucket l'.limiter) (now : l'.now = l.now)
      (answers : ∃ xs, l'.answers = l.answers ++ xs ∧ ∀ x ∈ xs, x.1 = l.now ∧ x.2.isIdle = true)
  /-- The bucket is brought up to date, and holds the tokens that are granted then. -/
  | grant (n : UInt32) (holds : (l.limiter.refill l.now).holds n = true)
      (bucket : ((l.limiter.refill l.now).spend n).SameBucket l'.limiter) (now : l'.now = l.now)
      (answers : l'.answers = l.answers ++ [(l.now, .granted n)])
  | fill (bucket : (l.limiter.reset l.now).SameBucket l'.limiter) (now : l'.now = l.now)
      (answers : l'.answers = l.answers ++ [(l.now, .filled)])

omit [Scalar R] in
theorem answers_after_idle {limiter : RateLimiter R} {answer : Answer R}
    (h : answer.isIdle = true) :
    ∃ xs, (l.after limiter answer).answers = l.answers ++ xs ∧
      ∀ x ∈ xs, x.1 = l.now ∧ x.2.isIdle = true :=
  ⟨[(l.now, answer)], rfl, by simpa using h⟩

theorem Effect.refl (l : Ledger R) : Effect l l :=
  .idle (.refl _) (Nat.le_refl _) ⟨[], by simp⟩

theorem Effect.now_le (h : Effect l l') : l.now ≤ l'.now := by
  cases h with
  | idle _ now _ => exact now
  | refill _ now _ | grant _ _ _ now _ | fill _ now _ => exact Nat.le_of_eq now.symm

/-- A request that does not wait is granted or refused. -/
theorem ask_cases (l : Ledger R) (n : UInt32) :
    ((l.limiter.refill l.now).holds n = true ∧
        l.ask n = l.after (((l.limiter.refill l.now).spend n).record true) (.granted n)) ∨
      (l.limiter.refill l.now).holds n = false ∧
        l.ask n = l.after ((l.limiter.refill l.now).record false) (.refused n) := by
  unfold ask
  obtain ⟨hholds, h⟩ | ⟨hholds, h⟩ := l.limiter.allow_cases n l.now
  · exact .inl ⟨hholds, by simp [h]⟩
  · exact .inr ⟨hholds, by simp [h]⟩

/-- A request that waits if it has to is refused if it asks for too much, is granted like one
that does not wait, or sleeps. -/
theorem start_cases (l : Ledger R) (n : UInt32) :
    (l.limiter.config.burst < n ∧ l.start n = l.after (l.limiter.record false) (.refused n)) ∨
      l.start n = l.ask n ∨
      ∃ delay ≤ l.limiter.config.maxWait, l.start n =
        { l.after (l.limiter.refill l.now) (.asleep n delay) with
            waiters := l.waiters ++ [some ⟨n, l.now + delay.nanos⟩] } := by
  unfold start
  obtain ⟨hburst, h⟩ | ⟨limiter, hallow, h⟩ | ⟨delay, h⟩ := l.limiter.beginWait_cases n l.now
  · exact .inl ⟨hburst, by rw [h]⟩
  · exact .inr (.inl (by simp [ask, h, hallow]))
  · have hpending : (l.limiter.beginWait n l.now).2 = .pending delay := by rw [h]
    obtain ⟨-, -, -, hdelay⟩ := beginWait_pending hpending
    exact .inr (.inr ⟨delay, hdelay ▸ waitFor_le_maxWait .., by rw [h]⟩)

theorem effect_ask (l : Ledger R) (n : UInt32) : Effect l (l.ask n) := by
  obtain ⟨hholds, h⟩ | ⟨-, h⟩ := l.ask_cases n
  · rw [h]
    exact .grant n hholds (.record ((l.limiter.refill l.now).spend n) true) rfl rfl
  · rw [h]
    exact .refill (.record (l.limiter.refill l.now) false) rfl (answers_after_idle rfl)

theorem effect_start (l : Ledger R) (n : UInt32) : Effect l (l.start n) := by
  obtain ⟨-, h⟩ | h | ⟨delay, -, h⟩ := l.start_cases n
  · rw [h]
    exact .idle (.record l.limiter false) (Nat.le_refl _) (answers_after_idle rfl)
  · rw [h]
    exact l.effect_ask n
  · rw [h]
    exact .refill (.refl _) rfl ⟨[(l.now, .asleep n delay)], rfl, by simp [Answer.isIdle]⟩

/-- All that an act can do to the bucket. -/
theorem effect_step (l : Ledger R) (a : Act) : Effect l (l.step a) := by
  cases a with
  | advance nanos => exact .idle (.refl _) (Nat.le_add_right ..) ⟨[], by simp [step]⟩
  | ask n => exact l.effect_ask n
  | start n => exact l.effect_start n
  | execute =>
    simp only [step]
    split
    · exact l.effect_start 1
    · exact l.effect_ask 1
  | wake id =>
    simp only [step]
    split
    · split
      -- To ask, it does not matter who sleeps.
      · exact match (l.awaken id).effect_ask _ with
          | .idle bucket now answers => .idle bucket now answers
          | .refill bucket now answers => .refill bucket now answers
          | .grant n holds bucket now answers => .grant n holds bucket now answers
          | .fill bucket now answers => .fill bucket now answers
      · exact .refl l
    · exact .refl l
  | giveUp id =>
    simp only [step]
    split
    · exact .idle (.refl _) (Nat.le_refl _) (answers_after_idle (l := l.awaken id) rfl)
    · exact .refl l
  | look => exact .refill (.refl _) rfl (answers_after_idle rfl)
  | snapshot => exact .refill (.refl _) rfl (answers_after_idle rfl)
  | reset => exact .fill (.refl _) rfl rfl

end Ledger

end Safeguard.RateLimiter
