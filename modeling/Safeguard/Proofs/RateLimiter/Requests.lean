import Safeguard.Proofs.RateLimiter.Lockstep

/-!
# What becomes of a request

A request gets all its tokens or none. If it gets none, the bucket is left as it would be without
the request, so that nobody else can tell that it was made, except by the counter of refusals. This
is so at every way out: if the request is refused at once, if it is given up while it sleeps, and
if it is refused when it asks again.

Other requests come and go while one sleeps. To say what the run would have been without it, the
run in which its number is left out is followed along.

## Main definitions

* `Ledger.refusals`: how many requests were refused.
* `Ledger.passOver`: a run without a request.
* `Ledger.Settles`: a request is granted or refused.
* `Ledger.Awaits`, `Ledger.Sleeps`: a request sleeps, and what becomes of it.

## Main results

* `Ledger.Alike.settles`: a request that no longer waits is granted or refused.
* `Ledger.Alike.awaits`: a request that sleeps is given up without a trace, or asks once more.
* `Ledger.all_or_nothing`: every request in every run.
-/

namespace Safeguard.RateLimiter

theorem InStep.refuse {b b' : RateLimiter ℚ} {now : Instant} (h : InStep 0 now b b') :
    InStep 1 now (b.record false) b' :=
  { h with rejected := congrArg (· + 1) h.rejected }

namespace Ledger

variable {c : Config ℚ} {l r : Ledger ℚ} {n : UInt32} {a : Act} {acts : List Act} {id : Nat}
  {delay : Duration} {w : Option Waiter}

/-! ## Counting -/

/-- Whether an answer refuses tokens. -/
def Answer.isRefusal : Answer ℚ → Bool
  | .refused _ => true
  | _ => false

/-- How often tokens were refused. -/
def refusals (xs : List (Instant × Answer ℚ)) : Nat := xs.countP (·.2.isRefusal)

/-- Every grant and every refusal was counted once. -/
structure Tallied (l : Ledger ℚ) : Prop where
  admitted : l.limiter.admitted = grants l.answers
  rejected : l.limiter.rejected = refusals l.answers

namespace Tallied

/-- An answer is noted, and counted if it is a grant or a refusal. -/
theorem after (h : Tallied l) {b : RateLimiter ℚ} {x : Answer ℚ}
    (hadmitted : b.admitted = l.limiter.admitted + if x.isGrant then 1 else 0)
    (hrejected : b.rejected = l.limiter.rejected + if x.isRefusal then 1 else 0) :
    Tallied (l.after b x) where
  admitted := by
    show b.admitted = (l.answers ++ [(l.now, x)]).countP _
    rw [hadmitted, h.admitted, List.countP_append, List.countP_singleton]
    rfl
  rejected := by
    show b.rejected = (l.answers ++ [(l.now, x)]).countP _
    rw [hrejected, h.rejected, List.countP_append, List.countP_singleton]
    rfl

theorem ask (h : Tallied l) (n : UInt32) : Tallied (l.ask n) := by
  obtain ⟨-, hask⟩ | ⟨-, hask⟩ := l.ask_cases n
  · rw [hask]
    exact h.after rfl rfl
  · rw [hask]
    exact h.after rfl rfl

theorem start (h : Tallied l) (n : UInt32) : Tallied (l.start n) := by
  obtain ⟨-, hstart⟩ | hstart | ⟨delay, -, hstart⟩ := l.start_cases n
  · rw [hstart]
    exact h.after rfl rfl
  · rw [hstart]
    exact h.ask n
  · rw [hstart]
    have hafter : Tallied (l.after (l.limiter.refill l.now) (.asleep n delay)) := h.after rfl rfl
    exact ⟨hafter.admitted, hafter.rejected⟩

theorem awaken (h : Tallied l) (id : Nat) : Tallied (l.awaken id) := ⟨h.admitted, h.rejected⟩

/-- Every act keeps the counters right. -/
theorem step (h : Tallied l) (a : Act) : Tallied (l.step a) := by
  cases a with
  | advance nanos => exact ⟨h.admitted, h.rejected⟩
  | ask n => exact h.ask n
  | start n => exact h.start n
  | execute =>
    simp only [Ledger.step]
    split
    · exact h.start 1
    · exact h.ask 1
  | wake id =>
    simp only [Ledger.step]
    split
    · split
      · exact (h.awaken id).ask _
      · exact h
    · exact h
  | giveUp id =>
    simp only [Ledger.step]
    split
    · exact (h.awaken id).after rfl rfl
    · exact h
  | look => exact h.after rfl rfl
  | snapshot => exact h.after rfl rfl
  | reset => exact h.after rfl rfl

theorem run (c : Config ℚ) (start : Instant) (acts : List Act) :
    Tallied ((blank c start).run acts) :=
  run_induction (fun _ a h => h.step a) ⟨rfl, rfl⟩ acts

end Tallied

/-! ## A verdict -/

/-- A request for `n` tokens gets its verdict. It was made in `l` and leads to `l'`, and `r` is the
run without it. -/
inductive Settles (n : UInt32) (r l l' : Ledger ℚ) : Prop where
  /-- All tokens are taken out, once, and are missed from now on. -/
  | granted (answers : l'.answers = l.answers ++ [(r.now, .granted n)])
      (enough : n.toNat ≤ (r.limiter.level r.now).2 + tolerance)
      (level : ∀ t, r.now ≤ t → (l'.limiter.level t).2 =
        min r.limiter.capacity (max ((r.limiter.level r.now).2 - n.toNat) 0 +
          accrual r.limiter.config (t - r.now)))
      (admitted : l'.limiter.admitted = r.limiter.admitted + 1)
      (rejected : l'.limiter.rejected = r.limiter.rejected)
      (waiters : l'.waiters = r.waiters)
  /-- Nothing is left of the request but the count. -/
  | refused (answers : l'.answers = l.answers ++ [(r.now, .refused n)])
      (short : (r.limiter.level r.now).2 + tolerance < n.toNat)
      (follows : Follows 1 none l' r)

theorem Alike.waiters_eq {extra : ℕ} (h : Alike extra none l r) : l.waiters = r.waiters := by
  ext1 id
  exact h.waiters id nofun

/-- A request that does not wait, or no longer, is granted or refused. It makes no difference to
that how often the bucket was brought up to date before. -/
theorem Alike.settles (h : Alike 0 none l r) (hl : l.limiter.refilledAt ≤ l.now) (n : UInt32) :
    Settles n r l (l.ask n) := by
  have hlevel : (l.limiter.refill l.now).tokens = (r.limiter.level r.now).2 := by
    rw [← h.now]
    exact h.limiter.tokens l.now le_rfl
  obtain ⟨hholds, hask⟩ | ⟨hholds, hask⟩ := l.ask_cases n
  · -- What is left in the bucket is what the other run would have, less the tokens taken.
    rw [holds_iff, hlevel] at hholds
    rw [hask]
    refine .granted ?_ hholds ?_ ?_ ?_ h.waiters_eq
    · rw [← h.now]
      rfl
    · intro t ht
      have htaken : ((l.limiter.refill l.now).spend n).tokens =
          max ((r.limiter.level r.now).2 - n.toNat) 0 := by
        rw [tokens_spend, hlevel]
      calc _ = min (((l.limiter.refill l.now).spend n).tokens +
              accrual l.limiter.config (t - l.now)) l.limiter.capacity :=
            tokens_refill_eq (((l.limiter.refill l.now).spend n).record true) t
        _ = _ := by rw [htaken, min_comm, capacity, capacity, h.limiter.config, h.now]
    · rw [← h.limiter.admitted]
      rfl
    · exact h.limiter.rejected
  · -- The bucket was brought up to date, and that is all.
    have hshort := Bool.eq_false_iff.mp hholds
    rw [Ne, holds_iff, hlevel, not_le] at hshort
    rw [hask]
    refine .refused ?_ hshort (Alike.follows ?_)
    · rw [← h.now]
      rfl
    · exact { h with limiter := (h.limiter.refill_left hl).refuse }

/-! ## Requests that sleep -/

/-- The run goes on without a request, whose number is left out. -/
def passOver (l : Ledger ℚ) : Ledger ℚ := { l with waiters := l.waiters ++ [none] }

/-- A request for `n` tokens sleeps in `l` under the number `id`, and `r` is the run without it. -/
structure Awaits (n : UInt32) (due : Instant) (id : Nat) (l r : Ledger ℚ) : Prop where
  /-- While it sleeps, nobody else can tell. -/
  follows : Follows 0 (some id) l r
  /-- If it is given up, nothing is left of it. -/
  givenUp : (l.step (.giveUp id)).answers = l.answers ++ [(l.now, .abandoned n)] ∧
    Follows 0 none (l.step (.giveUp id)) r
  /-- It does not ask again before the delay is over. -/
  early : l.now < due → l.step (.wake id) = l
  /-- When it asks again, it gets its verdict. -/
  settles : due ≤ l.now → Settles n r l (l.step (.wake id))

/-- A request for `n` tokens that is made in `l` goes to sleep in `l'`, whatever others do then. -/
structure Sleeps (n : UInt32) (delay : Duration) (l l' : Ledger ℚ) : Prop where
  answers : l'.answers = l.answers ++ [(l.now, .asleep n delay)]
  awaits : ∀ acts, (∀ a ∈ acts, a.Spares (some l.waiters.length)) →
    Awaits n (l.now + delay.nanos) l.waiters.length (l'.run acts) (l.passOver.run acts)

/-- A request goes on to sleep, or is gone, as long as only others act. -/
theorem getElem?_waiters_step (ha : a.Spares (some id)) (h : l.waiters[id]? = some w) :
    (l.step a).waiters[id]? = some w := by
  obtain ⟨hlt, -⟩ := List.getElem?_eq_some_iff.mp h
  have hstart (n : UInt32) : (l.start n).waiters[id]? = some w := by
    obtain ⟨-, hstart⟩ | hstart | ⟨delay, -, hstart⟩ := l.start_cases n
    · rw [hstart]
      exact h
    · rw [hstart]
      exact h
    · rw [hstart]
      exact (List.getElem?_append_left hlt).trans h
  have hawaken {id' : Nat} (hne : some id ≠ some id') : (l.awaken id').waiters[id]? = some w :=
    (List.getElem?_set_ne fun heq => hne (congrArg some heq.symm)).trans h
  cases a with
  | advance | ask | look | snapshot | reset => exact h
  | start n => exact hstart n
  | execute =>
    simp only [step]
    split
    · exact hstart 1
    · exact h
  | wake id' =>
    simp only [step]
    split
    · split
      · exact hawaken ha
      · exact h
    · exact h
  | giveUp id' =>
    simp only [step]
    split
    · exact hawaken ha
    · exact h

theorem getElem?_waiters_run (hacts : ∀ a ∈ acts, a.Spares (some id))
    (h : l.waiters[id]? = some w) : (l.run acts).waiters[id]? = some w := by
  induction acts generalizing l with
  | nil => exact h
  | cons a acts ih =>
    obtain ⟨ha, hacts⟩ := List.forall_mem_cons.mp hacts
    exact ih hacts (getElem?_waiters_step ha h)

/-- Once the request on its way has ended, its number is free on both sides. -/
theorem Alike.awaken_hidden {extra : ℕ} (h : Alike extra (some id) l r)
    (hr : r.waiters[id]? = some none) : Alike extra none (l.awaken id) r where
  now := h.now
  limiter := h.limiter
  length := by simp [Ledger.awaken, h.length]
  waiters id' _ := by
    have hlt : id < l.waiters.length := h.length ▸ (List.getElem?_eq_some_iff.mp hr).1
    by_cases heq : id = id'
    · subst heq
      rw [hr]
      exact List.getElem?_set_self hlt
    · rw [← h.waiters id' fun hsome => heq (Option.some.inj hsome)]
      exact List.getElem?_set_ne heq

/-- The run in which a request goes to sleep, and the run without it. -/
theorem alike_passOver (hsound : Sound c l) (w : Waiter) (x : Answer ℚ) :
    Alike 0 (some l.waiters.length)
      { l.after (l.limiter.refill l.now) x with waiters := l.waiters ++ [some w] } l.passOver where
  now := rfl
  limiter := (InStep.refl l.now l.limiter).refill_left hsound.refilledAt_le
  length := by simp [passOver]
  waiters id hid := by
    have hne : l.waiters.length ≠ id := fun heq => hid (congrArg some heq)
    rcases Nat.lt_or_gt_of_ne hne.symm with hlt | hgt
    · exact (List.getElem?_append_left hlt).trans (List.getElem?_append_left hlt).symm
    · have hnone (w : Option Waiter) : (l.waiters ++ [w])[id]? = none :=
        List.getElem?_eq_none (by simpa using Nat.succ_le_of_lt hgt)
      exact (hnone _).trans (hnone _).symm

/-- What becomes of a request that sleeps. -/
theorem Alike.awaits {due : Instant} (h : Alike 0 (some id) l r) (hsound : Sound c l)
    (hwaiter : l.waiters[id]? = some (some ⟨n, due⟩)) (hr : r.waiters[id]? = some none) :
    Awaits n due id l r := by
  have hsleeps : l.waiter? id = some ⟨n, due⟩ := congrArg Option.join hwaiter
  have halike := h.awaken_hidden hr
  refine ⟨h.follows, ?_, ?_, ?_⟩
  · simp only [Ledger.step, hsleeps]
    refine ⟨rfl, Alike.follows ?_⟩
    exact ⟨halike.now, halike.limiter, halike.length, halike.waiters⟩
  · intro hearly
    simp only [Ledger.step, hsleeps]
    exact if_neg (Nat.not_le.mpr hearly)
  · intro hdue
    simp only [Ledger.step, hsleeps]
    rw [if_pos hdue]
    -- What was answered before does not depend on who sleeps.
    cases halike.settles hsound.refilledAt_le n with
    | granted answers enough level admitted rejected waiters =>
      exact .granted answers enough level admitted rejected waiters
    | refused answers short follows => exact .refused answers short follows

theorem sleeps_of_start (hsound : Sound c l)
    (hstart : l.start n = { l.after (l.limiter.refill l.now) (.asleep n delay) with
      waiters := l.waiters ++ [some ⟨n, l.now + delay.nanos⟩] }) :
    Sleeps n delay l (l.step (.start n)) := by
  show Sleeps n delay l (l.start n)
  have hsound' : Sound c (l.start n) := hsound.effect (l.effect_start n)
  have halike : Alike 0 (some l.waiters.length) (l.start n) l.passOver := by
    rw [hstart]
    exact alike_passOver hsound _ _
  have hwaiter : (l.start n).waiters[l.waiters.length]? =
      some (some ⟨n, l.now + delay.nanos⟩) := by
    rw [hstart]
    exact List.getElem?_concat_length
  have hnumber : l.passOver.waiters[l.waiters.length]? = some none := List.getElem?_concat_length
  refine ⟨by rw [hstart]; rfl, ?_⟩
  intro acts hacts
  apply (halike.run hacts).alike.awaits
  · exact hsound'.run acts
  · exact getElem?_waiters_run hacts hwaiter
  · exact getElem?_waiters_run hacts hnumber

/-! ## Every request -/

/-- A request that is for more than the bucket can hold is for more than it holds. -/
theorem settles_of_burst_lt (hburst : l.limiter.config.burst < n) :
    Settles n l l (l.after (l.limiter.record false) (.refused n)) := by
  refine .refused rfl ?_ (Alike.follows ?_)
  · have hlevel : (l.limiter.level l.now).2 ≤ l.limiter.config.burst.toNat :=
      tokens_refill_le_capacity l.limiter l.now
    have hmore : (l.limiter.config.burst.toNat : ℚ) + 1 ≤ n.toNat := by
      exact_mod_cast UInt32.lt_iff_toNat_lt.mp hburst
    have htolerance : (tolerance : ℚ) < 1 := by
      rw [tolerance_eq]
      norm_num
    linarith
  · exact { Alike.refl l with limiter := (InStep.refl l.now l.limiter).refuse }

/-- **All or nothing.** After every run, as many requests are counted as granted and as refused as
were. A request that does not wait gets its verdict at once; one that waits if it has to gets it at
once or goes to sleep, for no longer than the longest wait, and gets it when it asks again, unless
it is given up. A verdict either takes all tokens out of the bucket, once, or leaves the run as it
would be without the request, but for the count; a request that is given up leaves nothing. -/
theorem all_or_nothing (c : Config ℚ) (start : Instant) (before : List Act) (n : UInt32) :
    let l := (blank c start).run before
    (l.limiter.admitted = grants l.answers ∧ l.limiter.rejected = refusals l.answers) ∧
      Settles n l l (l.step (.ask n)) ∧
      (Settles n l l (l.step (.start n)) ∨
        ∃ delay ≤ c.maxWait, Sleeps n delay l (l.step (.start n))) := by
  intro l
  have hsound : Sound c l := (Sound.blank c start).run before
  have htallied : Tallied l := .run c start before
  have hask : Settles n l l (l.ask n) := (Alike.refl l).settles hsound.refilledAt_le n
  refine ⟨⟨htallied.admitted, htallied.rejected⟩, hask, ?_⟩
  obtain ⟨hburst, hstart⟩ | hstart | ⟨delay, hdelay, hstart⟩ := l.start_cases n
  · left
    show Settles n l l (l.start n)
    rw [hstart]
    exact settles_of_burst_lt hburst
  · left
    show Settles n l l (l.start n)
    rw [hstart]
    exact hask
  · right
    exact ⟨delay, hsound.config ▸ hdelay, sleeps_of_start hsound hstart⟩

/-- Two of ten tokens are left, so that a request for three goes to sleep. Nine more are taken
before it asks again a second later, and then it is refused and leaves nothing but the count. -/
theorem all_or_nothing_of_shortfall :
    let l := (blank Config.default 0).run [.ask 8]
    let acts := [.advance 1000000000, .ask 9]
    Settles 3 (l.passOver.run acts) ((l.step (.start 3)).run acts)
        (((l.step (.start 3)).run acts).step (.wake 0)) ∧
      Follows 1 none (((l.step (.start 3)).run acts).step (.wake 0)) (l.passOver.run acts) := by
  intro l acts
  obtain ⟨-, -, hsettles | ⟨delay, hdelay, hsleeps⟩⟩ := all_or_nothing Config.default 0 [.ask 8] 3
  · cases hsettles with
    | granted answers => exact absurd (congrArg grants answers) (by decide +kernel)
    | refused answers => exact absurd (congrArg refusals answers) (by decide +kernel)
  · have hspares : ∀ a ∈ acts, a.Spares (some 0) := by simp [acts, Act.Spares]
    have hnow : ((l.step (.start 3)).run acts).now = 1000000000 := by decide +kernel
    have hdue : 0 + delay.nanos ≤ ((l.step (.start 3)).run acts).now := by
      rw [hnow, Nat.zero_add]
      exact hdelay
    have hverdict := (hsleeps.awaits acts hspares).settles hdue
    refine ⟨hverdict, ?_⟩
    cases hverdict with
    | granted answers => exact absurd (congrArg grants answers) (by decide +kernel)
    | refused _ _ follows => exact follows

end Ledger

end Safeguard.RateLimiter
