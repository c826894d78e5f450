import Safeguard.Proofs.RateLimiter.Lockstep

/-!
# A bucket that is filled by the clock

No timer runs: tokens are added when somebody touches the bucket. Yet everything happens as if they
came in steadily. Looks and snapshots bring the bucket up to date, wherever they come in a run and
however many of them there are, and nobody else can tell. And between two grants or resets the
level follows from the time alone, even though requests that are refused, that go to sleep or that
are given up bring the bucket up to date as well.

## Main definitions

* `Ledger.Item`, `Ledger.Interspersed`: a run with additional looks, also while time passes.
* `Ledger.ownStory`: what such a run is answered, apart from the looks.

## Main results

* `Ledger.Interspersed.ownStory_eq`: additional looks change no answer.
* `Ledger.level_run`: how the level rises while nothing is granted.
* `Ledger.lazy_refill_eq_timer`: both together, for every run of every limiter.
-/

namespace Safeguard.RateLimiter.Ledger

/-! ## Runs with additional looks -/

/-- An act of a run, or an additional one beside it. -/
inductive Item where
  | own (a : Act)
  | aside (a : Act)
deriving DecidableEq, Repr

/-- A run, and the same run with additional looks at the tokens or at all counters. Time may be cut
anywhere to make place for one. -/
inductive Interspersed : List Act → List Item → Prop where
  | nil : Interspersed [] []
  | own {acts : List Act} {items : List Item} (a : Act) (rest : Interspersed acts items) :
      Interspersed (a :: acts) (.own a :: items)
  | look {acts : List Act} {items : List Item} (rest : Interspersed acts items) :
      Interspersed acts (.aside .look :: items)
  | snapshot {acts : List Act} {items : List Item} (rest : Interspersed acts items) :
      Interspersed acts (.aside .snapshot :: items)
  | cut {acts : List Act} {items : List Item} (m n : Nat)
      (rest : Interspersed (.advance n :: acts) items) :
      Interspersed (.advance (m + n) :: acts) (.own (.advance m) :: items)

/-- What the acts of the run itself are answered. -/
def ownStory (l : Ledger ℚ) : List Item → List (Instant × Answer ℚ)
  | [] => []
  | .own a :: items => l.story [a] ++ (l.step a).ownStory items
  | .aside a :: items => (l.step a).ownStory items

variable {c : Config ℚ} {l r : Ledger ℚ} {acts : List Act} {items : List Item}
  {xs : List (Instant × Answer ℚ)} {t : Instant}

/-- A run that is cut while time passes is the same run. -/
theorem story_advance_add (l : Ledger ℚ) (m n : Nat) (acts : List Act) :
    l.story (.advance (m + n) :: acts) =
      (l.step (.advance m)).story (.advance n :: acts) := by
  have hstep : l.step (.advance (m + n)) = (l.step (.advance m)).step (.advance n) := by
    simp only [step, Nat.add_assoc]
  unfold story
  show ((l.step (.advance (m + n))).run acts).answers.drop _ = _
  rw [hstep]
  rfl

/-- It makes no difference that somebody has looked at the one limiter. -/
theorem Alike.refill_left (h : Alike 0 none r l) (hsound : Sound c r) (x : Answer ℚ) :
    Alike 0 none (r.after (r.limiter.refill r.now) x) l :=
  { h with limiter := h.limiter.refill_left hsound.refilledAt_le }

/-- With additional looks, everything else is answered the same. -/
theorem Interspersed.ownStory_eq (hitems : Interspersed acts items) (h : Alike 0 none r l)
    (hsound : Sound c r) : r.ownStory items = l.story acts := by
  -- Along both runs, the limiters stay in step: what is looked at is only brought up to date.
  induction hitems generalizing l r with
  | nil => exact (story_eq (List.append_nil _).symm).symm
  | own a rest ih =>
    have hkeeps := h.step a.spares_none
    have hspares : ∀ x ∈ [a], x.Spares none := fun x _ => x.spares_none
    have hfirst : r.story [a] = l.story [a] := by
      simpa using h.story_eq hspares
    rw [story_cons, ← hfirst, ← ih hkeeps.alike (hsound.effect (r.effect_step a))]
    rfl
  | look rest ih => exact ih (h.refill_left hsound _) (hsound.effect (r.effect_step _))
  | snapshot rest ih => exact ih (h.refill_left hsound _) (hsound.effect (r.effect_step _))
  | cut m n rest ih =>
    have hkeeps := h.step (Act.advance m).spares_none
    have hnothing : r.story [.advance m] = [] := story_eq (List.append_nil _).symm
    rw [story_advance_add, ← ih hkeeps.alike (hsound.effect (r.effect_step _))]
    show r.story [.advance m] ++ _ = _
    rw [hnothing, List.nil_append]

/-! ## The level between grants -/

/-- An act that grants nothing and does not fill the bucket leaves its levels as they are. -/
theorem Effect.level_eq {l' : Ledger ℚ} (heffect : Effect l l') (hsound : Sound c l)
    (hanswers : l'.answers = l.answers ++ xs) (hidle : ∀ x ∈ xs, x.2.isIdle = true)
    (ht : l.now ≤ t) : (l'.limiter.level t).2 = (l.limiter.level t).2 := by
  have hnew {y : Instant × Answer ℚ} (h : l'.answers = l.answers ++ [y]) : y.2.isIdle = true := by
    have hxs : xs = [y] := List.append_cancel_left (hanswers.symm.trans h)
    exact hidle y (hxs ▸ List.mem_singleton_self y)
  cases heffect with
  | idle bucket _ _ => exact bucket.tokens_refill_eq t
  | refill bucket _ _ =>
    refine (bucket.tokens_refill_eq t).trans ?_
    rw [refill_refill hsound.refilledAt_le ht]
    rfl
  | grant n _ _ _ answers => cases hnew answers
  | fill _ _ answers => cases hnew answers

/-- While nothing is granted and the bucket is not filled, its levels are those that it had
before. -/
theorem level_run (hsound : Sound c l) (hidle : ∀ x ∈ l.story acts, x.2.isIdle = true)
    (ht : (l.run acts).now ≤ t) :
    l.now ≤ t ∧ ((l.run acts).limiter.level t).2 = (l.limiter.level t).2 := by
  induction acts generalizing l with
  | nil => exact ⟨ht, rfl⟩
  | cons a acts ih =>
    have heffect := l.effect_step a
    rw [story_cons] at hidle
    obtain ⟨hfirst, hrest⟩ := List.forall_mem_append.mp hidle
    obtain ⟨hnow, hlevel⟩ := ih (hsound.effect heffect) hrest ht
    have hle : l.now ≤ t := heffect.now_le.trans hnow
    exact ⟨hle, hlevel.trans (heffect.level_eq hsound (l.answers_run [a]) hfirst hle)⟩

/-- **A bucket that is filled by the clock.** Additional looks and snapshots, at any time and
however many, change no verdict, no delay and no level that is seen otherwise. And whatever happened
before, as long as nothing is granted and the bucket is not filled, the level is what it was plus
the rate times the time since then, cut off at the size of the bucket. -/
theorem lazy_refill_eq_timer (c : Config ℚ) (start : Instant) :
    (∀ acts items, Interspersed acts items →
        (blank c start).ownStory items = (blank c start).story acts) ∧
      ∀ (before since : List Act) (t : Instant),
        let l := (blank c start).run before
        (∀ x ∈ l.story since, x.2.isIdle = true) → (l.run since).now ≤ t →
          ((l.run since).limiter.level t).2 =
            min (c.burst.toNat : ℚ) ((l.limiter.level l.now).2 +
              max c.rate 0 * ((t - l.now : ℕ) / nanosPerSecond)) := by
  constructor
  · intro acts items hitems
    exact hitems.ownStory_eq (.refl _) (.blank c start)
  · intro before since t l hidle ht
    have hsound : Sound c l := (Sound.blank c start).run before
    obtain ⟨hle, hlevel⟩ := level_run hsound hidle ht
    rw [hlevel, level_eq hsound.refilledAt_le hle, hsound.capacity_eq, hsound.config, accrual,
      mul_comm]

/-- Two tokens a second, five at once. -/
def drip : Config ℚ := ⟨2, 5, true, .ofSeconds 1⟩

/-- A run of five acts, watched by somebody. -/
def watched : List Item :=
  [.own (.ask 4), .aside .look, .own (.advance 200000000), .aside .snapshot, .aside .look,
    .own (.advance 300000000), .own (.ask 3), .own (.advance 700000000), .aside .look, .own .look]

/-- Four of five tokens are granted. Half a second later there are two, so that three are refused,
and the level goes on rising through that. -/
theorem lazy_refill_eq_timer_drip :
    Interspersed [.ask 4, .advance 500000000, .ask 3, .advance 700000000, .look] watched ∧
      (blank drip 0).ownStory watched =
        (blank drip 0).story [.ask 4, .advance 500000000, .ask 3, .advance 700000000, .look] ∧
      ((((blank drip 0).run [.ask 4]).run [.advance 500000000, .ask 3]).limiter.level
          1200000000).2 = 17 / 5 := by
  obtain ⟨hlooks, hlevel⟩ := lazy_refill_eq_timer drip 0
  have hwatched :
      Interspersed [.ask 4, .advance 500000000, .ask 3, .advance 700000000, .look] watched :=
    .own _ (.look (.cut 200000000 300000000
      (.snapshot (.look (.own _ (.own _ (.own _ (.look (.own _ .nil)))))))))
  refine ⟨hwatched, hlooks _ _ hwatched, ?_⟩
  rw [hlevel [.ask 4] [.advance 500000000, .ask 3] 1200000000 (by decide +kernel) (by decide)]
  decide +kernel

end Safeguard.RateLimiter.Ledger
