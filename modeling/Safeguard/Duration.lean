/-!
# Spans and points of time

A duration is a whole number of nanoseconds, and no duration reaches `2 ^ 64`
seconds: the bound is part of the type, so every operation that builds one says
what happens at the end of the range. Points of time are nanoseconds since the
clock started and carry no bound.

## Main definitions

* `Instant`: a point of time.
* `Duration`: a bounded span of time.
* `Duration.ofNanos?`, `Duration.saturate`: the two ways to meet the bound.
* `Duration.millis`: whole milliseconds, as durations are reported and saved.
-/

namespace Safeguard

/-- A point of time, in nanoseconds since the clock started. -/
abbrev Instant := Nat

/-- Nanoseconds in a second. -/
abbrev nanosPerSecond : Nat := 1000000000

/-- Nanoseconds in a millisecond. -/
abbrev nanosPerMilli : Nat := 1000000

/-- The longest span of time, in nanoseconds: one short of `2 ^ 64` seconds. -/
abbrev longestNanos : Nat := UInt64.size * nanosPerSecond - 1

/-- A span of time in whole nanoseconds. -/
structure Duration where
  /-- The length in nanoseconds. -/
  nanos : Nat
  /-- No span reaches `2 ^ 64` seconds. -/
  nanos_le : nanos ≤ longestNanos
deriving DecidableEq, Repr

namespace Duration

@[ext] theorem ext {a b : Duration} (h : a.nanos = b.nanos) : a = b := by
  cases a; cases b; simp_all

/-- The empty span. -/
def zero : Duration := ⟨0, Nat.zero_le _⟩

/-- The longest span. -/
def longest : Duration := ⟨longestNanos, Nat.le_refl _⟩

instance : Inhabited Duration := ⟨zero⟩

/-- The span of that many nanoseconds, if it is within range. -/
def ofNanos? (n : Nat) : Option Duration :=
  if h : n ≤ longestNanos then some ⟨n, h⟩ else none

/-- The span of that many nanoseconds, cut off at the longest one. -/
def saturate (n : Nat) : Duration := ⟨min n longestNanos, Nat.min_le_right ..⟩

/-- The span of that many milliseconds. Every 64-bit count is within range. -/
def ofMillis (ms : UInt64) : Duration :=
  ⟨ms.toNat * nanosPerMilli, by
    have := ms.toNat_lt
    simp only [longestNanos, nanosPerMilli, nanosPerSecond, UInt64.size]; omega⟩

/-- The span of that many seconds. -/
def ofSeconds (s : UInt64) : Duration :=
  ⟨s.toNat * nanosPerSecond, by
    have := s.toNat_lt; simp only [longestNanos, nanosPerSecond, UInt64.size]; omega⟩

/-- Whole milliseconds, any remainder dropped. -/
def millis (d : Duration) : Nat := d.nanos / nanosPerMilli

/-- Milliseconds rounded up, as a timer of whole milliseconds counts them. -/
def millisUp (d : Duration) : Nat := (d.nanos + (nanosPerMilli - 1)) / nanosPerMilli

instance : LE Duration := ⟨fun a b => a.nanos ≤ b.nanos⟩

instance : LT Duration := ⟨fun a b => a.nanos < b.nanos⟩

instance (a b : Duration) : Decidable (a ≤ b) := inferInstanceAs (Decidable (a.nanos ≤ b.nanos))

instance (a b : Duration) : Decidable (a < b) := inferInstanceAs (Decidable (a.nanos < b.nanos))

/-- The shorter of two spans. -/
instance : Min Duration := ⟨fun a b => if a ≤ b then a else b⟩

/-- The sum of two spans, cut off at the longest one. -/
def add (a b : Duration) : Duration := saturate (a.nanos + b.nanos)

/-- Whether the span is empty. -/
def isZero (d : Duration) : Bool := d.nanos == 0

theorem le_def {a b : Duration} : a ≤ b ↔ a.nanos ≤ b.nanos := Iff.rfl

theorem lt_def {a b : Duration} : a < b ↔ a.nanos < b.nanos := Iff.rfl

@[simp] theorem nanos_zero : zero.nanos = 0 := rfl

@[simp] theorem nanos_saturate (n : Nat) : (saturate n).nanos = min n longestNanos := rfl

@[simp] theorem nanos_ofMillis (ms : UInt64) : (ofMillis ms).nanos = ms.toNat * nanosPerMilli := rfl

@[simp] theorem nanos_add (a b : Duration) :
    (a.add b).nanos = min (a.nanos + b.nanos) longestNanos := rfl

theorem nanos_min (a b : Duration) : (min a b).nanos = min a.nanos b.nanos := by
  show (if a ≤ b then a else b).nanos = _
  by_cases h : a ≤ b
  · rw [if_pos h]; exact (Nat.min_eq_left (le_def.1 h)).symm
  · rw [if_neg h]; exact (Nat.min_eq_right (Nat.le_of_not_le (mt le_def.2 h))).symm

theorem ofNanos?_eq_some_iff {n : Nat} {d : Duration} : ofNanos? n = some d ↔ d.nanos = n := by
  unfold ofNanos?
  split
  · rename_i h
    constructor
    · intro e; cases e; rfl
    · intro e; subst e; rfl
  · rename_i h
    constructor
    · intro e; cases e
    · intro e; exact absurd (e ▸ d.nanos_le) h

end Duration

end Safeguard
