import Safeguard.Proofs.CircuitBreaker.Operations
import Safeguard.Proofs.Resilience.Reloading

/-!
# Layers that are built

A circuit breaker and a bulkhead bring their configuration into range before they use it, and a
configuration is checked before layers are built. Both describe the same configurations: what a
component makes of a configuration always passes the check, it is the configuration itself
exactly if that passes the check, and a second time nothing changes. So for a configuration that
was loaded every component runs with its section as it stands.

## Main definitions

* `Resilience.Config.has`: whether there is a section for a layer.

## Main results

* `Resilience.Config.build_of_validate`: what is built for a configuration that passes its checks.
* `Resilience.Config.configured_runs`: what is configured is what runs.
-/

namespace Safeguard

variable {R : Type}

/-! ## Bringing into range -/

namespace CircuitBreaker.Config

theorem max_one_eq_self {n : UInt32} : max n 1 = n ↔ n ≠ 0 := by
  rw [← UInt32.toNat_inj, toNat_max_one, ne_eq, ← UInt32.toNat_inj, UInt32.toNat_zero]
  omega

theorem max_one_ne_zero (n : UInt32) : max n 1 ≠ 0 := by
  rw [ne_eq, ← UInt32.toNat_inj, toNat_max_one, UInt32.toNat_zero]
  omega

theorem validate_eq_ok {c : Config} :
    (c.validate : Except (Invalid R) Unit) = .ok () ↔
      c.failureThreshold ≠ 0 ∧ c.successThreshold ≠ 0 ∧ c.maxHalfOpenProbes ≠ 0 := by
  unfold validate
  split_ifs <;> simp_all

/-- What is in range passes the check. -/
theorem validate_clamp (c : Config) : (c.clamp.validate : Except (Invalid R) Unit) = .ok () :=
  validate_eq_ok.mpr ⟨max_one_ne_zero _, max_one_ne_zero _, max_one_ne_zero _⟩

/-- What passes the check is in range. -/
theorem clamp_eq_self {c : Config} :
    c.clamp = c ↔ (c.validate : Except (Invalid R) Unit) = .ok () := by
  rw [validate_eq_ok, ← max_one_eq_self, ← max_one_eq_self, ← max_one_eq_self]
  cases c
  simp [clamp]

theorem clamp_clamp (c : Config) : c.clamp.clamp = c.clamp :=
  clamp_eq_self.mpr (validate_clamp (R := Float) c)

end CircuitBreaker.Config

namespace Bulkhead.Config

theorem validate_eq_ok {c : Config} :
    (c.validate : Except (Invalid R) Unit) = .ok () ↔
      0 < c.maxConcurrent.toNat ∧ c.maxConcurrent.toNat ≤ largestCapacity := by
  have hzero : c.maxConcurrent = 0 ↔ c.maxConcurrent.toNat = 0 := by
    rw [← UInt64.toNat_inj, UInt64.toNat_zero]
  unfold validate
  split_ifs with hnone hmany
  · simp [hzero.mp hnone]
  · simpa using fun _ => hmany
  · simpa using ⟨Nat.pos_of_ne_zero (mt hzero.mpr hnone), Nat.le_of_not_lt hmany⟩

theorem toNat_clamp (c : Config) :
    c.clamp.maxConcurrent.toNat = max 1 (min c.maxConcurrent.toNat largestCapacity) := by
  have hlt : max 1 (min c.maxConcurrent.toNat largestCapacity) < UInt64.size := by
    have hcapacity : 1 < UInt64.size ∧ largestCapacity < UInt64.size := by decide
    omega
  exact UInt64.toNat_ofNat_of_lt' hlt

/-- What is in range passes the check. -/
theorem validate_clamp (c : Config) : (c.clamp.validate : Except (Invalid R) Unit) = .ok () := by
  have hcapacity : 1 ≤ largestCapacity := by decide
  rw [validate_eq_ok, toNat_clamp]
  omega

/-- What passes the check is in range. -/
theorem clamp_eq_self {c : Config} :
    c.clamp = c ↔ (c.validate : Except (Invalid R) Unit) = .ok () := by
  have hcount : c.clamp = c ↔ c.clamp.maxConcurrent.toNat = c.maxConcurrent.toNat := by
    rw [UInt64.toNat_inj]
    cases c
    simp [clamp]
  have hcapacity : 1 ≤ largestCapacity := by decide
  rw [hcount, toNat_clamp, validate_eq_ok]
  omega

theorem clamp_clamp (c : Config) : c.clamp.clamp = c.clamp :=
  clamp_eq_self.mpr (validate_clamp (R := Float) c)

end Bulkhead.Config

/-! ## Building -/

namespace Resilience.Config

variable {c : Config} {now : Instant}

/-- Whether there is a section for a layer. -/
def has (c : Config) : Layer → Bool
  | .rateLimiter => c.rateLimiter.isSome
  | .bulkhead => c.bulkhead.isSome
  | .circuitBreaker => c.circuitBreaker.isSome
  | .retry => c.retry.isSome
  | .timeout => c.timeout.isSome

/-- Layers run with the sections of a configuration: there is a component for every section and
no other, and it works with the section as it stands. -/
structure RunsWith (layers : Layers) (c : Config) : Prop where
  has : ∀ l, layers.has l = c.has l
  rateLimiter : layers.rateLimiter.map (·.config) = c.rateLimiter
  bulkhead : layers.bulkhead.map (·.config) = c.bulkhead
  circuitBreaker : layers.circuitBreaker.map (·.config) = c.circuitBreaker
  retry : layers.retry = c.retry
  timeout : layers.timeout = c.timeout.map (·.duration)

/-- No section that passes its check is altered by its component. -/
theorem runsWith_assemble (h : c.validate = .ok ()) (now : Instant) :
    RunsWith (c.assemble now) c := by
  obtain ⟨-, hbulkhead, hbreaker, -, -⟩ := validate_eq_ok.mp h
  refine ⟨fun l => ?_, ?_, ?_, ?_, rfl, rfl⟩
  · cases l <;> simp [assemble, has, Layers.has]
  · simp [assemble, RateLimiter.new, Function.comp_def]
  · cases hb : c.bulkhead with
    | none => simp [assemble, hb]
    | some s =>
      have hs : s.clamp = s := Bulkhead.Config.clamp_eq_self.mpr (hbulkhead s hb)
      simp [assemble, hb, Bulkhead.new, hs]
  · cases hb : c.circuitBreaker with
    | none => simp [assemble, hb]
    | some s =>
      have hs : s.clamp = s := CircuitBreaker.Config.clamp_eq_self.mpr (hbreaker s hb)
      simp [assemble, hb, CircuitBreaker.new, hs]

theorem build_of_validate (h : c.validate = .ok ()) (now : Instant) :
    c.build now = .ok (c.assemble now) := by
  rw [build, h]
  rfl

/-- What is configured is what runs: for a configuration that was loaded layers are built, and
they run with its sections. Whatever configuration a circuit breaker or a bulkhead is given, the
one it works with passes its check, is the given one exactly if that passes the check, and makes
the same component again. -/
theorem configured_runs :
    (∀ (text : String) (c : Config) (now : Instant), load text = .ok c →
      ∃ layers, c.build now = .ok layers ∧ RunsWith layers c) ∧
    (∀ c : CircuitBreaker.Config,
      (CircuitBreaker.new c).config.validate (R := Float) = .ok () ∧
        ((CircuitBreaker.new c).config = c ↔ c.validate (R := Float) = .ok ()) ∧
        CircuitBreaker.new (CircuitBreaker.new c).config = CircuitBreaker.new c) ∧
    ∀ (κ : Type) (c : Bulkhead.Config),
      (Bulkhead.new c : Bulkhead κ).config.validate (R := Float) = .ok () ∧
        ((Bulkhead.new c : Bulkhead κ).config = c ↔ c.validate (R := Float) = .ok ()) ∧
        (Bulkhead.new (Bulkhead.new c : Bulkhead κ).config : Bulkhead κ) = Bulkhead.new c := by
  refine ⟨fun text c now hload => ?_, fun c => ⟨?_, ?_, ?_⟩, fun κ c => ⟨?_, ?_, ?_⟩⟩
  · have hvalid := (load_eq_ok.mp hload).2
    exact ⟨c.assemble now, build_of_validate hvalid now, runsWith_assemble hvalid now⟩
  · exact CircuitBreaker.Config.validate_clamp c
  · exact CircuitBreaker.Config.clamp_eq_self
  · simp only [CircuitBreaker.new, CircuitBreaker.Config.clamp_clamp]
  · exact Bulkhead.Config.validate_clamp c
  · exact Bulkhead.Config.clamp_eq_self
  · simp only [Bulkhead.new, Bulkhead.Config.clamp_clamp]

theorem configured_runs_at_limits :
    let text := "\x7b\"circuit_breaker\":\x7b\"failure_threshold\":1,\"cooldown\":0\x7d," ++
      "\"bulkhead\":\x7b\"max_concurrent\":2305843009213693951\x7d\x7d"
    let c : Config :=
      { empty with
        bulkhead := some ⟨2305843009213693951, .zero⟩
        circuitBreaker := some ⟨1, 1, .zero, 1⟩ }
    load text = .ok c ∧ ∃ layers, c.build 0 = .ok layers ∧ RunsWith layers c := by
  intro text c
  have hload : load text = .ok c := by decide +kernel
  exact ⟨hload, configured_runs.1 text c 0 hload⟩

end Resilience.Config

end Safeguard
