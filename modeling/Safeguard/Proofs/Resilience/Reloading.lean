import Safeguard.Proofs.Resilience.Saving
import Safeguard.Resilience.Layers

/-!
# Loading what was saved

Cutting off durations keeps what is checked about a section: numbers and counts are not touched,
and the two delays of a retry keep their order. The only check that can turn is the one that the
deadline of a timeout is some time away, and it turns exactly for deadlines of less than a
millisecond. A configuration that passes its checks is therefore loaded from the text it is saved
as unless it has such a timeout, and refused for lack of time if it has.

## Main results

* `Resilience.Config.validate_truncated`: the checks of a configuration after it was cut off.
* `Resilience.Config.load_save`: when a configuration that passes its checks can be loaded again.
-/

namespace Safeguard

variable {R : Type}

/-! ## Sections -/

theorem Duration.isZero_truncated (d : Duration) :
    d.truncated.isZero = decide (d < .ofMillis 1) := by
  have hmilli : (Duration.ofMillis 1).nanos = nanosPerMilli := rfl
  have hdiv : d.millis = 0 ↔ d.nanos < nanosPerMilli := Nat.div_eq_zero_iff_lt (by decide)
  rw [isZero, nanos_truncated, Bool.eq_iff_iff, beq_iff_eq, decide_eq_true_eq, lt_def, hmilli,
    ← hdiv]
  have hlargest : 0 < UInt64.size - 1 := by decide
  constructor
  · intro h
    obtain hmillis | hmilli := Nat.mul_eq_zero.mp h
    · omega
    · exact absurd hmilli (by decide)
  · intro h
    rw [h, Nat.zero_min, Nat.zero_mul]

theorem RateLimiter.Config.validate_truncated (c : RateLimiter.Config Float) :
    c.truncated.validate = c.validate := rfl

theorem Bulkhead.Config.validate_truncated (c : Bulkhead.Config) :
    (c.truncated.validate : Except (Invalid R) Unit) = c.validate := rfl

theorem CircuitBreaker.Config.validate_truncated (c : CircuitBreaker.Config) :
    (c.truncated.validate : Except (Invalid R) Unit) = c.validate := rfl

/-- The delays of a retry keep their order. -/
theorem Retry.Config.validate_truncated {c : Retry.Config Float} (h : c.validate = .ok ()) :
    c.truncated.validate = .ok () := by
  unfold validate at h
  split at h
  · cases h
  · rename_i hmultiplier
    split at h
    · cases h
    · rename_i horder
      have hle : c.initialDelay ≤ c.maxDelay := Nat.le_of_not_lt horder
      have horder' : ¬c.truncated.maxDelay < c.truncated.initialDelay :=
        Nat.not_lt.mpr (Duration.truncated_mono hle)
      unfold validate
      rw [if_neg (by exact hmultiplier), if_neg horder']

/-- The deadline of a timeout is lost if it is less than a millisecond away. -/
theorem Timeout.Config.validate_truncated (c : Timeout.Config) :
    (c.truncated.validate : Except (Invalid R) Unit) =
      if c.duration < .ofMillis 1 then .error .noTime else .ok () := by
  simp only [validate, truncated, Duration.isZero_truncated, decide_eq_true_eq]

/-! ## Whole configurations -/

namespace Resilience.Config

variable {c : Config}

theorem checkSection_eq_ok {α : Type} {validate : α → Except (Invalid Float) Unit}
    {o : Option α} : checkSection validate o = .ok () ↔ ∀ a ∈ o, validate a = .ok () := by
  cases o <;> simp [checkSection]

/-- A check that a change of sections keeps still passes after it. -/
theorem checkSection_map {α : Type} {validate : α → Except (Invalid Float) Unit} {f : α → α}
    (hf : ∀ a, validate a = .ok () → validate (f a) = .ok ()) {o : Option α}
    (h : ∀ a ∈ o, validate a = .ok ()) : checkSection validate (o.map f) = .ok () := by
  cases o with
  | none => rfl
  | some a => exact hf a (h a rfl)

theorem bind_eq_ok_unit {ε : Type} {x y : Except ε Unit} :
    (x >>= fun _ => y) = .ok () ↔ x = .ok () ∧ y = .ok () := by
  cases x <;> simp [bind, Except.bind]

/-- A configuration passes its checks if every section that is present does. -/
theorem validate_eq_ok :
    c.validate = .ok () ↔
      (∀ s ∈ c.rateLimiter, s.validate = .ok ()) ∧
        (∀ s ∈ c.bulkhead, s.validate (R := Float) = .ok ()) ∧
        (∀ s ∈ c.circuitBreaker, s.validate (R := Float) = .ok ()) ∧
        (∀ s ∈ c.retry, s.validate = .ok ()) ∧
        ∀ s ∈ c.timeout, s.validate (R := Float) = .ok () := by
  simp only [validate, bind_eq_ok_unit, checkSection_eq_ok]

/-- After a configuration was cut off, only the check of its timeout can fail. -/
theorem validate_truncated (h : c.validate = .ok ()) :
    c.truncated.validate =
      checkSection Timeout.Config.validate (c.timeout.map (·.truncated)) := by
  obtain ⟨hlimiter, hbulkhead, hbreaker, hretry, -⟩ := validate_eq_ok.mp h
  have hlimiter' := checkSection_map (fun s hs => s.validate_truncated.trans hs) hlimiter
  have hbulkhead' := checkSection_map (fun s hs => s.validate_truncated.trans hs) hbulkhead
  have hbreaker' := checkSection_map (fun s hs => s.validate_truncated.trans hs) hbreaker
  have hretry' := checkSection_map (fun _ hs => Retry.Config.validate_truncated hs) hretry
  simp only [validate, truncated, hlimiter', hbulkhead', hbreaker', hretry', bind, Except.bind]

/-- A configuration that passes its checks can be loaded from the text it is saved as exactly if
its timeout, should it have one, is at least a millisecond. What is loaded is then the
configuration cut off, and layers can be built for it; otherwise the text is refused because the
timeout leaves no time. -/
theorem load_save (hvalid : c.validate = .ok ()) (hnumbers : c.NumbersReadBack) :
    ((∃ c', load c.save = .ok c') ↔ ∀ t ∈ c.timeout, Duration.ofMillis 1 ≤ t.duration) ∧
      (∀ c', load c.save = .ok c' →
        c' = c.truncated ∧ c'.validate = .ok () ∧ ∀ now, ∃ layers, c'.build now = .ok layers) ∧
      ((∃ t ∈ c.timeout, t.duration < Duration.ofMillis 1) →
        load c.save = .error (.invalid .noTime)) := by
  have hparse := parse_save hnumbers
  have hcheck := validate_truncated hvalid
  have hload : (∃ c', load c.save = .ok c') ↔ c.truncated.validate = .ok () := by
    simp only [load_eq_ok, hparse, Except.ok.injEq]
    exact ⟨fun ⟨c', hc, h⟩ => hc ▸ h, fun h => ⟨c.truncated, rfl, h⟩⟩
  refine ⟨?_, fun c' hc' => ?_, fun ⟨t, ht, hshort⟩ => ?_⟩
  -- Only the check of the timeout can have turned.
  · rw [hload, hcheck]
    cases c.timeout with
    | none => simp [checkSection]
    | some t =>
      rw [Option.map_some, checkSection, Timeout.Config.validate_truncated]
      simp only [Option.mem_some_iff, forall_eq']
      split
      · next hshort => exact iff_of_false nofun (Nat.not_le.mpr hshort)
      · next hlong => exact iff_of_true rfl (Nat.not_lt.mp hlong)
  · obtain ⟨hparse', hvalid'⟩ := load_eq_ok.mp hc'
    rw [hparse] at hparse'
    cases hparse'
    exact ⟨rfl, hvalid', fun now => ⟨_, by rw [build, hvalid']; rfl⟩⟩
  · have hrefused : c.truncated.validate = .error .noTime := by
      rw [hcheck, Option.mem_def.mp ht, Option.map_some, checkSection,
        Timeout.Config.validate_truncated, if_pos hshort]
    simp [load, hparse, hrefused]

theorem load_save_off_grid :
    let c : Config :=
      { rateLimiter := some ⟨0.3, 1, false, ⟨999999, by decide⟩⟩
        bulkhead := none
        circuitBreaker := some ⟨1, 1, .longest, 1⟩
        retry := some ⟨0, ⟨2000001, by decide⟩, ⟨2000001, by decide⟩, 1.25, .constant, true⟩
        timeout := some ⟨⟨1999999, by decide⟩⟩ }
    c.validate = .ok () ∧ c.NumbersReadBack ∧ load c.save = .ok c.truncated ∧
      c.truncated ≠ c := by
  intro c
  have hvalid : c.validate = .ok () := by decide +kernel
  have hnumbers : c.NumbersReadBack :=
    ⟨fun r hr => by cases hr; decide +kernel, fun r hr => by cases hr; decide +kernel⟩
  have hlong : ∀ t ∈ c.timeout, Duration.ofMillis 1 ≤ t.duration := by decide
  obtain ⟨c', hc'⟩ := (load_save hvalid hnumbers).1.mpr hlong
  have htruncated : c' = c.truncated := ((load_save hvalid hnumbers).2.1 c' hc').1
  exact ⟨hvalid, hnumbers, hc'.trans (congrArg _ htruncated), by decide +kernel⟩

/-- A timeout of a nanosecond passes its check, is saved as no time at all, and is refused when it
is loaded. -/
theorem load_save_nanosecond :
    let c : Config := { empty with timeout := some ⟨⟨1, by decide⟩⟩ }
    c.validate = .ok () ∧ c.NumbersReadBack ∧ load c.save = .error (.invalid .noTime) := by
  intro c
  have hnumbers : c.NumbersReadBack := ⟨nofun, nofun⟩
  exact ⟨by decide +kernel, hnumbers, by decide +kernel⟩

end Resilience.Config

end Safeguard
