import Safeguard.Proofs.Json.Records
import Safeguard.Resilience.Config

/-!
# Saved configurations

A configuration is saved as a text with all members of the sections it has, and without the
sections it lacks. What comes back is the configuration with every duration cut off to whole
milliseconds of 64 bits, provided that the two numbers in it come back; how floating-point
numbers are read is not a matter of configurations. A text that was read holds only durations
that lose nothing, so saving a configuration that was loaded and loading it again changes
nothing.

## Main definitions

* `Json.ReadsBack`: a floating-point number comes back.
* `Resilience.Config.truncated`: a configuration with every duration cut off.
* `Resilience.Config.NumbersReadBack`: the numbers of a configuration come back.

## Main results

* `Resilience.Config.codec_normalizes`: the codec of configurations has these normal forms.
* `Resilience.Config.save_normal_form`: what comes back of a saved configuration, whose text the
  normal form has, and that a configuration that was loaded comes back as it is.
-/

namespace Safeguard

open Json

/-! ## Numbers -/

/-- The text of a floating-point number is read as that number. -/
def Json.ReadsBack (x : Float) : Prop := Codec.real.parse (Codec.real.indented x) = .ok x

instance (x : Float) : Decidable (ReadsBack x) :=
  inferInstanceAs (Decidable (Codec.real.parse (Codec.real.indented x) = .ok x))

theorem Json.Codec.real_normalizes : Codec.real.Normalizes ReadsBack id :=
  normalizes_id fun _ hx => returns_iff_parse.mpr hx

/-! ## Sections

In each section only the durations change, and the numbers have to come back. -/

section Sections

open Codec Field

/-- The section with its duration cut off. -/
def RateLimiter.Config.truncated (c : RateLimiter.Config Float) : RateLimiter.Config Float :=
  { c with maxWait := c.maxWait.truncated }

theorem RateLimiter.Config.codec_normalizes :
    codec.Normalizes (fun c => ReadsBack c.rate) truncated :=
  Schema.normalizes (s := schema) rfl (by decide)
    (.cons (of_normalizes real_normalizes fun _ h => h) <|
      .cons (of_normalizes word32_normalizes) <|
      .cons (of_normalizes bool_normalizes) <|
      .cons (of_normalizes millis_normalizes) .nil)
    rfl fun _ => rfl

/-- The section with its duration cut off. -/
def Bulkhead.Config.truncated (c : Bulkhead.Config) : Bulkhead.Config :=
  { c with maxWait := c.maxWait.truncated }

theorem Bulkhead.Config.codec_normalizes : codec.Normalizes (fun _ => True) truncated :=
  Schema.normalizes (s := schema) rfl (by decide)
    (.cons (of_normalizes word64_normalizes) <| .cons (of_normalizes millis_normalizes) .nil)
    rfl fun _ => rfl

/-- The section with its duration cut off. -/
def CircuitBreaker.Config.truncated (c : CircuitBreaker.Config) : CircuitBreaker.Config :=
  { c with cooldown := c.cooldown.truncated }

theorem CircuitBreaker.Config.codec_normalizes : codec.Normalizes (fun _ => True) truncated :=
  Schema.normalizes (s := schema) rfl (by decide)
    (.cons (of_normalizes word32_normalizes) <|
      .cons (of_normalizes word32_normalizes) <|
      .cons (of_normalizes millis_normalizes) <|
      .cons (of_normalizes word32_normalizes) .nil)
    rfl fun _ => rfl

/-- The section with both durations cut off. -/
def Retry.Config.truncated (c : Retry.Config Float) : Retry.Config Float :=
  { c with initialDelay := c.initialDelay.truncated, maxDelay := c.maxDelay.truncated }

theorem Retry.Config.codec_normalizes :
    codec.Normalizes (fun c => ReadsBack c.multiplier) truncated :=
  Schema.normalizes (s := schema) rfl (by decide)
    (.cons (of_normalizes word32_normalizes) <|
      .cons (of_normalizes millis_normalizes) <|
      .cons (of_normalizes millis_normalizes) <|
      .cons (of_normalizes real_normalizes fun _ h => h) <|
      .cons (of_normalizes (choice_normalizes Retry.Backoff.ofName?_name)) <|
      .cons (of_normalizes bool_normalizes) .nil)
    rfl fun _ => rfl

/-- The section with its duration cut off. -/
def Timeout.Config.truncated (c : Timeout.Config) : Timeout.Config := ⟨c.duration.truncated⟩

theorem Timeout.Config.codec_normalizes : codec.Normalizes (fun _ => True) truncated :=
  Schema.normalizes (s := schema) rfl (by decide) (.cons (of_normalizes millis_normalizes) .nil)
    rfl fun _ => rfl

end Sections

/-! ## Whole configurations -/

namespace Resilience.Config

/-- The configuration with every duration cut off. -/
def truncated (c : Config) : Config where
  rateLimiter := c.rateLimiter.map (·.truncated)
  bulkhead := c.bulkhead.map (·.truncated)
  circuitBreaker := c.circuitBreaker.map (·.truncated)
  retry := c.retry.map (·.truncated)
  timeout := c.timeout.map (·.truncated)

/-- The numbers of a configuration come back. -/
structure NumbersReadBack (c : Config) : Prop where
  rate : ∀ r ∈ c.rateLimiter, ReadsBack r.rate
  multiplier : ∀ r ∈ c.retry, ReadsBack r.multiplier

theorem codec_normalizes : codec.Normalizes NumbersReadBack truncated :=
  Schema.normalizes (s := schema) rfl (by decide)
    (.cons (Field.optional_normalizes RateLimiter.Config.codec_normalizes
        Schema.toDoc_write_ne_null fun _ h => h.rate) <|
      .cons (Field.optional_normalizes Bulkhead.Config.codec_normalizes
        Schema.toDoc_write_ne_null) <|
      .cons (Field.optional_normalizes CircuitBreaker.Config.codec_normalizes
        Schema.toDoc_write_ne_null) <|
      .cons (Field.optional_normalizes Retry.Config.codec_normalizes
        Schema.toDoc_write_ne_null fun _ h => h.multiplier) <|
      .cons (Field.optional_normalizes Timeout.Config.codec_normalizes
        Schema.toDoc_write_ne_null) .nil)
    rfl fun r => by
      obtain ⟨_ | _, _ | _, _ | _, _ | _, _ | _⟩ := r <;> rfl

/-- A configuration whose numbers come back is read from its text in normal form. -/
theorem parse_save {c : Config} (h : c.NumbersReadBack) : codec.parse c.save = .ok c.truncated :=
  Codec.returns_iff_parse.mp (codec_normalizes.returns c h)

/-- The normal form is saved like the configuration itself. -/
theorem save_truncated (c : Config) : c.truncated.save = c.save := by
  simp only [save, Codec.indented, codec_normalizes.write_norm]

theorem load_eq_ok {text : String} {c : Config} :
    load text = .ok c ↔ codec.parse text = .ok c ∧ c.validate = .ok () := by
  unfold load
  cases codec.parse text with
  | error f => simp
  | ok c' =>
    cases hvalid : c'.validate with
    | error cause =>
      constructor
      · intro h
        simp [hvalid] at h
      · rintro ⟨hc, hok⟩
        cases hc
        simp [hvalid] at hok
    | ok u =>
      constructor
      · intro h
        simp only [hvalid, Except.ok.injEq] at h
        subst h
        exact ⟨rfl, hvalid⟩
      · rintro ⟨hc, -⟩
        cases hc
        simp [hvalid]

/-- A configuration that was loaded is in normal form. -/
theorem truncated_of_load {text : String} {c : Config} (h : load text = .ok c) :
    c.truncated = c := by
  obtain ⟨d, hd⟩ := Codec.exists_read_of_parse (load_eq_ok.mp h).1
  exact codec_normalizes.norm_of_read d c hd

/-- What comes back of a saved configuration whose numbers come back is its normal form: no
section appears or disappears and nothing but durations changes. The normal form has the same
text, and a configuration that was loaded comes back as it is. -/
theorem save_normal_form :
    (∀ c : Config, c.NumbersReadBack → codec.parse c.save = .ok c.truncated) ∧
      (∀ c : Config, c.truncated.save = c.save) ∧
      ∀ (text : String) (c : Config), load text = .ok c → c.NumbersReadBack →
        load c.save = .ok c := by
  refine ⟨fun c hc => parse_save hc, save_truncated, fun text c hload hc => ?_⟩
  have hparse := parse_save hc
  rw [truncated_of_load hload] at hparse
  exact load_eq_ok.mpr ⟨hparse, (load_eq_ok.mp hload).2⟩

theorem save_normal_form_off_grid :
    let c : Config :=
      { rateLimiter := some ⟨0.1, 3, true, ⟨1999999, by decide⟩⟩
        bulkhead := some ⟨5, .longest⟩
        circuitBreaker := some ⟨4294967295, 1, ⟨nanosPerMilli, by decide⟩, 2⟩
        retry := some ⟨4, ⟨1, by decide⟩, .longest, 1.5, .linear, false⟩
        timeout := some ⟨⟨1000001, by decide⟩⟩ }
    c.NumbersReadBack ∧ codec.parse c.save = .ok c.truncated ∧ c.truncated ≠ c ∧
      load c.save = .ok c.truncated ∧ load c.truncated.save = .ok c.truncated := by
  intro c
  have hc : c.NumbersReadBack :=
    ⟨fun r hr => by cases hr; decide +kernel, fun r hr => by cases hr; decide +kernel⟩
  have hload : load c.save = .ok c.truncated :=
    load_eq_ok.mpr ⟨save_normal_form.1 c hc, by decide +kernel⟩
  have ht : c.truncated.NumbersReadBack :=
    ⟨fun r hr => by cases hr; decide +kernel, fun r hr => by cases hr; decide +kernel⟩
  exact ⟨hc, save_normal_form.1 c hc, by decide +kernel, hload,
    save_normal_form.2.2 c.save c.truncated hload ht⟩

end Resilience.Config

end Safeguard
