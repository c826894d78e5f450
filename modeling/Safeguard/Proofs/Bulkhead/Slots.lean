import Mathlib.Data.List.Nodup
import Mathlib.Logic.Function.Iterate
import Safeguard.Bulkhead.Basic

/-!
# Slots are neither lost nor made

Each slot of a bulkhead is held by a call, was handed to a call that waits, or is free. This
file keeps the accounts: how many calls hold a slot and which calls wait, beside the bulkhead,
and what every operation makes of them.

## Main definitions

* `Bulkhead.Accounts`: the bulkhead agrees with the calls that hold slots and those that wait.

## Main results

* `Bulkhead.Accounts.tryEnter`, `Bulkhead.Accounts.enqueue`, `Bulkhead.Accounts.resume`,
  `Bulkhead.Accounts.leave`, `Bulkhead.Accounts.release`: the accounts after each operation.
-/

namespace Safeguard.Bulkhead

variable {κ : Type} {b b' : Bulkhead κ} {k : κ}

/-! ## What operations leave alone -/

@[simp] theorem config_giveBack (b : Bulkhead κ) : b.giveBack.1.config = b.config := by
  unfold giveBack; split <;> rfl

@[simp] theorem active_giveBack (b : Bulkhead κ) : b.giveBack.1.active = b.active := by
  unfold giveBack; split <;> rfl

@[simp] theorem maxActive_giveBack (b : Bulkhead κ) : b.giveBack.1.maxActive = b.maxActive := by
  unfold giveBack; split <;> rfl

@[simp] theorem rejected_giveBack (b : Bulkhead κ) : b.giveBack.1.rejected = b.rejected := by
  unfold giveBack; split <;> rfl

@[simp] theorem config_release (b : Bulkhead κ) : b.release.1.config = b.config := by
  simp [release]

@[simp] theorem active_release (b : Bulkhead κ) : b.release.1.active = b.active - 1 := by
  simp [release]

@[simp] theorem maxActive_release (b : Bulkhead κ) : b.release.1.maxActive = b.maxActive := by
  simp [release]

@[simp] theorem rejected_release (b : Bulkhead κ) : b.release.1.rejected = b.rejected := by
  simp [release]

/-- Giving back any number of slots changes no configuration and no count of the past. -/
theorem iterate_release (b : Bulkhead κ) (n : Nat) :
    ((fun b : Bulkhead κ => b.release.1)^[n] b).config = b.config ∧
      ((fun b : Bulkhead κ => b.release.1)^[n] b).maxActive = b.maxActive ∧
      ((fun b : Bulkhead κ => b.release.1)^[n] b).rejected = b.rejected := by
  induction n generalizing b with
  | zero => exact ⟨rfl, rfl, rfl⟩
  | succ n ih =>
    obtain ⟨hconfig, hmax, hrejected⟩ := ih b.release.1
    rw [Function.iterate_succ_apply]
    exact ⟨hconfig.trans b.config_release, hmax.trans b.maxActive_release,
      hrejected.trans b.rejected_release⟩

theorem tryEnter_eq_some_iff : b.tryEnter = some b' ↔
    0 < b.available ∧ b' = { b with available := b.available - 1 }.occupy := by
  unfold tryEnter
  by_cases h : 0 < b.available <;> simp [h, eq_comm]

theorem tryEnter_eq_none_iff : b.tryEnter = none ↔ b.available = 0 := by
  unfold tryEnter
  by_cases h : 0 < b.available <;> simp [h] <;> omega

section DecidableEq

variable [DecidableEq κ]

@[simp] theorem config_leave (b : Bulkhead κ) (k : κ) : (b.leave k).1.config = b.config := by
  unfold leave; split <;> simp

@[simp] theorem active_leave (b : Bulkhead κ) (k : κ) : (b.leave k).1.active = b.active := by
  unfold leave; split <;> simp

@[simp] theorem maxActive_leave (b : Bulkhead κ) (k : κ) :
    (b.leave k).1.maxActive = b.maxActive := by
  unfold leave; split <;> simp

@[simp] theorem rejected_leave (b : Bulkhead κ) (k : κ) : (b.leave k).1.rejected = b.rejected := by
  unfold leave; split <;> simp

theorem resume_eq_some_iff : b.resume k = some b' ↔
    k ∈ b.handed ∧ b' = { b with handed := b.handed.erase k }.occupy := by
  unfold resume
  by_cases h : k ∈ b.handed <;> simp [h, eq_comm]

end DecidableEq

/-! ## Accounts -/

/-- The bulkhead agrees with the number of calls that hold a slot, the number of slots that
are being given back, and the calls that wait. -/
structure Accounts (b : Bulkhead κ) (held loose : Nat) (waiting : κ → Prop) : Prop where
  slots : held + b.handed.length + b.available + loose = b.capacity
  active : b.active = held
  peak : b.active ≤ b.maxActive
  nodup : (b.queue ++ b.handed).Nodup
  line : ∀ k, k ∈ b.queue ++ b.handed ↔ waiting k
  /-- No slot is free while somebody waits for one. -/
  full : b.queue ≠ [] → b.available = 0

namespace Accounts

variable {held loose : Nat} {waiting waiting' : κ → Prop}

/-- At the start all slots are free. -/
protected theorem new (c : Config) : Accounts (new (κ := κ) c) 0 0 fun _ => False where
  slots := by simp [Bulkhead.new, capacity]
  active := rfl
  peak := Nat.le_refl _
  nodup := .nil
  line _ := ⟨nofun, nofun⟩
  full h := absurd rfl h

theorem congr (h : Accounts b held loose waiting) (hw : ∀ k, waiting k ↔ waiting' k) :
    Accounts b held loose waiting' :=
  ⟨h.slots, h.active, h.peak, h.nodup, fun k => (h.line k).trans (hw k), h.full⟩

theorem reject (h : Accounts b held loose waiting) : Accounts b.reject held loose waiting :=
  ⟨h.slots, h.active, h.peak, h.nodup, h.line, h.full⟩

/-- A free slot is taken. -/
theorem tryEnter (h : Accounts b held 0 waiting) (henter : b.tryEnter = some b') :
    Accounts b' (held + 1) 0 waiting := by
  obtain ⟨hfree, rfl⟩ := tryEnter_eq_some_iff.mp henter
  have hslots := h.slots
  refine ⟨?_, congrArg (· + 1) h.active, Nat.le_max_right .., h.nodup, h.line, ?_⟩
  · show held + 1 + b.handed.length + (b.available - 1) + 0 = b.capacity
    omega
  · intro hqueue
    exact absurd (h.full hqueue) (Nat.pos_iff_ne_zero.mp hfree)

/-- A call joins the queue, which it does when no slot is free. -/
theorem enqueue (h : Accounts b held loose waiting) (henter : b.tryEnter = none)
    (hk : ¬ waiting k) :
    Accounts (b.enqueue k) held loose fun i => i = k ∨ waiting i := by
  have hfull := tryEnter_eq_none_iff.mp henter
  have hnotin : k ∉ b.queue ++ b.handed := fun hin => hk ((h.line k).mp hin)
  have hperm : ((b.queue ++ [k]) ++ b.handed).Perm (k :: (b.queue ++ b.handed)) := by
    rw [List.append_assoc]
    exact List.perm_middle
  refine ⟨h.slots, h.active, h.peak, ?_, fun i => ?_, fun _ => hfull⟩
  · exact hperm.nodup_iff.mpr (List.nodup_cons.mpr ⟨hnotin, h.nodup⟩)
  · rw [← h.line i]
    exact hperm.mem_iff.trans List.mem_cons

/-- A slot that is given back goes to the first in the queue, or is free. -/
theorem giveBack (h : Accounts b held 1 waiting) : Accounts b.giveBack.1 held 0 waiting := by
  have hslots := h.slots
  unfold Bulkhead.giveBack
  split
  · rename_i hqueue
    refine ⟨?_, h.active, h.peak, h.nodup, h.line, fun hne => absurd hqueue hne⟩
    show held + b.handed.length + (b.available + 1) + 0 = b.capacity
    omega
  · rename_i next rest hqueue
    have hperm : (rest ++ (b.handed ++ [next])).Perm (b.queue ++ b.handed) := by
      rw [hqueue, ← List.append_assoc]
      exact List.perm_append_singleton next (rest ++ b.handed)
    refine ⟨?_, h.active, h.peak, hperm.nodup_iff.mpr h.nodup,
      fun i => hperm.mem_iff.trans (h.line i), fun _ => h.full (by simp [hqueue])⟩
    show held + (b.handed ++ [next]).length + b.available + 0 = b.capacity
    rw [List.length_append, List.length_singleton]
    omega

/-- A call gives its slot back. -/
theorem release (h : Accounts b (held + 1) 0 waiting) : Accounts b.release.1 held 0 waiting := by
  have hslots := h.slots
  have hactive := h.active
  have hpeak := h.peak
  refine giveBack ⟨?_, ?_, ?_, h.nodup, h.line, h.full⟩
  · show held + b.handed.length + b.available + 1 = b.capacity
    omega
  · show b.active - 1 = held
    omega
  · show b.active - 1 ≤ b.maxActive
    omega

/-- A call gives all its slots back. -/
theorem iterate_release {n : Nat} (h : Accounts b (held + n) 0 waiting) :
    Accounts ((fun b : Bulkhead κ => b.release.1)^[n] b) held 0 waiting := by
  induction n generalizing b with
  | zero => exact h
  | succ n ih => exact ih h.release

variable [DecidableEq κ]

/-- What is left of the line without a call that a slot was handed to. -/
theorem erase_handed (h : Accounts b held loose waiting) (hk : k ∈ b.handed) :
    (b.queue ++ b.handed.erase k).Nodup ∧
      ∀ i, i ∈ b.queue ++ b.handed.erase k ↔ waiting i ∧ i ≠ k := by
  have hperm : (b.queue ++ b.handed).Perm (k :: (b.queue ++ b.handed.erase k)) :=
    ((List.perm_cons_erase hk).append_left b.queue).trans List.perm_middle
  obtain ⟨hnotin, hnodup⟩ := List.nodup_cons.mp (hperm.nodup_iff.mp h.nodup)
  refine ⟨hnodup, fun i => ?_⟩
  rw [← h.line i, hperm.mem_iff, List.mem_cons]
  constructor
  · intro hi
    exact ⟨.inr hi, fun hik => hnotin (hik ▸ hi)⟩
  · rintro ⟨hi | hi, hne⟩
    · exact absurd hi hne
    · exact hi

/-- A call takes up the slot that was handed to it. -/
theorem resume (h : Accounts b held 0 waiting) (hresume : b.resume k = some b') :
    Accounts b' (held + 1) 0 fun i => waiting i ∧ i ≠ k := by
  obtain ⟨hk, rfl⟩ := resume_eq_some_iff.mp hresume
  obtain ⟨hnodup, hline⟩ := h.erase_handed hk
  have hslots := h.slots
  have hlength := List.length_erase_of_mem hk
  have hpos := List.length_pos_of_mem hk
  refine ⟨?_, congrArg (· + 1) h.active, Nat.le_max_right .., hnodup, hline, h.full⟩
  show held + 1 + (b.handed.erase k).length + b.available + 0 = b.capacity
  omega

/-- A call stops waiting; the slot that may have been handed to it is given back. -/
theorem leave (h : Accounts b held 0 waiting) (k : κ) :
    Accounts (b.leave k).1 held 0 fun i => waiting i ∧ i ≠ k := by
  have hslots := h.slots
  unfold Bulkhead.leave
  split
  · rename_i hk
    obtain ⟨hnodup, hline⟩ := h.erase_handed hk
    have hlength := List.length_erase_of_mem hk
    have hpos := List.length_pos_of_mem hk
    refine giveBack ⟨?_, h.active, h.peak, hnodup, hline, h.full⟩
    show held + (b.handed.erase k).length + b.available + 1 = b.capacity
    omega
  · rename_i hk
    obtain ⟨hqueue, hhanded, hdisjoint⟩ := List.nodup_append.mp h.nodup
    refine ⟨h.slots, h.active, h.peak, ?_, fun i => ?_, ?_⟩
    · exact List.nodup_append.mpr ⟨hqueue.erase k, hhanded,
        fun a ha => hdisjoint a (List.mem_of_mem_erase ha)⟩
    · rw [← h.line i, List.mem_append, List.mem_append, hqueue.mem_erase_iff]
      constructor
      · rintro (⟨hne, hi⟩ | hi)
        · exact ⟨.inl hi, hne⟩
        · exact ⟨.inr hi, fun hik => hk (hik ▸ hi)⟩
      · rintro ⟨hi | hi, hne⟩
        · exact .inl ⟨hne, hi⟩
        · exact .inr hi
    · intro hne
      refine h.full fun hempty => hne ?_
      show b.queue.erase k = []
      rw [hempty, List.erase_nil]

end Accounts

end Safeguard.Bulkhead
