import Mathlib.Algebra.GroupWithZero.Nat
import Mathlib.Order.Bounds.Basic
import Safeguard.Proofs.Bulkhead.Slots
import Safeguard.Proofs.Traffic.Passages

/-!
# The bulkhead in running traffic

Calls hold slots in their frames, and wait for them. In every course the bulkhead agrees with
the calls, whatever the schedule: no slot is lost or made when calls wait too long, are
cancelled or dropped while they wait, or panic inside, and the counters say what happened.

## Main definitions

* `Traffic.slots`, `Traffic.AwaitsSlot`: what calls have to do with the bulkhead.

## Main results

* `Bulkhead.slots_conserved`: slots, counters and waiting calls in every course.
-/

namespace Safeguard

variable {α : Type}

namespace Traffic

/-- The number of slots that calls hold. -/
def slots (tr : Traffic α) : Nat := (tr.calls.map Call.slots).sum

/-- A call waits for a slot. -/
def AwaitsSlot (tr : Traffic α) (id : Nat) : Prop :=
  ∃ c, tr.calls[id]? = some c ∧ c.activity.awaitsSlot = true

variable {tr tr' : Traffic α} {id : Nat} {c c' : Call α} {b b' : Bulkhead Nat}

theorem slots_set (hc : tr.calls[id]? = some c) (hcalls : tr'.calls = tr.calls.set id c') :
    tr'.slots + c.slots = tr.slots + c'.slots := by
  obtain ⟨hlt, rfl⟩ := List.getElem?_eq_some_iff.mp hc
  have hbefore := ((List.getElem_cons_eraseIdx_perm hlt).map Call.slots).sum_nat
  have hafter := ((List.set_perm_cons_eraseIdx hlt c').map Call.slots).sum_nat
  simp only [List.map_cons, List.sum_cons] at hbefore hafter
  simp only [slots, hcalls]
  omega

theorem slots_set_of_eq (hc : tr.calls[id]? = some c) (hcalls : tr'.calls = tr.calls.set id c')
    (h : c'.slots = c.slots) : tr'.slots = tr.slots := by
  have hset := slots_set hc hcalls
  omega

theorem slots_set_of_gain (hc : tr.calls[id]? = some c) (hcalls : tr'.calls = tr.calls.set id c')
    (h : c'.slots = c.slots + 1) : tr'.slots = tr.slots + 1 := by
  have hset := slots_set hc hcalls
  omega

theorem slots_set_of_loss (hc : tr.calls[id]? = some c) (hcalls : tr'.calls = tr.calls.set id c')
    (h : c.slots = c'.slots + 1) : tr.slots = tr'.slots + 1 := by
  have hset := slots_set hc hcalls
  omega

theorem awaitsSlot_set (hc : tr.calls[id]? = some c) (hcalls : tr'.calls = tr.calls.set id c')
    (i : Nat) : tr'.AwaitsSlot i ↔
      i = id ∧ c'.activity.awaitsSlot = true ∨ i ≠ id ∧ tr.AwaitsSlot i := by
  have hlt := (List.getElem?_eq_some_iff.mp hc).1
  unfold AwaitsSlot
  by_cases hi : i = id
  · subst hi
    simp [hcalls, List.getElem?_set_self hlt]
  · simp [hcalls, List.getElem?_set_ne (Ne.symm hi), hi]

theorem awaitsSlot_iff (hc : tr.calls[id]? = some c) :
    tr.AwaitsSlot id ↔ c.activity.awaitsSlot = true := by
  simp [AwaitsSlot, hc]

/-- A call that has nothing to do with the bulkhead now. -/
theorem accounts_of_same (h : b.Accounts tr.slots 0 tr.AwaitsSlot) (hc : tr.calls[id]? = some c)
    (hcalls : tr'.calls = tr.calls.set id c') (hslots : c'.slots = c.slots)
    (hwait : c'.activity.awaitsSlot = c.activity.awaitsSlot) :
    b.Accounts tr'.slots 0 tr'.AwaitsSlot := by
  rw [slots_set_of_eq hc hcalls hslots]
  refine h.congr fun i => ?_
  rw [awaitsSlot_set hc hcalls, hwait, ← awaitsSlot_iff hc]
  by_cases hi : i = id
  · simp [hi]
  · simp [hi]

/-- A call that does not wait any more. -/
theorem awaitsSlot_set_of_not (hc : tr.calls[id]? = some c)
    (hcalls : tr'.calls = tr.calls.set id c') (hwait : c'.activity.awaitsSlot = false) (i : Nat) :
    tr'.AwaitsSlot i ↔ tr.AwaitsSlot i ∧ i ≠ id := by
  rw [awaitsSlot_set hc hcalls, hwait]
  simp [and_comm]

/-- A call that neither waited nor waits. -/
theorem awaitsSlot_set_of_neither (hc : tr.calls[id]? = some c)
    (hcalls : tr'.calls = tr.calls.set id c') (hwaited : c.activity.awaitsSlot = false)
    (hwait : c'.activity.awaitsSlot = false) (i : Nat) : tr'.AwaitsSlot i ↔ tr.AwaitsSlot i := by
  rw [awaitsSlot_set_of_not hc hcalls hwait]
  refine and_iff_left_of_imp fun hi hid => ?_
  rw [hid, awaitsSlot_iff hc, hwaited] at hi
  cases hi

end Traffic

open Traffic (slots_set slots_set_of_eq slots_set_of_gain slots_set_of_loss awaitsSlot_set
  awaitsSlot_set_of_not awaitsSlot_set_of_neither accounts_of_same Stepped)

/-! ## Steps -/

/-- What happens to counters while something happens to a bulkhead, a number of calls being
turned away. -/
structure Bulkhead.Counts (b : Bulkhead Nat) (turned : Nat) (b' : Bulkhead Nat) : Prop where
  config : b'.config = b.config
  maxActive : b'.maxActive = max b.maxActive b'.active
  rejected : b'.rejected = b.rejected + turned

variable {tr tr' : Traffic α} {id : Nat} {c c' : Call α} {b b' : Bulkhead Nat}

/-- The call waits at the bulkhead, or it does not wait for a slot. -/
theorem Activity.awaitsSlot_of_ahead {a : Activity α} {st : Stage} {inner : List Stage}
    (h : a.ahead = st :: inner) : st.owner = .bulkhead ∨ a.awaitsSlot = false := by
  cases a with
  | awaitingSlot due rest =>
    obtain ⟨rfl, -⟩ := List.cons_eq_cons.mp h
    exact .inl rfl
  | _ => exact .inr rfl

/-- A step that asks the bulkhead keeps the accounts. -/
theorem BulkheadRule.accounts (h : BulkheadRule tr id c b b' c') (hc : tr.calls[id]? = some c)
    (hcalls : tr'.calls = tr.calls.set id c') (hb : b.Accounts tr.slots 0 tr.AwaitsSlot) :
    b'.Accounts tr'.slots 0 tr'.AwaitsSlot := by
  cases h with
  | entered entering _ enter =>
    rw [slots_set_of_gain hc hcalls (List.countP_cons_of_pos rfl)]
    exact (hb.tryEnter enter).congr fun i =>
      (awaitsSlot_set_of_neither hc hcalls (by rw [entering]; rfl) rfl i).symm
  | full entering => exact accounts_of_same hb.reject hc hcalls rfl (by rw [entering]; rfl)
  | shunned entering => exact accounts_of_same hb hc hcalls rfl (by rw [entering]; rfl)
  | queued entering _ enter =>
    have hwaited : ¬ tr.AwaitsSlot id := by
      rw [Traffic.awaitsSlot_iff hc, entering]
      exact Bool.false_ne_true
    rw [slots_set_of_eq hc hcalls rfl]
    refine (hb.enqueue enter hwaited).congr fun i => ?_
    rw [awaitsSlot_set hc hcalls]
    by_cases hi : i = id <;> simp [hi, Activity.awaitsSlot]
  | resumed _ resume =>
    rw [slots_set_of_gain hc hcalls (List.countP_cons_of_pos rfl)]
    exact (hb.resume resume).congr fun i => (awaitsSlot_set_of_not hc hcalls rfl i).symm
  | expired =>
    rw [slots_set_of_eq hc hcalls rfl]
    exact (hb.leave id).reject.congr fun i => (awaitsSlot_set_of_not hc hcalls rfl i).symm
  | quit =>
    rw [slots_set_of_eq hc hcalls rfl]
    exact (hb.leave id).congr fun i => (awaitsSlot_set_of_not hc hcalls rfl i).symm
  | @released outcome outside leaving frames =>
    have hloss : c.slots = outside.countP Frame.isSlot + 1 := by
      rw [Call.slots, frames]
      exact List.countP_cons_of_pos rfl
    rw [slots_set_of_loss hc hcalls hloss] at hb
    exact hb.release.congr fun i =>
      (awaitsSlot_set_of_neither hc hcalls (by rw [leaving]; rfl) rfl i).symm

/-- A step that asks the bulkhead counts a call that it turns away, and nothing else. -/
theorem BulkheadRule.counts (h : BulkheadRule tr id c b b' c') (hpeak : b.active ≤ b.maxActive) :
    b.Counts ((c.passage? id c'.activity).toList.countP
      (Passage.is .bulkhead (.refused .bulkheadFull))) b' := by
  have hsame : b.maxActive = max b.maxActive b.active := (Nat.max_eq_left hpeak).symm
  have hless : b.maxActive = max b.maxActive (b.active - 1) := by omega
  have hcount : ∀ {st inner}, c.activity.ahead = st :: inner → st.owner = .bulkhead →
      (c.passage? id c'.activity).toList.countP (Passage.is .bulkhead (.refused .bulkheadFull)) =
        if c'.activity.fate = .refused .bulkheadFull then 1 else 0 :=
    fun hahead howner => Call.countP_passage?_is hahead howner id _ _
  cases h with
  | entered entering owner enter =>
    obtain ⟨-, rfl⟩ := Bulkhead.tryEnter_eq_some_iff.mp enter
    rw [hcount (by rw [entering]; rfl) owner]
    exact ⟨rfl, rfl, rfl⟩
  | full entering owner =>
    rw [hcount (by rw [entering]; rfl) owner]
    exact ⟨rfl, hsame, rfl⟩
  | shunned entering owner =>
    rw [hcount (by rw [entering]; rfl) owner]
    exact ⟨rfl, hsame, rfl⟩
  | queued entering owner =>
    rw [hcount (by rw [entering]; rfl) owner]
    exact ⟨rfl, hsame, rfl⟩
  | resumed waiting resume =>
    obtain ⟨-, rfl⟩ := Bulkhead.resume_eq_some_iff.mp resume
    rw [hcount (by rw [waiting]; rfl) rfl]
    exact ⟨rfl, rfl, rfl⟩
  | expired waiting =>
    rw [hcount (by rw [waiting]; rfl) rfl]
    exact ⟨b.config_leave id, by simpa [Bulkhead.reject] using hsame,
      congrArg (· + 1) (b.rejected_leave id)⟩
  | quit waiting =>
    rw [hcount (by rw [waiting]; rfl) rfl]
    exact ⟨b.config_leave id, by simpa using hsame, b.rejected_leave id⟩
  | released leaving =>
    rw [Call.passage?_of_nil (by rw [leaving]; rfl)]
    exact ⟨b.config_release, by simpa using hless, b.rejected_release⟩

/-- A call has the same to do with the bulkhead as before, and was not turned away there. -/
structure Call.Apart (c : Call α) (id : Nat) (c' : Call α) : Prop where
  slots : c'.slots = c.slots
  waits : c'.activity.awaitsSlot = c.activity.awaitsSlot
  turned : (c.passage? id c'.activity).toList.countP
    (Passage.is .bulkhead (.refused .bulkheadFull)) = 0

/-- A call at a stage, where it is not turned away for lack of a slot. -/
theorem Call.apart_of_ahead {st : Stage} {inner : List Stage}
    (hahead : c.activity.ahead = st :: inner) (hslots : c'.slots = c.slots)
    (hwaits : c'.activity.awaitsSlot = c.activity.awaitsSlot)
    (hfate : st.owner ≠ .bulkhead ∨ c'.activity.fate ≠ .refused .bulkheadFull) :
    c.Apart id c' := by
  refine ⟨hslots, hwaits, ?_⟩
  rw [Call.passage?_of_ahead hahead, Option.toList_some, List.countP_singleton]
  simp only [Passage.is, Bool.decide_and, Bool.and_eq_true, decide_eq_true_eq,
    ite_eq_right_iff, Nat.one_ne_zero, imp_false, not_and_or]
  exact hfate

/-- A call at no stage. -/
theorem Call.apart_of_nil (hahead : c.activity.ahead = []) (hslots : c'.slots = c.slots)
    (hwaits : c'.activity.awaitsSlot = c.activity.awaitsSlot) : c.Apart id c' := by
  refine ⟨hslots, hwaits, ?_⟩
  rw [Call.passage?_of_nil hahead]
  rfl

theorem LimiterRule.apart {l l' : RateLimiter Float} (h : LimiterRule tr c l l' c') :
    c.Apart id c' := by
  obtain ⟨st, inner, hahead, howner⟩ := h.exists_ahead
  have hne : st.owner ≠ .bulkhead := by simp [howner]
  have hwaited := (Activity.awaitsSlot_of_ahead hahead).resolve_left hne
  refine Call.apart_of_ahead hahead ?_ ?_ (.inl hne)
  · cases h <;> rfl
  · rw [hwaited]
    cases h <;> rfl

theorem BreakerRule.apart {b b' : CircuitBreaker} (h : BreakerRule tr c b b' c') :
    c.Apart id c' := by
  have hcountP : ∀ {p outside}, c.frames = .permit p :: outside →
      outside.countP Frame.isSlot = c.slots := by
    intro p outside hframes
    rw [Call.slots, hframes, List.countP_cons_of_neg Bool.false_ne_true]
  have hentering : ∀ {st inner}, c.activity = .entering (st :: inner) →
      c.activity.ahead = st :: inner ∧ false = c.activity.awaitsSlot := by
    intro st inner hc
    rw [hc]
    exact ⟨rfl, rfl⟩
  have hleaving : ∀ {outcome}, c.activity = .leaving outcome →
      c.activity.ahead = [] ∧ false = c.activity.awaitsSlot := by
    intro outcome hc
    rw [hc]
    exact ⟨rfl, rfl⟩
  cases h with
  | admitted entering owner =>
    obtain ⟨hahead, hwaits⟩ := hentering entering
    exact Call.apart_of_ahead hahead (List.countP_cons_of_neg Bool.false_ne_true) hwaits
      (.inl (by simp [owner]))
  | rejected entering owner =>
    obtain ⟨hahead, hwaits⟩ := hentering entering
    exact Call.apart_of_ahead hahead rfl hwaits (.inl (by simp [owner]))
  | spoiled entering owner =>
    obtain ⟨hahead, hwaits⟩ := hentering entering
    exact Call.apart_of_ahead hahead rfl hwaits (.inl (by simp [owner]))
  | settled leaving frames =>
    obtain ⟨hahead, hwaits⟩ := hleaving leaving
    exact Call.apart_of_nil hahead (hcountP frames) hwaits
  | spent leaving frames =>
    obtain ⟨hahead, hwaits⟩ := hleaving leaving
    exact Call.apart_of_nil hahead (hcountP frames) hwaits

theorem InnerRule.apart {runs : List (Run α)} (h : InnerRule tr id c runs c')
    (hb : tr.layers.bulkhead = some b) : c.Apart id c' := by
  -- A frame that is no slot may come and go.
  have hframe : ∀ {frame outside}, c.frames = frame :: outside → frame.isSlot = false →
      outside.countP Frame.isSlot = c.slots := by
    intro frame outside hframes hframe
    rw [Call.slots, hframes, List.countP_cons_of_neg (by simp [hframe])]
  cases h with
  | @skipped st inner ahead idle =>
    have hne : st.owner ≠ .bulkhead := by
      intro howner
      rcases idle with hidle | ⟨htimeout, -⟩
      · simp [howner, Resilience.Layers.has, hb] at hidle
      · rw [howner] at htimeout
        cases htimeout
    exact Call.apart_of_ahead ahead rfl ((Activity.awaitsSlot_of_ahead ahead).resolve_left hne).symm
      (.inl hne)
  | @quit st inner ahead _ absent =>
    have hne : st.owner ≠ .bulkhead := fun howner => by
      rw [absent howner] at hb
      cases hb
    exact Call.apart_of_ahead ahead rfl ((Activity.awaitsSlot_of_ahead ahead).resolve_left hne).symm
      (.inl hne)
  | exhausted entering =>
    exact Call.apart_of_ahead (by rw [entering]; rfl) rfl (by rw [entering]; rfl) (.inl (by decide))
  | attempted entering =>
    exact Call.apart_of_ahead (by rw [entering]; rfl) (List.countP_cons_of_neg Bool.false_ne_true)
      (by rw [entering]; rfl) (.inl (by decide))
  | raced entering =>
    exact Call.apart_of_ahead (by rw [entering]; rfl) rfl (by rw [entering]; rfl) (.inl (by decide))
  | attemptLeft leaving frames =>
    exact Call.apart_of_nil (by rw [leaving]; rfl) (hframe frames rfl) (by rw [leaving]; rfl)
  | repeated pausing frames =>
    refine Call.apart_of_nil (by rw [pausing]; rfl) ?_ (by rw [pausing]; rfl)
    rw [Call.slots, List.countP_cons_of_neg Bool.false_ne_true]
    exact hframe frames rfl
  | interrupted pausing frames =>
    exact Call.apart_of_nil (by rw [pausing]; rfl) (hframe frames rfl) (by rw [pausing]; rfl)
  | unowned leaving frames absent =>
    refine Call.apart_of_nil (by rw [leaving]; rfl) ?_ (by rw [leaving]; rfl)
    rcases absent with ⟨-, hnone⟩ | ⟨⟨p, rfl⟩, -⟩
    · rw [hnone] at hb
      cases hb
    · exact hframe frames rfl
  | _ =>
    -- The call is at no stage, and keeps its frames.
    refine Call.apart_of_nil ?_ rfl ?_
    · simp_all only [Activity.ahead]
    · simp_all only [Activity.awaitsSlot]

/-! ## Moves -/

/-- The bulkhead agrees with the calls, and calls that have ended are inside no layer. -/
structure Traffic.Agrees (tr : Traffic α) (b : Bulkhead Nat) : Prop where
  present : tr.layers.bulkhead = some b
  accounts : b.Accounts tr.slots 0 tr.AwaitsSlot
  ended : ∀ c ∈ tr.calls, c.activity = .ended → c.frames = []

namespace Traffic

/-- Nothing happened that concerns the bulkhead. -/
theorem Agrees.counts (h : tr.Agrees b) : b.Counts 0 b :=
  ⟨rfl, (Nat.max_eq_left h.accounts.peak).symm, rfl⟩

/-- A call goes on, and holds nothing if it has ended. -/
theorem Agrees.ended_set (h : tr.Agrees b) (hcalls : tr'.calls = tr.calls.set id c')
    (hended : c'.activity = .ended → c'.frames = []) :
    ∀ c ∈ tr'.calls, c.activity = .ended → c.frames = [] := by
  intro c hc
  rw [hcalls] at hc
  obtain hc | rfl := List.mem_or_eq_of_mem_set hc
  · exact h.ended c hc
  · exact hended

/-- A step of a call keeps the bulkhead in agreement with the calls. -/
theorem Agrees.stepped (h : tr.Agrees b) (hc : tr.calls[id]? = some c)
    (hstep : Stepped tr id c tr' c') :
    ∃ b', tr'.Agrees b' ∧ b.Counts ((c.passage? id c'.activity).toList.countP
      (Passage.is .bulkhead (.refused .bulkheadFull))) b' := by
  have hended := h.ended_set hstep.calls hstep.rule.frames_of_ended
  have hapart : tr'.layers.bulkhead = tr.layers.bulkhead → c.Apart id c' →
      ∃ b', tr'.Agrees b' ∧ b.Counts ((c.passage? id c'.activity).toList.countP
        (Passage.is .bulkhead (.refused .bulkheadFull))) b' := by
    intro hlayers hapart
    refine ⟨b, ⟨hlayers.trans h.present, ?_, hended⟩, ?_⟩
    · exact accounts_of_same h.accounts hc hstep.calls hapart.slots hapart.waits
    · rw [hapart.turned]
      exact h.counts
  have hrule := hstep.rule
  generalize hlayers : tr'.layers = layers at hrule
  generalize tr'.runs = runs at hrule
  cases hrule with
  | limiter _ rule => exact hapart (by rw [hlayers]) rule.apart
  | breaker _ rule => exact hapart (by rw [hlayers]) rule.apart
  | inner rule => exact hapart (by rw [hlayers]) (rule.apart h.present)
  | @bulkhead b₀ b' _ present rule =>
    obtain rfl : b = b₀ := Option.some.inj (h.present.symm.trans present)
    exact ⟨b', ⟨by rw [hlayers], rule.accounts hc hstep.calls h.accounts, hended⟩,
      rule.counts h.accounts.peak⟩

/-- So does the end of a call that its caller drops. -/
theorem Agrees.dropped (h : tr.Agrees b) (hc : tr.calls[id]? = some c)
    (hdrop : Dropped tr id c tr') : ∃ b', tr'.Agrees b' ∧ b.Counts 0 b' := by
  have hgone : b.vacated id c = (fun b : Bulkhead Nat => b.release.1)^[c.slots]
      (if c.activity.awaitsSlot then (b.leave id).1 else b) := rfl
  generalize hleft : (if c.activity.awaitsSlot then (b.leave id).1 else b) = left at hgone
  -- The call leaves the queue first, if it waits there.
  have hkept : left.config = b.config ∧ left.maxActive = b.maxActive ∧
      left.rejected = b.rejected := by
    rw [← hleft]
    split <;> simp
  have haccounts : left.Accounts tr.slots 0 fun i => tr.AwaitsSlot i ∧ i ≠ id := by
    rw [← hleft]
    split
    · exact h.accounts.leave id
    · rename_i hnot
      refine h.accounts.congr fun i => (and_iff_left_of_imp fun hi hid => ?_).symm
      rw [hid, awaitsSlot_iff hc] at hi
      exact hnot hi
  have hslots := slots_set hc hdrop.calls
  have hheld : tr.slots = tr'.slots + c.slots := hslots.symm
  rw [hheld] at haccounts
  have hvacated := haccounts.iterate_release
  rw [← hgone] at hvacated
  obtain ⟨hconfig, hmax, hrejected⟩ := left.iterate_release c.slots
  rw [← hgone] at hconfig hmax hrejected
  refine ⟨b.vacated id c, ⟨?_, ?_, ?_⟩, hconfig.trans hkept.1, ?_, hrejected.trans hkept.2.2⟩
  · rw [hdrop.layers, h.present]
    rfl
  · exact hvacated.congr fun i => (awaitsSlot_set_of_not hc hdrop.calls rfl i).symm
  · exact h.ended_set hdrop.calls fun _ => rfl
  · have hpeak := hvacated.peak
    omega

section Start

variable {token : TokenId} {stages : List Stage} {work : Work α}
  (hcalls : tr'.calls = tr.calls ++ [⟨token, work, 0, [], .entering stages, 0⟩])

include hcalls

/-- A call that starts holds no slot. -/
theorem slots_append : tr'.slots = tr.slots := by
  rw [slots, hcalls, List.map_append, List.sum_append_nat]
  rfl

/-- A call that starts waits for nothing. -/
theorem awaitsSlot_append (i : Nat) : tr'.AwaitsSlot i ↔ tr.AwaitsSlot i := by
  unfold AwaitsSlot
  rw [hcalls]
  by_cases hi : i < tr.calls.length
  · rw [List.getElem?_append_left hi]
  · rw [List.getElem?_append_right (Nat.le_of_not_lt hi),
      List.getElem?_eq_none (Nat.le_of_not_lt hi)]
    constructor
    · rintro ⟨c, hc, hwaits⟩
      obtain rfl := List.mem_singleton.mp (List.mem_of_getElem? hc)
      cases hwaits
    · rintro ⟨c, hc, -⟩
      cases hc

end Start

/-- Every move keeps the bulkhead in agreement with the calls. -/
theorem Agrees.move {m : Move α} (h : tr.Agrees b) (hm : tr.move m = some tr') :
    ∃ b', tr'.Agrees b' ∧ b.Counts ((⟨tr, m, tr'⟩ : Change α).passage?.toList.countP
      (Passage.is .bulkhead (.refused .bulkheadFull))) b' := by
  have hsame : ∀ {tr' : Traffic α}, tr'.layers.bulkhead = tr.layers.bulkhead →
      tr'.calls = tr.calls → ∃ b', tr'.Agrees b' ∧ b.Counts 0 b' := by
    intro tr' hlayers hcalls
    refine ⟨b, ⟨hlayers.trans h.present, ?_, by rw [hcalls]; exact h.ended⟩, h.counts⟩
    have haccounts := h.accounts
    unfold slots AwaitsSlot at haccounts ⊢
    rw [hcalls]
    exact haccounts
  cases effect_of_move hm with
  | stepped hc hstep =>
    rw [passage?_of_stepped hc hstep]
    exact h.stepped hc hstep
  | dropped hc _ hdrop =>
    obtain ⟨b', hb', hcounts⟩ := h.dropped hc hdrop
    refine ⟨b', hb', ?_⟩
    rw [passage?_of_dropped hc hdrop, Call.countP_is_ended _ _ (by decide)]
    exact hcounts
  | idle ended =>
    rw [passage?_of_ended ended]
    exact hsame rfl rfl
  | begun token stages work ready =>
    refine ⟨b, ⟨h.present, ?_, ?_⟩, h.counts⟩
    · rw [slots_append rfl]
      exact h.accounts.congr fun i => (awaitsSlot_append rfl i).symm
    · intro c hc hended
      obtain hc | hc := List.mem_append.mp hc
      · exact h.ended c hc hended
      · obtain rfl := List.mem_singleton.mp hc
        rfl
  | @told id c hc work ready =>
    refine ⟨b, ⟨h.present, ?_, ?_⟩, h.counts⟩
    · exact accounts_of_same h.accounts hc rfl rfl rfl
    · exact h.ended_set rfl fun hended =>
        h.ended c (List.mem_of_getElem? hc) hended
  | limiter use => exact hsame rfl rfl
  | breaker use => exact hsame rfl rfl
  | aside kind haside =>
    rw [passage?_of_aside kind]
    exact hsame (by rw [haside.layers]) haside.calls

end Traffic

/-! ## Courses -/

namespace Bulkhead

open Traffic (Course)

variable {layers : Resilience.Layers} {attached : Attachments} {config : Config}
  {log : List (Change α)}

/-- In every course the bulkhead agrees with the calls, its highest count is the most slots
that were ever held, and it has counted the calls that were turned away. -/
theorem exists_agrees (hlayers : layers.bulkhead = some (.new config))
    (hcourse : Course (.start layers attached) log tr) :
    ∃ b, tr.Agrees b ∧ b.config = config.clamp ∧
      IsGreatest {n | n = 0 ∨ ∃ ch ∈ log, n = ch.after.slots} b.maxActive ∧
      b.rejected = (passages log).countP (Passage.is .bulkhead (.refused .bulkheadFull)) := by
  induction hcourse with
  | start =>
    have hnew : Accounts (new config : Bulkhead Nat) 0 0
        (Traffic.start layers attached : Traffic α).AwaitsSlot :=
      (Accounts.new config).congr fun i => by simp [Traffic.AwaitsSlot, Traffic.start]
    refine ⟨_, ⟨hlayers, hnew, nofun⟩, rfl, ?_, rfl⟩
    refine ⟨.inl rfl, ?_⟩
    rintro n (rfl | ⟨ch, hch, -⟩)
    · exact Nat.le_refl _
    · cases hch
  | @move log tr tr' m _ hm ih =>
    obtain ⟨b, hagrees, hconfig, hgreatest, hrejected⟩ := ih
    obtain ⟨b', hagrees', hcounts⟩ := hagrees.move hm
    refine ⟨b', hagrees', hcounts.config.trans hconfig, ?_, ?_⟩
    -- The counter follows the moments one by one, and so does the greatest number so far.
    · have hmore : {n | n = 0 ∨ ∃ ch ∈ log ++ [⟨tr, m, tr'⟩], n = ch.after.slots} =
          insert tr'.slots {n | n = 0 ∨ ∃ ch ∈ log, n = ch.after.slots} := by
        ext n
        simp only [Set.mem_ofPred_eq, Set.mem_insert_iff, List.mem_append, List.mem_singleton,
          or_and_right, exists_or, exists_eq_left]
        rw [or_rotate, or_comm, or_assoc]
      rw [hmore, hcounts.maxActive, hagrees'.accounts.active, Nat.max_comm]
      exact hgreatest.insert tr'.slots
    · rw [hcounts.rejected, hrejected, countP_passages_snoc]

/-- **Slots are conserved.** In every course, at every moment: every slot is held by a call,
was handed to a call that waits, or is free; the number of calls that are active is the number
of slots that calls hold, at most the capacity; the highest such number so far and the number
of calls that were turned away are as counted; and no slot is free while a call queues. Once
all calls have ended, all slots are free. -/
theorem slots_conserved (hlayers : layers.bulkhead = some (.new config))
    (hcourse : Course (.start layers attached) log tr) :
    ∃ b, tr.layers.bulkhead = some b ∧ b.config = config.clamp ∧
      tr.slots + b.handed.length + b.available = b.capacity ∧
      (b.queue ++ b.handed).Nodup ∧ (∀ id, id ∈ b.queue ++ b.handed ↔ tr.AwaitsSlot id) ∧
      b.active = tr.slots ∧ tr.slots ≤ b.capacity ∧
      IsGreatest {n | n = 0 ∨ ∃ ch ∈ log, n = ch.after.slots} b.maxActive ∧
      b.rejected = (passages log).countP (Passage.is .bulkhead (.refused .bulkheadFull)) ∧
      (b.queue ≠ [] → b.available = 0) ∧
      ((∀ c ∈ tr.calls, c.activity = .ended) → b.active = 0 ∧ b.available = b.capacity) := by
  obtain ⟨b, ⟨hpresent, haccounts, hended⟩, hconfig, hgreatest, hrejected⟩ :=
    exists_agrees hlayers hcourse
  have hslots := haccounts.slots
  refine ⟨b, hpresent, hconfig, hslots, haccounts.nodup, haccounts.line, haccounts.active, ?_,
    hgreatest, hrejected, haccounts.full, fun hall => ?_⟩
  · omega
  -- Calls that have ended hold no slot and wait for none.
  · have hheld : tr.slots = 0 := by
      refine List.sum_eq_zero_iff_forall_eq_nat.mpr fun n hn => ?_
      obtain ⟨c, hc, rfl⟩ := List.mem_map.mp hn
      rw [Call.slots, hended c hc (hall c hc), List.countP_nil]
    have hnobody : b.queue ++ b.handed = [] := by
      refine List.eq_nil_iff_forall_not_mem.mpr fun id hid => ?_
      obtain ⟨c, hc, hwaits⟩ := (haccounts.line id).mp hid
      rw [hall c (List.mem_of_getElem? hc)] at hwaits
      cases hwaits
    have hhanded := (List.append_eq_nil_iff.mp hnobody).2
    rw [hheld, hhanded] at hslots
    exact ⟨haccounts.active.trans hheld, by simpa using hslots⟩

/-- A bulkhead with one slot and no other layer. -/
def oneSlot : Resilience.Layers := ⟨none, some (.new ⟨1, .ofMillis 10⟩), none, none, none⟩

/-- A call holds the only slot, and a second one waits for it; when the first one lets go, the
slot is handed to the second one. -/
def handover : List (Move Unit) :=
  [.mint none, .begin 0 [.layer .bulkhead] (.hold false), .step 0, .step 0,
    .begin 0 [.layer .bulkhead] (.operation []), .step 1, .letGo 0, .step 0, .step 0]

/-- At the moment of the handover nobody holds the slot, and yet it is not free. -/
theorem slots_conserved_handover :
    ∃ (log : List (Change Unit)) (tr : Traffic Unit) (b : Bulkhead Nat),
      Course (.start oneSlot .none) log tr ∧ tr.layers.bulkhead = some b ∧
      tr.slots = 0 ∧ b.handed = [1] ∧ b.available = 0 ∧ b.maxActive = 1 ∧
      tr.slots + b.handed.length + b.available = b.capacity ∧ b.active = tr.slots := by
  have hplay : ((Traffic.start oneSlot .none).play handover).isSome = true := rfl
  have hcourse := Traffic.course_played hplay
  obtain ⟨b, hb, -, hconserved, -, -, hactive, -⟩ := slots_conserved rfl hcourse
  have hheld : (((Traffic.start oneSlot .none).play handover).get hplay).2.slots = 0 := rfl
  have hmoment : (((Traffic.start oneSlot .none).play handover).get hplay).2.layers.bulkhead.map
      (fun b => (b.handed, b.available, b.maxActive)) = some ([1], 0, 1) := rfl
  rw [hb] at hmoment
  obtain ⟨hhanded, hrest⟩ := Prod.mk.inj (Option.some.inj hmoment)
  obtain ⟨hfree, hmax⟩ := Prod.mk.inj hrest
  exact ⟨_, _, b, hcourse, hb, hheld, hhanded, hfree, hmax, hconserved, hactive⟩

end Bulkhead

end Safeguard
