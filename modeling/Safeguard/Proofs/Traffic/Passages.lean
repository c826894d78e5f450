import Safeguard.Proofs.Traffic.Course

/-!
# Passages

A call passes its stages one by one: at each it is let through, has to wait, is refused, or is
dropped by its caller. The log of a course tells the fate of every call at every stage, and
counters of components are compared with what it tells.

## Main definitions

* `Fate`, `Passage`: what came of a call at a stage.
* `passages`: all that a log tells of it.
* `callsOf`: the calls that it tells something of.
-/

namespace Safeguard

variable {α : Type}

/-- What comes of a call at a stage. -/
inductive Fate where
  | passed
  /-- It starts to wait. -/
  | waits
  | refused (e : LayerError)
  /-- A hook panicked. -/
  | broken
  /-- Its caller dropped it. -/
  | dropped
deriving DecidableEq, Repr

/-- What came of a call at a stage. -/
structure Passage where
  call : Nat
  layer : Layer
  /-- Whether the call came to the stage only then; otherwise it had waited. -/
  arrives : Bool
  fate : Fate
deriving DecidableEq, Repr

/-- A given fate at a given layer. -/
def Passage.is (l : Layer) (f : Fate) (p : Passage) : Bool := p.layer = l ∧ p.fate = f

/-- A call came to a layer, and was not dropped before it could ask for anything. -/
def Passage.came (l : Layer) (p : Passage) : Bool := p.layer = l ∧ p.arrives ∧ p.fate ≠ .dropped

/-- What came of a call that does this now. -/
def Activity.fate : Activity α → Fate
  | .awaitingTokens .. | .awaitingSlot .. => .waits
  | .leaving (.error (.layer e)) => .refused e
  | .leaving _ => .broken
  | .ended => .dropped
  | _ => .passed

/-- Whether a call does not wait yet. -/
def Activity.arrives : Activity α → Bool
  | .entering _ => true
  | _ => false

/-- What came of a call that was ahead of a stage, by what it does now. -/
def Call.passage? (c : Call α) (id : Nat) (now : Activity α) : Option Passage :=
  c.activity.ahead.head?.map fun st => ⟨id, st.owner, c.activity.arrives, now.fate⟩

theorem Call.passage?_of_ahead {c : Call α} {st : Stage} {inner : List Stage}
    (h : c.activity.ahead = st :: inner) (id : Nat) (now : Activity α) :
    c.passage? id now = some ⟨id, st.owner, c.activity.arrives, now.fate⟩ := by
  simp only [Call.passage?, h, List.head?_cons, Option.map_some]

theorem Call.passage?_of_nil {c : Call α} (h : c.activity.ahead = []) (id : Nat)
    (now : Activity α) : c.passage? id now = none := by
  simp only [Call.passage?, h, List.head?_nil, Option.map_none]

/-- A call that is not at a layer leaves no trace there. -/
theorem Call.countP_passage?_eq_zero {c : Call α} {l : Layer}
    (h : ∀ st inner, c.activity.ahead = st :: inner → st.owner ≠ l) (id : Nat) (a : Activity α)
    {q : Passage → Bool} (hq : ∀ p, q p = true → p.layer = l) :
    (c.passage? id a).toList.countP q = 0 := by
  refine List.countP_eq_zero.mpr fun p hp hcounts => ?_
  obtain ⟨st, hst, rfl⟩ := Option.map_eq_some_iff.mp (Option.mem_toList.mp hp)
  obtain ⟨inner, hahead⟩ := List.head?_eq_some_iff.mp hst
  exact h st inner hahead (hq _ hcounts)

theorem Passage.layer_of_is {l : Layer} {f : Fate} {p : Passage} (h : Passage.is l f p = true) :
    p.layer = l :=
  (of_decide_eq_true h).1

theorem Passage.layer_of_came {l : Layer} {p : Passage} (h : p.came l = true) : p.layer = l :=
  (of_decide_eq_true h).1

/-- A call at a layer has one fate there. -/
theorem Call.countP_passage?_is {c : Call α} {l : Layer} {st : Stage} {inner : List Stage}
    (hahead : c.activity.ahead = st :: inner) (howner : st.owner = l) (id : Nat)
    (a : Activity α) (f : Fate) :
    (c.passage? id a).toList.countP (Passage.is l f) = if a.fate = f then 1 else 0 := by
  rw [Call.passage?_of_ahead hahead, Option.toList_some, List.countP_singleton]
  simp [Passage.is, howner]

/-- A call that its caller drops neither passes nor is refused. -/
theorem Call.countP_is_ended (c : Call α) (id : Nat) {l : Layer} {f : Fate} (hf : .dropped ≠ f) :
    (c.passage? id .ended).toList.countP (Passage.is l f) = 0 := by
  refine List.countP_eq_zero.mpr fun p hp => ?_
  obtain ⟨st, -, rfl⟩ := Option.map_eq_some_iff.mp (Option.mem_toList.mp hp)
  simp [Passage.is, Activity.fate, hf]

/-- Nor does it come to a layer. -/
theorem Call.countP_came_ended (c : Call α) (id : Nat) (l : Layer) :
    (c.passage? id .ended).toList.countP (Passage.came l) = 0 := by
  refine List.countP_eq_zero.mpr fun p hp => ?_
  obtain ⟨st, -, rfl⟩ := Option.map_eq_some_iff.mp (Option.mem_toList.mp hp)
  simp [Passage.came, Activity.fate]

/-! ## Logs -/

/-- What came of a call in a change. -/
def Change.passage? (ch : Change α) : Option Passage :=
  match ch.move with
  | .step id | .drop id =>
    match ch.before.calls[id]?, ch.after.calls[id]? with
    | some c, some c' => c.passage? id c'.activity
    | _, _ => none
  | _ => none

/-- What came of a call is told by what it did before and what it does now. -/
theorem Change.exists_of_passage? {ch : Change α} {p : Passage} (h : ch.passage? = some p) :
    ∃ (id : Nat) (c c' : Call α), ch.before.calls[id]? = some c ∧ ch.after.calls[id]? = some c' ∧
      c.passage? id c'.activity = some p := by
  have hcall : ∀ {id : Nat}, (match ch.before.calls[id]?, ch.after.calls[id]? with
      | some c, some c' => c.passage? id c'.activity
      | _, _ => none) = some p → ∃ (id : Nat) (c c' : Call α), ch.before.calls[id]? = some c ∧
        ch.after.calls[id]? = some c' ∧ c.passage? id c'.activity = some p := by
    intro id h
    split at h
    · rename_i c c' hc hc'
      exact ⟨id, c, c', hc, hc', h⟩
    · cases h
  unfold Change.passage? at h
  split at h
  · exact hcall h
  · exact hcall h
  · cases h

/-- What came of all calls, in order. -/
def passages (log : List (Change α)) : List Passage := log.filterMap Change.passage?

theorem passages_snoc (log : List (Change α)) (ch : Change α) :
    passages (log ++ [ch]) = passages log ++ ch.passage?.toList := by
  rw [passages, List.filterMap_append]
  cases h : ch.passage? <;> simp [passages, h]

theorem countP_passages_snoc (f : Passage → Bool) (log : List (Change α)) (ch : Change α) :
    (passages (log ++ [ch])).countP f = (passages log).countP f + ch.passage?.toList.countP f := by
  rw [passages_snoc, List.countP_append]

/-- The calls that something of a kind came of, in order. -/
def callsOf (q : Passage → Bool) (log : List (Change α)) : List Nat :=
  ((passages log).filter q).map Passage.call

section CallsOf

variable {q : Passage → Bool} {log : List (Change α)} {ch : Change α} {id : Nat}

theorem length_callsOf (q : Passage → Bool) (log : List (Change α)) :
    (callsOf q log).length = (passages log).countP q := by
  rw [callsOf, List.length_map, List.countP_eq_length_filter]

theorem callsOf_snoc (q : Passage → Bool) (log : List (Change α)) (ch : Change α) :
    callsOf q (log ++ [ch]) =
      callsOf q log ++ (ch.passage?.toList.filter q).map Passage.call := by
  rw [callsOf, passages_snoc, List.filter_append, List.map_append, ← callsOf]

/-- A change in which nothing comes of a call. -/
theorem count_callsOf_of_ne (h : ch.passage?.map Passage.call ≠ some id) :
    (callsOf q (log ++ [ch])).count id = (callsOf q log).count id := by
  rw [callsOf_snoc, List.count_append]
  cases hp : ch.passage? with
  | none => rfl
  | some p =>
    have hne : p.call ≠ id := by simpa [hp] using h
    by_cases hq : q p = true <;> simp [hq, hne]

/-- A change in which something comes of a call. -/
theorem count_callsOf_of_eq {c : Call α} {a : Activity α} (h : ch.passage? = c.passage? id a) :
    (callsOf q (log ++ [ch])).count id =
      (callsOf q log).count id + (c.passage? id a).toList.countP q := by
  rw [callsOf_snoc, List.count_append, h, Call.passage?]
  cases c.activity.ahead.head? with
  | none => rfl
  | some st =>
    by_cases hq : q ⟨id, st.owner, c.activity.arrives, a.fate⟩ = true <;> simp [hq]

end CallsOf

namespace Traffic

variable {tr tr' : Traffic α} {id : Nat} {c c' : Call α}

theorem passage?_of_stepped (hc : tr.calls[id]? = some c) (h : Stepped tr id c tr' c') :
    (⟨tr, .step id, tr'⟩ : Change α).passage? = c.passage? id c'.activity := by
  simp only [Change.passage?, hc, h.call hc]

theorem passage?_of_dropped (hc : tr.calls[id]? = some c) (h : Dropped tr id c tr') :
    (⟨tr, .drop id, tr'⟩ : Change α).passage? = c.passage? id .ended := by
  have hc' : tr'.calls[id]? = some { c with frames := [], activity := .ended } := by
    rw [h.calls, List.getElem?_set_self (List.getElem?_eq_some_iff.mp hc).1]
  simp only [Change.passage?, hc, hc']

/-- Nothing comes of a call that has ended. -/
theorem passage?_of_ended (h : ∀ c, tr.calls[id]? = some c → c.activity.hasEnded = true) :
    (⟨tr, .drop id, tr⟩ : Change α).passage? = none := by
  cases hc : tr.calls[id]? with
  | none => simp only [Change.passage?, hc]
  | some c =>
    have hended := h c hc
    simp only [Change.passage?, hc, Call.passage?]
    cases hactivity : c.activity <;> simp_all [Activity.hasEnded, Activity.ahead]

theorem passage?_of_aside {m : Move α} (h : m.isAside = true) :
    (⟨tr, m, tr'⟩ : Change α).passage? = none := by
  cases m with
  | step | drop | begin | limiter | breaker => cases h
  | _ => rfl

end Traffic

end Safeguard
