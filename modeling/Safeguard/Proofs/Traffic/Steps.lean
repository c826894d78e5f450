import Safeguard.Proofs.Traffic.Permits

/-!
# Steps of calls as acts on the breaker

A step of a call asks the breaker for admission, hands a permit back, or leaves the
breaker alone. Each of these is a run of the ledger that describes the breaker: asking
is followed by looks of the hook and by the news that the hook is done, and so is the
end of a call. The ledger takes a change of state down when it happens, and the hook is told
of it afterwards, once: until then the change is pending.

## Main results

* `Traffic.recounts_step`: a step of a call is a run of the ledger.
* `Traffic.recounts_abandon`: so is the end of a call that its caller drops.
-/

namespace Safeguard.Traffic

open CircuitBreaker (Permit Transition Ledger)
open CircuitBreaker.Ledger (Act Entry Progress)

variable {α : Type} {tr tr' : Traffic α} {l : Ledger} {id : Nat} {c c' : Call α} {p : Permit}

/-! ## Acts at once -/

/-- Nothing has changed but the breaker and the notices. -/
structure Beside (tr tr' : Traffic α) : Prop where
  clock : tr'.clock = tr.clock
  calls : tr'.calls = tr.calls
  attached : tr'.attached = tr.attached
  transitions : tr'.trace.transitions = tr.trace.transitions

theorem Beside.now (h : Beside tr tr') : tr'.now = tr.now := by
  simp only [Traffic.now, h.clock]

theorem beside_setBreaker (tr : Traffic α) (b : CircuitBreaker) : Beside tr (tr.setBreaker b) :=
  ⟨rfl, rfl, rfl, rfl⟩

theorem Still.beside (h : Still tr tr') : Beside tr tr' :=
  ⟨h.clock, h.calls, h.attached, h.transitions⟩

/-- Acts that happen at once, and besides which nothing happens to a call. The hook is told of
what they change, and of what is pending. -/
structure Acted (tr tr' : Traffic α) (pending : List Transition) (l l' : Ledger)
    (acts : List (Instant × Act)) : Prop extends Reports tr tr' pending l l' where
  run : l.run acts = some l'
  times : ∀ x ∈ acts, x.1 = tr.now
  breaker : tr'.layers.circuitBreaker = some l'.breaker
  clock : tr'.clock = tr.clock
  calls : tr'.calls = tr.calls

variable {tr₁ tr₂ : Traffic α} {pending : List Transition} {m l' : Ledger}
  {acts : List (Instant × Act)} {a : Act}

theorem acted_nil (hb : tr'.layers.circuitBreaker = some l.breaker) (hbeside : Beside tr tr') :
    Acted tr tr' [] l l [] where
  toReports := reports_same hbeside.attached hbeside.transitions
  run := rfl
  times := by simp
  breaker := hb
  clock := hbeside.clock
  calls := hbeside.calls

theorem Beside.acted (hbeside : Beside tr tr₁) (h : Acted tr₁ tr' pending l l' acts) :
    Acted tr tr' pending l l' acts where
  attached := h.attached.trans hbeside.attached
  told := by
    obtain ⟨new, changes, htold, hchanges, hperm⟩ := h.told
    refine ⟨new, changes, ?_, hchanges, fun hlistens => hperm (hbeside.attached ▸ hlistens)⟩
    rw [htold, Traffic.told, hbeside.transitions, Traffic.told]
  run := h.run
  times x hx := (h.times x hx).trans hbeside.now
  breaker := h.breaker
  clock := h.clock.trans hbeside.clock
  calls := h.calls.trans hbeside.calls

/-- An act, and what follows from it: what the act changes is pending after it. -/
theorem Acted.cons (h : Acted tr tr' pending m l' acts) (hstep : l.step tr.now a = some m)
    (hchanges : m.changes = l.changes ++ pending) :
    Acted tr tr' [] l l' ((tr.now, a) :: acts) where
  attached := h.attached
  told := by
    obtain ⟨new, changes, htold, hnew, hperm⟩ := h.told
    refine ⟨new, pending ++ changes, htold, ?_, hperm⟩
    rw [hnew, hchanges, List.append_assoc]
  run := Ledger.run_cons_eq_some.mpr ⟨_, hstep, h.run⟩
  times := List.forall_mem_cons.mpr ⟨rfl, h.times⟩
  breaker := h.breaker
  clock := h.clock
  calls := h.calls

theorem Acted.now (h : Acted tr tr' pending l l' acts) : tr'.now = tr.now := by
  simp only [Traffic.now, h.clock]

theorem Acted.trans {acts' : List (Instant × Act)} (h : Acted tr tr₁ pending l m acts)
    (h' : Acted tr₁ tr' [] m l' acts') : Acted tr tr' pending l l' (acts ++ acts') where
  toReports := h.toReports.trans h'.toReports
  run := by rw [Ledger.run_append, h.run]; exact h'.run
  times x hx := by
    rcases List.mem_append.mp hx with hx | hx
    · exact h.times x hx
    · exact (h'.times x hx).trans h.now
  breaker := h'.breaker
  clock := h'.clock.trans h.clock
  calls := h'.calls.trans h.calls

theorem Acted.spans (h : Acted tr tr' pending l l' acts) :
    Ledger.Spans tr.now tr'.now acts := by
  rw [h.now]
  exact Ledger.spans_of_now h.times

/-! ## Telling of a change -/

/-- What a hook does that is told of a change: it looks at the breaker, and leaves all
entries of the ledger as they are. -/
structure Looked (tr tr' : Traffic α) (pending : List Transition) (l l' : Ledger)
    (acts : List (Instant × Act)) : Prop extends Acted tr tr' pending l l' acts where
  entries : l'.calls = l.calls

theorem looked_nil (hb : tr'.layers.circuitBreaker = some l.breaker) (hbeside : Beside tr tr') :
    Looked tr tr' [] l l [] where
  toActed := acted_nil hb hbeside
  entries := rfl

theorem Beside.looked (hbeside : Beside tr tr₁) (h : Looked tr₁ tr' pending l l' acts) :
    Looked tr tr' pending l l' acts where
  toActed := hbeside.acted h.toActed
  entries := h.entries

/-- A look, and what follows from it. -/
theorem Looked.cons (h : Looked tr tr' pending (l.after (l.breaker.observe tr.now)) l' acts)
    (hpending : (l.breaker.observe tr.now).2.toList = pending) :
    Looked tr tr' [] l l' ((tr.now, .observe) :: acts) where
  toActed := by
    subst hpending
    exact h.toActed.cons rfl rfl
  entries := h.entries

/-- If nobody listens, nothing has to be told. -/
theorem Looked.unheard (h : Looked tr tr' pending l l' acts) (hdeaf : ¬ tr.attached.HookListens)
    (pending' : List Transition) : Looked tr tr' pending' l l' acts where
  attached := h.attached
  told := by
    obtain ⟨new, changes, htold, hchanges, -⟩ := h.told
    exact ⟨new, changes, htold, hchanges, fun hlistens => absurd hlistens hdeaf⟩
  run := h.run
  times := h.times
  breaker := h.breaker
  clock := h.clock
  calls := h.calls
  entries := h.entries

/-- The change is told that all this was about. -/
theorem Looked.tell (h : Looked tr tr' [] l l' acts) (t : Transition) (call : Option Nat)
    (seen : Option CircuitBreaker.State) :
    Looked tr (tr'.recordTransition t call seen) [t] l l' acts where
  attached := h.attached
  told := by
    obtain ⟨new, changes, htold, hchanges, hperm⟩ := h.told
    refine ⟨new ++ [t], changes, ?_, hchanges, fun hlistens => ?_⟩
    · rw [← List.append_assoc, ← htold]
      simp [Traffic.told, recordTransition]
    · exact ((hperm hlistens).append_right [t]).trans List.perm_append_comm
  run := h.run
  times := h.times
  breaker := h.breaker
  clock := h.clock
  calls := h.calls
  entries := h.entries

/-- After a look at a breaker, another one changes nothing. -/
theorem observe_observe_snd (b : CircuitBreaker) (now : Instant) :
    ((b.observe now).1.observe now).2 = none := by
  unfold CircuitBreaker.observe
  obtain ⟨-, -, h⟩ | ⟨hsame, h⟩ := b.refresh_cases now
  · obtain ⟨hopen, -, -⟩ | ⟨-, h'⟩ := (b.refresh now).1.refresh_cases now
    · rw [h] at hopen
      cases hopen
    · rw [h']
  · rw [h, h]

/-- A hook that looks is told of what its own look changes, before it is done with what it was
told at first. -/
theorem looked_announce (levels : Nat) (call : Option Nat) (t : Transition)
    (hb : tr.layers.circuitBreaker = some l.breaker)
    (hlevels : (l.breaker.observe tr.now).2.toList.length < levels) :
    ∃ acts l', Looked tr (announce levels tr call t).1 [t] l l' acts := by
  induction levels generalizing tr t l with
  | zero => cases hlevels
  | succ levels ih =>
    have hnote : Looked tr (tr.note (.circuitChanged tr.attached.breakerName t)) [] l l [] :=
      looked_nil hb (still_note tr _).beside
    simp only [announce]
    split
    · rename_i hnone
      have hdeaf : ¬ tr.attached.HookListens := fun hlistens => by
        have hsome := hlistens.1
        rw [show tr.attached.onTransition = none from hnone] at hsome
        cases hsome
      exact ⟨[], l, hnote.unheard hdeaf [t]⟩
    · rename_i hook hhook
      split
      · rename_i b hlooks hb'
        obtain rfl : l.breaker = b := Option.some.inj (hb.symm.trans hb')
        have hnow : (tr.note (.circuitChanged tr.attached.breakerName t)).now = tr.now := rfl
        have hbeside : Beside tr ((tr.note (.circuitChanged tr.attached.breakerName t)).setBreaker
            (l.breaker.observe tr.now).1) := ⟨rfl, rfl, rfl, rfl⟩
        have hlooked := looked_nil (l := l.after (l.breaker.observe tr.now)) rfl hbeside
        simp only [hnow]
        cases hchange : (l.breaker.observe tr.now).2 with
        | none =>
          exact ⟨_, _, (hlooked.cons (by rw [hchange]; rfl)).tell t call _⟩
        | some next =>
          rw [hchange] at hlevels
          -- Another look would change nothing, so the levels that are left suffice.
          obtain ⟨acts, l', h⟩ := ih next
            (show ((tr.note (.circuitChanged tr.attached.breakerName t)).setBreaker
              (l.breaker.observe tr.now).1).layers.circuitBreaker =
                some (l.after (l.breaker.observe tr.now)).breaker from rfl)
            (by
              show ((l.breaker.observe tr.now).1.observe tr.now).2.toList.length < levels
              rw [observe_observe_snd]
              simpa using hlevels)
          have hlook := (hbeside.looked h).cons (by rw [hchange]; rfl)
          refine ⟨(tr.now, .observe) :: acts, l', ?_⟩
          dsimp only
          split
          · rename_i message hpanicked
            refine hlook.unheard (fun hlistens => ?_) [t]
            obtain ⟨-, -, -, -, hreturns⟩ := exists_announce levels
              ((tr.note (.circuitChanged tr.attached.breakerName t)).setBreaker
                (l.breaker.observe tr.now).1) call next rfl
            rw [hreturns hlistens.2] at hpanicked
            cases hpanicked
          · exact hlook.tell t call _
      · exact ⟨[], l, hnote.tell t call _⟩

theorem looked_changeBreaker {b : CircuitBreaker} (hb : l.breaker = b) (tr : Traffic α)
    (call : Option Nat) (change : Option Transition) :
    ∃ acts l', Looked tr (tr.changeBreaker call b change).1 change.toList l l' acts := by
  subst hb
  have hbeside := beside_setBreaker tr l.breaker
  cases change with
  | none => exact ⟨[], l, looked_nil rfl hbeside⟩
  | some t =>
    have hlevels : (l.breaker.observe (tr.setBreaker l.breaker).now).2.toList.length < 2 := by
      cases (l.breaker.observe (tr.setBreaker l.breaker).now).2 <;> simp
    obtain ⟨acts, l', h⟩ := looked_announce 2 call t
      (show (tr.setBreaker l.breaker).layers.circuitBreaker = some l.breaker from rfl) hlevels
    exact ⟨acts, l', hbeside.looked h⟩

/-- Without a change there is nothing to tell, and no hook that could panic. -/
theorem changeBreaker_none (tr : Traffic α) (call : Option Nat) (b : CircuitBreaker) :
    tr.changeBreaker call b none = (tr.setBreaker b, none) := rfl

theorem calls_changeBreaker (tr : Traffic α) (call : Option Nat) (b : CircuitBreaker)
    (change : Option Transition) : (tr.changeBreaker call b change).1.calls = tr.calls := by
  obtain ⟨_, _, h⟩ := looked_changeBreaker (show (⟨b, [], []⟩ : Ledger).breaker = b from rfl) tr
    call change
  exact h.calls

theorem Looked.describedBy (h : Looked tr tr' pending l l' acts) (hp : tr.permits.Perm l.permits) :
    tr'.DescribedBy l' where
  breaker := h.breaker
  permits := by rw [Traffic.permits, h.calls, Ledger.permits, h.entries]; exact hp

theorem DescribedBy.quiet (h : tr.DescribedBy l) (hq : Quiet tr tr') : tr'.DescribedBy l :=
  ⟨hq.breaker.trans h.breaker, hq.permits.trans h.permits⟩

/-! ## Admission -/

/-- A call that is turned away. -/
theorem recounts_of_rejected {b : CircuitBreaker} {change : Option Transition}
    (call : Option Nat) (hl : tr.DescribedBy l)
    (hreq : l.breaker.request tr.now = (b, change, none))
    (hquiet : Quiet (tr.changeBreaker call b change).1 tr') :
    ∃ acts l', l.run acts = some l' ∧ tr'.DescribedBy l' ∧ Ledger.Spans tr.now tr'.now acts ∧
      Reports tr tr' [] l l' := by
  have hstep : l.step tr.now .request = some (l.after (b, change)) := by
    rw [Ledger.step_request_of_none (by rw [hreq]), hreq]
  obtain ⟨acts, m, hlook⟩ :=
    looked_changeBreaker (show (l.after (b, change)).breaker = b from rfl) tr call change
  have hacted := hlook.toActed.cons hstep rfl
  have hreports := hacted.toReports.trans (reports_same hquiet.attached hquiet.transitions)
  refine ⟨_, m, hacted.run, (hlook.describedBy hl.permits).quiet hquiet, ?_, hreports⟩
  rw [hquiet.now]
  exact hacted.spans

/-- A call that is let in, and that the hook stops if it is told of a change and
panics. -/
theorem recounts_of_admitted {b : CircuitBreaker} {change : Option Transition} {call : Option Nat}
    (hl : tr.DescribedBy l) (hreq : l.breaker.request tr.now = (b, change, some p))
    {panicked : Option String} (hres : tr.changeBreaker call b change = (tr₁, panicked))
    (hclock : tr'.clock = tr₁.clock)
    (hbreaker : tr'.layers.circuitBreaker = tr₁.layers.circuitBreaker)
    (hpermits : tr'.permits.Perm ((if panicked.isSome then [] else [p]) ++ tr₁.permits))
    (hreports : ∀ l, Reports tr₁ tr' [] l l) :
    ∃ acts l', l.run acts = some l' ∧ tr'.DescribedBy l' ∧ Ledger.Spans tr.now tr'.now acts ∧
      Reports tr tr' [] l l' := by
  have hnow : tr'.now = tr₁.now := by simp only [Traffic.now, hclock]
  rw [hnow]
  cases change with
  | none =>
    -- Nobody is told of anything, and the call has its permit at once.
    have hstep : l.step tr.now .request = some ((l.after (b, none)).enrol p .running) :=
      (Ledger.step_request_of_some (by rw [hreq])).trans (by rw [hreq]; rfl)
    obtain ⟨rfl, rfl⟩ := Prod.mk.inj ((changeBreaker_none tr call b).symm.trans hres)
    have hacted : Acted tr (tr.setBreaker b) [] l _ _ :=
      (acted_nil rfl (beside_setBreaker tr b)).cons hstep rfl
    refine ⟨_, _, hacted.run, ⟨hbreaker, ?_⟩, hacted.spans, hacted.toReports.trans (hreports _)⟩
    rw [Ledger.permits_enrol]
    exact hpermits.trans ((hl.permits.cons p).trans (List.perm_append_singleton p _).symm)
  | some t =>
    have hstep : l.step tr.now .request = some ((l.after (b, some t)).enrol p .announcing) :=
      (Ledger.step_request_of_some (by rw [hreq])).trans (by rw [hreq]; rfl)
    obtain ⟨acts, m, hlook⟩ := looked_changeBreaker
      (show ((l.after (b, some t)).enrol p .announcing).breaker = b from rfl) tr call (some t)
    rw [hres] at hlook
    -- The looks of the hook leave the call as it was entered.
    obtain ⟨e, hfind, rfl⟩ : ∃ e, m.find? l.calls.length .announcing = some e ∧ e.permit = p := by
      refine ⟨⟨p, b.state, (l.after (b, some t)).era, .announcing⟩, ?_, rfl⟩
      rw [Ledger.find?, hlook.entries]
      exact Ledger.find?_enrol .announcing
    have htold : m.step tr₁.now (.announced l.calls.length panicked.isSome) =
        some (m.mark l.calls.length e (if panicked.isSome then .lost else .running)) := by
      simp only [Ledger.step, hfind, Option.map_some]
    have hend : Acted tr₁ tr₁ []
        (m.mark l.calls.length e (if panicked.isSome then .lost else .running)) _ [] :=
      acted_nil hlook.breaker ⟨rfl, rfl, rfl, rfl⟩
    have hacted := (hlook.toActed.cons hstep rfl).trans
      (hend.cons htold (List.append_nil _).symm)
    refine ⟨_, _, hacted.run, ⟨hbreaker.trans hlook.breaker, ?_⟩, hacted.spans,
      hacted.toReports.trans (hreports _)⟩
    have hm : tr₁.permits.Perm m.permits := by
      refine (hlook.describedBy ?_).permits
      rw [Ledger.permits_enrol]
      simpa [Ledger.permits] using hl.permits
    have hmark := Ledger.permits_mark_of_announcing hfind
      (if panicked.isSome then .lost else .running)
    refine hpermits.trans (.trans ?_ hmark.symm)
    cases panicked with
    | none => exact hm.cons _
    | some message => exact hm

/-- Asking for admission is a request, looks of the hook, and the news that the hook is
done. -/
theorem recounts_passBreaker {b : CircuitBreaker} (hb : tr.layers.circuitBreaker = some b)
    (hc : tr.calls[id]? = some c) (inner : List Stage) :
    Recounts tr (tr.passBreaker id c b inner) := by
  intro l hl
  obtain rfl : l.breaker = b := Option.some.inj (hl.breaker.symm.trans hb)
  unfold passBreaker
  generalize hreq : l.breaker.request tr.now = r
  obtain ⟨b', change, permit⟩ := r
  dsimp only
  have hcalls := calls_changeBreaker tr (some id) b' change
  cases permit with
  | none =>
    refine recounts_of_rejected (some id) hl hreq ?_
    generalize tr.changeBreaker (some id) b' change = res at hcalls ⊢
    obtain ⟨tr₁, _ | message⟩ := res
    · exact (still_note tr₁ _).refuse (hcalls ▸ hc) rfl .circuitOpen
    · exact (Still.refl tr₁).become (hcalls ▸ hc) rfl _
  | some p =>
    generalize hres : tr.changeBreaker (some id) b' change = res at hcalls ⊢
    obtain ⟨tr₁, panicked⟩ := res
    have hc₁ : tr₁.calls[id]? = some c := hcalls ▸ hc
    cases panicked with
    | none =>
      exact recounts_of_admitted hl hreq hres rfl rfl (permits_setCall_of_gain hc₁ rfl)
        fun _ => reports_same rfl rfl
    | some message =>
      have hquiet : Quiet tr₁ _ := (Still.refl tr₁).become hc₁ rfl (.leaving (.panic message))
      exact recounts_of_admitted hl hreq hres rfl rfl hquiet.permits
        fun _ => reports_same rfl rfl

/-! ## The end of a call -/

/-- A result is an act that settles, and looks of the hook. -/
theorem recounts_settlePermit (hc : tr.calls[id]? = some c) (hp : c.permits = p :: c'.permits)
    (failed : Bool) (outcome : Outcome α) :
    Recounts tr (tr.settlePermit id c' p failed outcome) := by
  intro l hl
  have hheld : l.permits.Perm (p :: (tr.setCall id c').permits) :=
    hl.permits.symm.trans (permits_setCall_of_loss hc hp)
  obtain ⟨id', m, hstep, hb, hchanges, hm⟩ := Ledger.exists_settle hheld failed tr.now
  obtain ⟨acts, l', hlook⟩ :=
    looked_changeBreaker hb tr (some id) (l.breaker.settle p failed tr.now).2
  have hdescribed : ∀ activity, ((tr.changeBreaker (some id) (l.breaker.settle p failed tr.now).1
      (l.breaker.settle p failed tr.now).2).1.become id c' activity).DescribedBy l' := by
    intro activity
    refine ⟨hlook.breaker, (permits_become hlook.calls hc activity).trans (hm.symm.trans ?_)⟩
    rw [Ledger.permits, Ledger.permits, hlook.entries]
  have hacted := hlook.toActed.cons hstep hchanges
  have hspan := hacted.spans
  have hreports : ∀ activity, Reports tr ((tr.changeBreaker (some id)
      (l.breaker.settle p failed tr.now).1 (l.breaker.settle p failed tr.now).2).1.become id c'
        activity) [] l l' := fun activity => hacted.toReports.trans (reports_same rfl rfl)
  refine ⟨_, l', hacted.run, ?_⟩
  simp only [settlePermit, hl.breaker]
  generalize tr.changeBreaker (some id) (l.breaker.settle p failed tr.now).1
    (l.breaker.settle p failed tr.now).2 = res at hdescribed hspan hreports ⊢
  obtain ⟨tr₁, _ | message⟩ := res
  · exact ⟨hdescribed _, hspan, hreports _⟩
  · exact ⟨hdescribed _, hspan, hreports _⟩

/-- The end without a result is an act that drops. -/
theorem recounts_abandonPermit (hc : tr.calls[id]? = some c) (hp : c.permits = p :: c'.permits)
    (activity : Activity α) : Recounts tr ((tr.abandonPermit p).become id c' activity) := by
  intro l hl
  have hheld : l.permits.Perm (p :: (tr.setCall id c').permits) :=
    hl.permits.symm.trans (permits_setCall_of_loss hc hp)
  obtain ⟨id', l', hstep, hb, hchanges, hl'⟩ := Ledger.exists_drop hheld tr.now
  have habandon : tr.abandonPermit p = tr.setBreaker (l.breaker.abandon p) := by
    simp only [abandonPermit, hl.breaker]
  rw [habandon]
  have hend : Acted tr (tr.setBreaker (l.breaker.abandon p)) [] l' l' [] :=
    acted_nil (congrArg some hb.symm) (beside_setBreaker tr _)
  have hacted := hend.cons hstep hchanges
  refine ⟨_, l', hacted.run, ⟨hacted.breaker, ?_⟩, hacted.spans,
    hacted.toReports.trans (reports_same rfl rfl)⟩
  exact (permits_become rfl hc activity).trans hl'.symm

/-- A call leaves the breaker with a result, or without one if anything panicked. -/
theorem recounts_leaveBreaker (hc : tr.calls[id]? = some c) (hp : c.permits = p :: c'.permits)
    (outcome : Outcome α) : Recounts tr (tr.leaveBreaker id c' p outcome) := by
  cases outcome with
  | panic message => exact recounts_abandonPermit hc hp _
  | value v =>
    unfold leaveBreaker
    exact recounts_settlePermit hc hp _ _
  | error e =>
    unfold leaveBreaker
    dsimp only
    split
    · exact recounts_settlePermit hc hp _ _
    · split
      · exact recounts_abandonPermit hc hp _
      · refine (still_record tr id _).quiet.recounts.trans (recounts_settlePermit ?_ hp _ _)
        exact hc

/-! ## Entering the other layers -/

theorem quiet_awaitTokens (hc : tr.calls[id]? = some c) (r : RateLimiter Float) (n : UInt32)
    (inner : List Stage) : Quiet tr (tr.awaitTokens id c r n inner) := by
  have hset := still_setLimiter tr (r.beginWait n tr.now).1
  unfold awaitTokens
  dsimp only
  split
  · exact hset.become hc rfl _
  · exact hset.refuse hc rfl _
  · exact (hset.trans (still_note ..)).sleep hc rfl _

theorem quiet_passLimiter (hc : tr.calls[id]? = some c) (r : RateLimiter Float)
    (inner : List Stage) : Quiet tr (tr.passLimiter id c r inner) := by
  have hset := still_setLimiter tr (r.allow 1 tr.now).1
  unfold passLimiter
  split
  · exact quiet_awaitTokens hc r 1 inner
  · dsimp only
    split
    · exact hset.become hc rfl _
    · exact (hset.trans (still_note ..)).refuse hc rfl _

theorem quiet_refuseSlot (hc : tr.calls[id]? = some c) (b : Bulkhead Nat) :
    Quiet tr (tr.refuseSlot id c b) :=
  ((still_setBulkhead tr b.reject).trans (still_note ..)).refuse hc rfl _

theorem quiet_occupySlot (hc : tr.calls[id]? = some c) (b : Bulkhead Nat) (inner : List Stage) :
    Quiet tr (tr.occupySlot id c b inner) := by
  refine (still_setBulkhead tr b).become hc ?_ _
  rfl

theorem quiet_passBulkhead (hc : tr.calls[id]? = some c) (b : Bulkhead Nat)
    (inner : List Stage) : Quiet tr (tr.passBulkhead id c b inner) := by
  unfold passBulkhead
  split
  · exact quiet_occupySlot hc _ inner
  · split
    · exact quiet_refuseSlot hc b
    · have hnote := still_note tr (.slotAwaited b.config.maxWait)
      dsimp only
      split
      · exact hnote.refuse hc rfl _
      · exact (hnote.trans (still_setBulkhead ..)).sleep hc rfl _

theorem quiet_passRetry (hc : tr.calls[id]? = some c) (config : Retry.Config Float)
    (inner : List Stage) : Quiet tr (tr.passRetry id c config inner) := by
  unfold passRetry
  split
  · exact (Still.refl tr).refuse hc rfl _
  · refine (Still.refl tr).become hc ?_ _
    rfl

theorem quiet_startRace (hc : tr.calls[id]? = some c) (script : List (Operation α))
    (timeout : Duration) : Quiet tr (tr.startRace id c script timeout) := by
  unfold startRace
  refine Still.sleep (Still.trans ?_ (still_wake _ _)) hc ?_ _
  · exact ⟨rfl, rfl, rfl, rfl, rfl⟩
  · rfl

theorem quiet_work (hc : tr.calls[id]? = some c) : Quiet tr (tr.work id c) := by
  unfold work
  split
  · exact (Still.refl tr).become hc rfl _
  · exact (still_record tr id _).sleep hc rfl _
  · refine (still_record tr id _).sleep hc ?_ _
    rfl

/-! ## Entering and leaving -/

theorem recounts_passLayer (hc : tr.calls[id]? = some c) (inner : List Stage) (layer : Layer) :
    Recounts tr (tr.passLayer id c inner layer) := by
  have hskip : Quiet tr (tr.become id c (.entering inner)) := (Still.refl tr).become hc rfl _
  cases layer with
  | rateLimiter =>
    unfold passLayer
    dsimp only
    split
    · exact (quiet_passLimiter hc _ inner).recounts
    · exact hskip.recounts
  | bulkhead =>
    unfold passLayer
    dsimp only
    split
    · exact (quiet_passBulkhead hc _ inner).recounts
    · exact hskip.recounts
  | circuitBreaker =>
    unfold passLayer
    dsimp only
    split
    · rename_i b hb
      exact recounts_passBreaker hb hc inner
    · exact hskip.recounts
  | retry =>
    unfold passLayer
    dsimp only
    split
    · exact (quiet_passRetry hc _ inner).recounts
    · exact hskip.recounts
  | timeout =>
    unfold passLayer
    dsimp only
    split
    · exact (quiet_startRace hc _ _).recounts
    · exact hskip.recounts

theorem recounts_enterNext (hc : tr.calls[id]? = some c) (stages : List Stage) :
    Recounts tr (tr.enterNext id c stages) := by
  unfold enterNext
  split
  · exact (quiet_work hc).recounts
  · exact recounts_passLayer hc _ _
  · split
    · exact (quiet_awaitTokens hc _ _ _).recounts
    · exact Quiet.recounts ((Still.refl tr).become hc rfl _)

theorem quiet_pause (hc : tr.calls[id]? = some c) {outside : List Frame}
    (hp : Frame.permits outside = c.permits) (config : Retry.Config Float)
    (number : Nat) (e : CallError) : Quiet tr (tr.pause id c outside config number e) := by
  have hdrawn : Still tr { tr with drawn := tr.drawn + 1 } := ⟨rfl, rfl, rfl, rfl, rfl⟩
  unfold pause
  dsimp only
  cases tr.attached.onRetry with
  | none => exact (hdrawn.trans (still_note _ _)).sleep hc rfl _
  | some hook =>
    have htold := hdrawn.trans (still_record _ id
      (.retrying number (config.delay number (tr.attached.draw tr.drawn)) e.message))
    dsimp only
    split
    · exact htold.leave hc hp _
    · exact (htold.trans (still_note _ _)).sleep hc rfl _

theorem quiet_leaveFailedAttempt (hc : tr.calls[id]? = some c) {outside : List Frame}
    (hp : Frame.permits outside = c.permits) (number : Nat) (e : CallError) :
    Quiet tr (tr.leaveFailedAttempt id c outside number e) := by
  unfold leaveFailedAttempt
  split
  · exact (Still.refl tr).leave hc hp _
  · rename_i config _
    have hgo : ∀ {tr₁ : Traffic α} (worthIt : Bool), Still tr tr₁ →
        Quiet tr (if worthIt && config.mayFollow number then tr₁.pause id c outside config number e
          else tr₁.become id { c with frames := outside } (.leaving (.error e))) := by
      intro tr₁ worthIt hstill
      split
      · refine hstill.quiet.trans (quiet_pause ?_ hp config number e)
        exact hstill.calls ▸ hc
      · exact hstill.leave hc hp _
    cases tr.attached.retryIf with
    | none => exact hgo true (.refl tr)
    | some judge =>
      dsimp only
      cases judge e.failure with
      | error message => exact (Still.refl tr).leave hc hp _
      | ok verdict => exact hgo verdict (still_record tr id (.judgedRetry e.message verdict))

theorem recounts_leaveNext (hc : tr.calls[id]? = some c) (outcome : Outcome α) :
    Recounts tr (tr.leaveNext id c outcome) := by
  have hframes : c.permits = Frame.permits c.frames := rfl
  unfold leaveNext
  split
  · exact Quiet.recounts ((still_record tr id _).become hc rfl _)
  · rename_i outside heq
    have hp : Frame.permits outside = c.permits := by rw [hframes, heq]; rfl
    exact Quiet.recounts ((still_releaseSlot tr).leave hc hp _)
  · rename_i p outside heq
    have hp : c.permits = p :: Frame.permits outside := by rw [hframes, heq]; rfl
    refine recounts_leaveBreaker hc ?_ outcome
    exact hp
  · rename_i number inner outside heq
    have hp : Frame.permits outside = c.permits := by rw [hframes, heq]; rfl
    split
    · exact (quiet_leaveFailedAttempt hc hp _ _).recounts
    · exact Quiet.recounts ((Still.refl tr).leave hc hp _)

/-! ## Sleeping -/

theorem quiet_resumeTokens (hc : tr.calls[id]? = some c) {n : UInt32} {due : Nat}
    {inner : List Stage} (h : tr.resumeTokens id c n due inner = some tr') : Quiet tr tr' := by
  unfold resumeTokens at h
  split at h
  · obtain rfl := Option.some.inj h
    exact (Still.refl tr).refuse hc rfl _
  · split at h
    · cases h
    · split at h
      · obtain rfl := Option.some.inj h
        exact (Still.refl tr).become hc rfl _
      · rename_i r _
        obtain rfl := Option.some.inj h
        have hset := still_setLimiter tr (r.allow n tr.now).1
        split
        · exact hset.become hc rfl _
        · exact (hset.trans (still_note _ _)).refuse hc rfl _

theorem quiet_resumeSlot (hc : tr.calls[id]? = some c) {due : Nat} {inner : List Stage}
    (h : tr.resumeSlot id c due inner = some tr') : Quiet tr tr' := by
  unfold resumeSlot at h
  split at h
  · obtain rfl := Option.some.inj h
    exact (still_leaveQueue tr id).refuse hc rfl _
  · split at h
    · obtain rfl := Option.some.inj h
      exact (Still.refl tr).become hc rfl _
    · split at h
      · obtain rfl := Option.some.inj h
        exact quiet_occupySlot hc _ inner
      · split at h
        · cases h
        · obtain rfl := Option.some.inj h
          exact quiet_refuseSlot hc _

theorem quiet_resumePause (hc : tr.calls[id]? = some c) {due : Nat}
    (h : tr.resumePause id c due = some tr') : Quiet tr tr' := by
  have hframes : c.permits = Frame.permits c.frames := rfl
  unfold resumePause at h
  split at h
  · rename_i number inner outside heq
    have hp : Frame.permits outside = c.permits := by rw [hframes, heq]; rfl
    split at h
    · obtain rfl := Option.some.inj h
      exact (Still.refl tr).leave hc hp _
    · split at h
      · cases h
      · obtain rfl := Option.some.inj h
        refine (Still.refl tr).leave hc ?_ _
        exact hp
  · obtain rfl := Option.some.inj h
    exact (Still.refl tr).refuse hc rfl _

theorem quiet_resumeOperation (hc : tr.calls[id]? = some c) {number : Nat} {op : Operation α}
    {due : Option Nat} (h : tr.resumeOperation id c number op due = some tr') : Quiet tr tr' := by
  obtain ⟨⟨outcome, ending⟩, -, rfl⟩ := Option.map_eq_some_iff.mp h
  exact (still_recordRun tr id number ending).become hc rfl _

theorem quiet_resumeRace (hc : tr.calls[id]? = some c) {run : Nat} {deadline : TokenId}
    {due : Nat} (h : tr.resumeRace id c run deadline due = some tr') : Quiet tr tr' := by
  unfold resumeRace at h
  split at h
  · obtain rfl := Option.some.inj h
    exact (still_endRace tr deadline).refuse hc rfl _
  · split at h
    · obtain rfl := Option.some.inj h
      exact (still_endRace tr deadline).become hc rfl _
    · split at h
      · cases h
      · obtain rfl := Option.some.inj h
        exact ((still_note tr _).trans (still_endRace _ deadline)).refuse hc rfl _

theorem quiet_resumeHold (hc : tr.calls[id]? = some c) (h : tr.resumeHold id c = some tr') :
    Quiet tr tr' := by
  unfold resumeHold at h
  split at h
  · obtain rfl := Option.some.inj h
    exact (Still.refl tr).become hc rfl _
  · cases h

/-! ## Steps -/

/-- A step of a call is a run of the ledger. -/
theorem recounts_step (h : tr.step id = some tr') : Recounts tr tr' := by
  obtain ⟨c, hc, h⟩ := Option.bind_eq_some_iff.mp h
  split at h
  · obtain rfl := Option.some.inj h
    exact recounts_enterNext hc _
  · obtain rfl := Option.some.inj h
    exact recounts_leaveNext hc _
  · exact (quiet_resumeTokens hc h).recounts
  · exact (quiet_resumeSlot hc h).recounts
  · exact (quiet_resumePause hc h).recounts
  · exact (quiet_resumeOperation hc h).recounts
  · exact (quiet_resumeRace hc h).recounts
  · exact (quiet_resumeHold hc h).recounts
  · cases h

/-! ## Calls that are dropped -/

/-- All permits that frames hold are handed back, one after the other. -/
theorem acted_abandonFrames (frames : List Frame) {rest : List Permit}
    (hb : tr.layers.circuitBreaker = some l.breaker)
    (hp : l.permits.Perm (Frame.permits frames ++ rest)) :
    ∃ acts l', Acted tr (frames.foldl abandonFrame tr) [] l l' acts ∧ l'.permits.Perm rest := by
  induction frames generalizing tr l with
  | nil => exact ⟨[], l, acted_nil hb ⟨rfl, rfl, rfl, rfl⟩, hp⟩
  | cons frame frames ih =>
    cases frame with
    | slot =>
      have hstill := still_releaseSlot tr
      obtain ⟨acts, l', h, hl'⟩ := ih (hstill.breaker.trans hb) hp
      exact ⟨acts, l', hstill.beside.acted h, hl'⟩
    | permit p =>
      obtain ⟨id, m, hstep, hm, hchanges, hperm⟩ := Ledger.exists_drop hp tr.now
      have habandon : tr.abandonPermit p = tr.setBreaker m.breaker := by
        simp only [abandonPermit, hb, hm]
      have hb' : (tr.abandonPermit p).layers.circuitBreaker = some m.breaker := by
        rw [habandon]; rfl
      obtain ⟨acts, l', h, hl'⟩ := ih hb' hperm
      have hbeside : Beside tr (tr.abandonPermit p) := by
        rw [habandon]
        exact beside_setBreaker tr _
      exact ⟨_, l', (hbeside.acted h).cons hstep hchanges, hl'⟩
    | attempt number inner => exact ih hb hp

/-- The end of a call that its caller drops is a run of the ledger. -/
theorem recounts_abandon (tr : Traffic α) (id : Nat) : Recounts tr (tr.abandon id) := by
  unfold abandon
  split
  · exact (Still.refl tr).quiet.recounts
  · rename_i c hc
    intro l hl
    have hstill := still_abandonActivity tr id c.activity
    obtain ⟨acts, l', h, hl'⟩ := acted_abandonFrames c.frames (hstill.breaker.trans hl.breaker)
      (hl.permits.symm.trans (permits_perm hc))
    have hacted := hstill.beside.acted h
    -- The call has no frames any more, so only what the others hold is left.
    have hset := permits_setCall_perm (hacted.calls ▸ hc)
      { c with frames := [], activity := .ended }
    refine ⟨acts, l', h.run, ⟨h.breaker, ?_⟩, hacted.spans,
      hacted.toReports.trans (reports_same rfl rfl)⟩
    rw [hacted.calls] at hset
    exact hset.trans hl'.symm

end Safeguard.Traffic
