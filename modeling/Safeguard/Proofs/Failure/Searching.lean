import Safeguard.Failure

/-!
# What a search finds in an error and its sources

A predicate is handed an error of which it knows nothing, and looks for an error of some type: the
error itself is looked at first, then its source, then the source of that. Errors may be of any
types, and nothing keeps sources from going round in a circle, so a search is described here as a
course that may or may not come to an end. Where the sources do, the search does, with the first
error of the type, and it finds nothing exactly if there is none.

The failures of calls are errors of that sort, and for them the search is a function. A call wraps
what it ends in. As the wrapper is passed over by every search for something else, a judgement that
rests on such searches is the same with the wrapper and without it.

## Main definitions

* `Sourced`: errors that may have a source.
* `Sourced.Chain`: the errors from one on, if their sources come to an end.
* `Sourced.Search`: the course of a search.
* `Sourced.IsFirst`: what is to be found.
* `Predicate.RestsOnSearches`: a judgement that looks at an error in no other way.

## Main results

* `Sourced.Chain.search_iff_isFirst`: what a search finds where the sources come to an end.
* `Sourced.search_of_source`: an error that is not looked for is searched like its source.
* `Failure.search_iff`: a search in a failure is `Failure.findSource`.
* `Predicate.restsOnSearches_codes`, `Predicate.restsOnSearches_layerErrors`: the predicates that
  look for an error of the operation, or for a layer's.
* `Failure.first_along_sources`: all of this for every error, and what it means for the failures of
  calls.
-/

namespace Safeguard

/-- Errors of any types. Each may have another one as its source. -/
class Sourced (ε : Type) where
  /-- The source of an error. -/
  source? : ε → Option ε

namespace Sourced

/-! ## Searches -/

/-- What the first error of a list that is of a type is as a value of that type; nothing if there
is none. The selection stands for the type: it gives an error as a value of the type, if it is of
the type. -/
def IsFirst {ε β : Type} (select : ε → Option β) (es : List ε) : Option β → Prop
  | some b => ∃ before e after,
      es = before ++ e :: after ∧ (∀ x ∈ before, select x = none) ∧ select e = some b
  | none => ∀ e ∈ es, select e = none

theorem isFirst_iff {ε β : Type} {select : ε → Option β} {es : List ε} {r : Option β} :
    IsFirst select es r ↔ es.findSome? select = r := by
  cases r with
  | none => exact List.findSome?_eq_none_iff.symm
  | some b =>
    rw [List.findSome?_eq_some_iff]
    simp only [IsFirst, and_comm]

variable {ε β : Type} [Sourced ε] {select : ε → Option β} {current : Option ε} {e : ε}
  {es : List ε} {r : Option β}

/-- The errors from one on, outermost first, if their sources come to an end. -/
inductive Chain : Option ε → List ε → Prop where
  | nil : Chain none []
  | cons {e : ε} {es : List ε} (rest : Chain (source? e) es) : Chain (some e) (e :: es)

/-- A search for errors of a type, from the error that it looks at next to its answer. -/
inductive Search (select : ε → Option β) : Option ε → Option β → Prop where
  /-- No error is left. -/
  | ended : Search select none none
  /-- The error is of the type. -/
  | found {e : ε} {b : β} (hit : select e = some b) : Search select (some e) (some b)
  /-- The error is of another type, and its source is next. -/
  | onward {e : ε} {r : Option β} (miss : select e = none) (rest : Search select (source? e) r) :
      Search select (some e) r

theorem search_none : Search select none r ↔ none = r :=
  ⟨fun .ended => rfl, fun h => h ▸ .ended⟩

/-- An error of the type ends the search. -/
theorem search_of_hit {b : β} (hit : select e = some b) :
    Search select (some e) r ↔ some b = r := by
  constructor
  · rintro (_ | hit' | ⟨miss, _⟩)
    · exact hit.symm.trans hit'
    · cases hit.symm.trans miss
  · rintro rfl
    exact .found hit

/-- An error of another type is passed over. -/
theorem search_of_miss (miss : select e = none) :
    Search select (some e) r ↔ Search select (source? e) r := by
  constructor
  · rintro (_ | hit | ⟨_, rest⟩)
    · cases hit.symm.trans miss
    · exact rest
  · exact .onward miss

/-- An error of another type is searched like its source. -/
theorem search_of_source {w : ε} (hsource : source? w = some e) (miss : select w = none) :
    Search select (some w) r ↔ Search select (some e) r := by
  rw [search_of_miss miss, hsource]

/-- Where the sources come to an end, so does the search, in one way only. -/
theorem Chain.search_iff (h : Chain current es) :
    Search select current r ↔ es.findSome? select = r := by
  -- A turn of the search takes one error of the chain, so the end of the chain bounds the turns.
  induction h with
  | nil => exact search_none
  | @cons e es rest ih =>
    rw [List.findSome?_cons]
    cases hselect : select e with
    | some b => exact search_of_hit hselect
    | none => exact (search_of_miss hselect).trans ih

/-- What is found is the first error of the type. -/
theorem Chain.search_iff_isFirst (h : Chain current es) :
    Search select current r ↔ IsFirst select es r :=
  h.search_iff.trans isFirst_iff.symm

end Sourced

/-! ## Failures -/

namespace Failure

open Sourced (Chain Search IsFirst)

variable {β : Type} {pick : Cause → Option β} {r : Option β}

instance : Sourced Failure := ⟨Failure.source?⟩

@[simp] theorem chain_root (c : Cause) : (root c).chain = [c] := rfl

@[simp] theorem chain_because (c : Cause) (s : Failure) : (because c s).chain = c :: s.chain := rfl

/-- The sources of a failure come to an end. -/
theorem chain_errors (f : Failure) : Chain (some f) f.errors := by
  induction f with
  | root c => exact .cons .nil
  | because c s ih => exact .cons ih

/-- A link that is not looked for is passed over. -/
theorem findSource_because_of_miss {c : Cause} (miss : pick c = none) (s : Failure) :
    (because c s).findSource pick = s.findSource pick := by
  rw [findSource, miss]

/-- The links are looked at in turn. -/
theorem findSome?_chain (pick : Cause → Option β) (f : Failure) :
    f.chain.findSome? pick = f.findSource pick := by
  induction f with
  | root c =>
    rw [chain_root, List.findSome?_cons, findSource]
    cases pick c <;> rfl
  | because c s ih =>
    rw [chain_because, List.findSome?_cons, ih, findSource]
    cases pick c <;> rfl

/-- A search in a failure ends with what `findSource` gives. -/
theorem search_iff {f : Failure} :
    Search (pick ∘ head) (some f) r ↔ f.findSource pick = r := by
  rw [f.chain_errors.search_iff, ← findSome?_chain, chain, List.findSome?_map]

end Failure

/-! ## Judgements -/

namespace Predicate

/-- A judgement looks at an error through searches only, none of which is for the wrapper of a
call: errors in which all such searches find the same are judged alike. -/
def RestsOnSearches (judge : Predicate) : Prop :=
  ∀ f g : Failure,
    (∀ (β : Type) (pick : Cause → Option β), pick .call = none →
      f.findSource pick = g.findSource pick) →
    judge f = judge g

theorem restsOnSearches_codes (listed : List Int) (otherwise : Bool) :
    (codes listed otherwise).RestsOnSearches := by
  intro f g h
  rw [codes, h Int Cause.code? rfl, codes]

theorem restsOnSearches_layerErrors (listed : List LayerError) (otherwise : Bool) :
    (layerErrors listed otherwise).RestsOnSearches := by
  intro f g h
  rw [layerErrors, h LayerError Cause.layer? rfl, layerErrors]

/-- An error of the operation is judged alike with the wrapper and without it. -/
theorem RestsOnSearches.judge_operation {judge : Predicate} (h : judge.RestsOnSearches)
    (f : Failure) : judge (CallError.operation f).failure = judge f :=
  -- The judgement may search as often as it likes: no search tells the two errors apart.
  h _ _ fun _ _ miss => Failure.findSource_because_of_miss miss f

end Predicate

namespace Failure

open Sourced (Chain Search IsFirst)

/-- For errors of any types and whatever is looked for: if the sources of an error come to an end,
a search comes to an end as well, and to one only, with the first error of the type, starting at
the error itself, or with nothing exactly if none is of the type. An error of another type, such as
a wrapper, is searched like its source, so what is wrapped is found if it is of the type.

In a failure this end is what `findSource` gives. So a layer's error is found in the wrapper that a
call puts around it, and a search for anything but the wrapper finds in a wrapped error of the
operation what it finds in the bare one, as does a judgement that rests on such searches. -/
theorem first_along_sources {ε β : Type} [Sourced ε] (select : ε → Option β) (e : ε)
    (pick : Cause → Option β) (f : Failure) :
    (∀ es, Chain (some e) es →
        (∃ r, Search select (some e) r) ∧
          ∀ r, Search select (some e) r ↔ IsFirst select es r) ∧
      (∀ w, Sourced.source? w = some e → select w = none →
        (∀ r, Search select (some w) r ↔ Search select (some e) r) ∧
          ∀ b, select e = some b → ∀ r, Search select (some w) r ↔ some b = r) ∧
      (∀ r, Search (pick ∘ head) (some f) r ↔ f.findSource pick = r) ∧
      IsFirst pick f.chain (f.findSource pick) ∧
      (∀ k, (CallError.layer k).failure.findSource Cause.layer? = some k) ∧
      (pick .call = none →
        (CallError.operation f).failure.findSource pick = f.findSource pick) ∧
      ∀ judge : Predicate, judge.RestsOnSearches →
        judge (CallError.operation f).failure = judge f := by
  refine ⟨fun es hes => ?_, fun w hw miss => ?_, fun _ => search_iff, ?_, fun _ => rfl,
    fun miss => ?_, fun judge hjudge => ?_⟩
  · exact ⟨⟨_, hes.search_iff.mpr rfl⟩, fun _ => hes.search_iff_isFirst⟩
  · have hpassed (r : Option β) : Search select (some w) r ↔ Search select (some e) r :=
      Sourced.search_of_source hw miss
    exact ⟨hpassed, fun b hit r => (hpassed r).trans (Sourced.search_of_hit hit)⟩
  · exact Sourced.isFirst_iff.mpr (findSome?_chain pick f)
  · exact findSource_because_of_miss miss f
  · exact hjudge.judge_operation f

/-- An error of the operation that passes on how another call failed. -/
def relayed : Failure :=
  .because (.operation 7 "request")
    (.because .call (.because (.operation 3 "upstream") (.root (.layer .timedOut))))

theorem first_along_sources_relayed :
    let wrapped := (CallError.operation relayed).failure
    let byCode := Predicate.codes [3] true
    let byLayer := Predicate.layerErrors [.timedOut] false
    (Chain (some relayed) relayed.errors ∧ Sourced.source? wrapped = some relayed ∧
        Cause.code? wrapped.head = none ∧ Cause.code? .call = none ∧
        byCode.RestsOnSearches ∧ byLayer.RestsOnSearches) ∧
      IsFirst (Cause.code? ∘ head) relayed.errors (some 7) ∧
      (∀ r, Search (Cause.code? ∘ head) (some wrapped) r ↔ some 7 = r) ∧
      IsFirst Cause.code? relayed.chain (some 7) ∧
      wrapped.findSource Cause.code? = some 7 ∧
      byCode wrapped = .ok false ∧ byLayer wrapped = .ok true := by
  intro wrapped byCode byLayer
  have hbyCode : byCode.RestsOnSearches := Predicate.restsOnSearches_codes [3] true
  have hbyLayer : byLayer.RestsOnSearches := Predicate.restsOnSearches_layerErrors [.timedOut] false
  obtain ⟨hends, hpassed, hsearch, hfirst, -, hbare, hjudged⟩ :=
    first_along_sources (Cause.code? ∘ head) relayed Cause.code? relayed
  have hfound : Search (Cause.code? ∘ head) (some relayed) (some 7) := (hsearch _).mpr rfl
  exact ⟨⟨relayed.chain_errors, rfl, rfl, rfl, hbyCode, hbyLayer⟩,
    ((hends _ relayed.chain_errors).2 _).mp hfound, (hpassed wrapped rfl rfl).2 7 rfl,
    hfirst, hbare rfl, hjudged byCode hbyCode, hjudged byLayer hbyLayer⟩

end Failure

end Safeguard
