import Safeguard.Proofs.Json.Members
import Safeguard.Proofs.Json.Sources
import Safeguard.Resilience.Layers

/-!
# Texts that say the same about a configuration

Each section of a configuration, and the configuration as a whole, is a record whose members are
separate places. So a text is decoded to the same configuration when its members come in another
order, when members that nobody knows come in or go, and when members at their defaults go,
and what happens inside a section happens inside the configuration as well. The array of all
values says the same as the object. An object that names a known member twice is never decoded.

## Main definitions

* `Resilience.Part`: a section, or the whole configuration.
* `Resilience.Part.Rearranged`: a text is turned into another one by such changes.

## Main results

* `Resilience.Part.isRecord`: sections and configurations are records of separate places.
* `Resilience.Part.Rearranged.read_eq_ok`: these changes do not change what is decoded.
* `Resilience.Part.parse_depends_on_values`: the same for whole texts, with arrays of all values
  and members that are named twice.
-/

namespace Safeguard

open Json

/-! ## Records -/

section Records

open Field

attribute [ext] RateLimiter.Config Bulkhead.Config CircuitBreaker.Config Retry.Config
  Timeout.Config Resilience.Config

theorem RateLimiter.Config.isRecord : RateLimiter.Config.schema.IsRecord where
  defaults := rfl
  start := by decide +kernel
  names := by decide
  places := by simp [schema, isPlace_of]
  apart := by simp [schema, commutes_of]
  complete t t' h := by
    simp only [schema, List.forall_mem_cons] at h
    obtain ⟨hrate, hburst, hwait, hmaxWait, -⟩ := h
    ext1
    · exact eq_of_holds_of (fun _ _ => rfl) hrate
    · exact eq_of_holds_of (fun _ _ => rfl) hburst
    · exact eq_of_holds_of (fun _ _ => rfl) hwait
    · exact eq_of_holds_of (fun _ _ => rfl) hmaxWait

theorem Bulkhead.Config.isRecord : Bulkhead.Config.schema.IsRecord where
  defaults := rfl
  start := by decide +kernel
  names := by decide
  places := by simp [schema, isPlace_of]
  apart := by simp [schema, commutes_of]
  complete t t' h := by
    simp only [schema, List.forall_mem_cons] at h
    obtain ⟨hconcurrent, hmaxWait, -⟩ := h
    ext1
    · exact eq_of_holds_of (fun _ _ => rfl) hconcurrent
    · exact eq_of_holds_of (fun _ _ => rfl) hmaxWait

theorem CircuitBreaker.Config.isRecord : CircuitBreaker.Config.schema.IsRecord where
  defaults := rfl
  start := by decide +kernel
  names := by decide
  places := by simp [schema, isPlace_of]
  apart := by simp [schema, commutes_of]
  complete t t' h := by
    simp only [schema, List.forall_mem_cons] at h
    obtain ⟨hfailure, hsuccess, hcooldown, hprobes, -⟩ := h
    ext1
    · exact eq_of_holds_of (fun _ _ => rfl) hfailure
    · exact eq_of_holds_of (fun _ _ => rfl) hsuccess
    · exact eq_of_holds_of (fun _ _ => rfl) hcooldown
    · exact eq_of_holds_of (fun _ _ => rfl) hprobes

theorem Retry.Config.isRecord : Retry.Config.schema.IsRecord where
  defaults := rfl
  start := by decide +kernel
  names := by decide
  places := by simp [schema, isPlace_of]
  apart := by simp [schema, commutes_of]
  complete t t' h := by
    simp only [schema, List.forall_mem_cons] at h
    obtain ⟨hattempts, hinitial, hmax, hmultiplier, hbackoff, hjitter, -⟩ := h
    ext1
    · exact eq_of_holds_of (fun _ _ => rfl) hattempts
    · exact eq_of_holds_of (fun _ _ => rfl) hinitial
    · exact eq_of_holds_of (fun _ _ => rfl) hmax
    · exact eq_of_holds_of (fun _ _ => rfl) hmultiplier
    · exact eq_of_holds_of (fun _ _ => rfl) hbackoff
    · exact eq_of_holds_of (fun _ _ => rfl) hjitter

theorem Timeout.Config.isRecord : Timeout.Config.schema.IsRecord where
  defaults := rfl
  start := by decide +kernel
  names := by decide
  places := by simp [schema, isPlace_of]
  apart := by simp [schema]
  complete t t' h := by
    simp only [schema, List.forall_mem_cons] at h
    ext1
    exact eq_of_holds_of (fun _ _ => rfl) h.1

theorem Resilience.Config.isRecord : Resilience.Config.schema.IsRecord where
  defaults := rfl
  start := by decide +kernel
  names := by decide
  places := by simp [schema, isPlace_optional]
  apart := by simp [schema, commutes_optional]
  complete t t' h := by
    simp only [schema, List.forall_mem_cons] at h
    obtain ⟨hlimiter, hbulkhead, hbreaker, hretry, htimeout, -⟩ := h
    ext1
    · exact eq_of_holds_optional (fun _ _ => rfl) hlimiter
    · exact eq_of_holds_optional (fun _ _ => rfl) hbulkhead
    · exact eq_of_holds_optional (fun _ _ => rfl) hbreaker
    · exact eq_of_holds_optional (fun _ _ => rfl) hretry
    · exact eq_of_holds_optional (fun _ _ => rfl) htimeout

end Records

/-! ## Parts of a configuration -/

/-- The section of a layer. -/
def Layer.Config : Layer → Type
  | .rateLimiter => RateLimiter.Config Float
  | .bulkhead => Bulkhead.Config
  | .circuitBreaker => CircuitBreaker.Config
  | .retry => Retry.Config Float
  | .timeout => Timeout.Config

/-- The section of a layer as a record. -/
def Layer.schema : (l : Layer) → Schema l.Config
  | .rateLimiter => RateLimiter.Config.schema
  | .bulkhead => Bulkhead.Config.schema
  | .circuitBreaker => CircuitBreaker.Config.schema
  | .retry => Retry.Config.schema
  | .timeout => Timeout.Config.schema

theorem Layer.isRecord (l : Layer) : l.schema.IsRecord := by
  cases l with
  | rateLimiter => exact RateLimiter.Config.isRecord
  | bulkhead => exact Bulkhead.Config.isRecord
  | circuitBreaker => exact CircuitBreaker.Config.isRecord
  | retry => exact Retry.Config.isRecord
  | timeout => exact Timeout.Config.isRecord

/-- The member of a configuration for a section stores what is read as the section. There is none
by default. -/
theorem Resilience.Config.exists_sectionField (l : Layer) :
    ∃ f ∈ schema.fields, f.name = l.name ∧ ∃ set : Option l.Config → Config → Config,
      f.Stores l.schema.codec.option set ∧ set none schema.start = schema.start := by
  cases l with
  | rateLimiter => exact ⟨_, .head _, rfl, _, Field.stores_optional, rfl⟩
  | bulkhead => exact ⟨_, .tail _ (.head _), rfl, _, Field.stores_optional, rfl⟩
  | circuitBreaker => exact ⟨_, .tail _ (.tail _ (.head _)), rfl, _, Field.stores_optional, rfl⟩
  | retry => exact ⟨_, .tail _ (.tail _ (.tail _ (.head _))), rfl, _, Field.stores_optional, rfl⟩
  | timeout =>
    exact ⟨_, .tail _ (.tail _ (.tail _ (.tail _ (.head _)))), rfl, _, Field.stores_optional, rfl⟩

namespace Resilience

/-- A section, or the whole configuration. -/
inductive Part where
  | layer (l : Layer)
  | whole

namespace Part

/-- What a part is read as. -/
def Config : Part → Type
  | layer l => l.Config
  | whole => Resilience.Config

/-- A part as a record. -/
def schema : (p : Part) → Schema p.Config
  | layer l => l.schema
  | whole => Resilience.Config.schema

/-- Parts in JSON. -/
def codec (p : Part) : Codec p.Config := p.schema.codec

theorem isRecord : (p : Part) → p.schema.IsRecord
  | layer l => l.isRecord
  | whole => Resilience.Config.isRecord

/-- A member that nobody knows. -/
def Unknown (p : Part) (m : Member Source) : Prop :=
  ∃ name, Mark.content m.name = some name ∧ ∀ f ∈ p.schema.fields, f.name ≠ name

/-- A member whose value is the one that the part has by default. -/
def AtDefault (p : Part) (m : Member Source) : Prop :=
  ∃ f ∈ p.schema.fields, Mark.content m.name = some f.name ∧
    f.Holds p.schema.start m.value.doc

/-- The text of a part is changed into another one. Members change their places, unknown members
come in or go with whatever value, and members at their defaults go. The same may happen inside
of a section. Blanks, escapes and the layout of numbers do not matter at all. -/
inductive Rearranged : Part → Source → Source → Prop
  | respell {p : Part} {t t' : Source} (h : t.doc = t'.doc) : Rearranged p t t'
  | reorder {p : Part} {members members' : List (Member Source)} (last : Gap)
      (h : members.Perm members') : Rearranged p (.object members last) (.object members' last)
  | insert {p : Part} {m : Member Source} (members : List (Member Source)) (last : Gap)
      (h : p.Unknown m) : Rearranged p (.object members last) (.object (m :: members) last)
  | forget {p : Part} {m : Member Source} (members : List (Member Source)) (last : Gap)
      (h : p.Unknown m) : Rearranged p (.object (m :: members) last) (.object members last)
  | remove {p : Part} {m : Member Source} (members : List (Member Source)) (last : Gap)
      (h : p.AtDefault m) : Rearranged p (.object (m :: members) last) (.object members last)
  | within {l : Layer} {m : Member Source} {value : Source} (members : List (Member Source))
      (last : Gap) (hname : Mark.content m.name = some l.name)
      (h : Rearranged (layer l) m.value value) :
      Rearranged whole (.object (m :: members) last)
        (.object ({ m with value := value } :: members) last)
  | trans {p : Part} {t t' t'' : Source} (h : Rearranged p t t') (h' : Rearranged p t' t'') :
      Rearranged p t t''

variable {p : Part} {t t' : Source} {m : Member Source} {members : List (Member Source)}
  {last : Gap} {c : p.Config}

/-- A section that is `null` says what a configuration has by default. -/
theorem atDefault_of_null {l : Layer} (hname : Mark.content m.name = some l.name)
    (hvalue : m.value = .null) : whole.AtDefault m := by
  obtain ⟨f, hf, hlayer, set, hstores, hnone⟩ := Resilience.Config.exists_sectionField l
  refine ⟨f, hf, by rw [hname, hlayer], ?_⟩
  rw [hvalue, Source.doc]
  exact hstores.eq_ok.mpr ⟨none, rfl, hnone⟩

theorem read_object_eq_ok :
    p.codec.read (Source.object members last).doc = .ok c ↔
      p.schema.Reads (Source.membersDoc members) c := by
  rw [Source.doc]
  exact Schema.readObject_eq_ok p.isRecord

theorem Unknown.known?_eq_none (h : p.Unknown m) :
    p.schema.known? (.text (Mark.content m.name), m.value.doc) = none := by
  obtain ⟨name, hname, hne⟩ := h
  rw [hname]
  exact Schema.known?_eq_none hne _

theorem Unknown.readable (h : p.Unknown m) :
    p.schema.Readable (.text (Mark.content m.name), m.value.doc) := by
  obtain ⟨name, hname, -⟩ := h
  rw [hname]
  exact Schema.readable_of_skip m.value.skip_doc

/-- A section that is `null` stays so. -/
theorem Rearranged.doc_eq_null (h : Rearranged p t t') (ht : t.doc = .null) : t'.doc = .null := by
  induction h with
  | respell h => rw [← h, ht]
  | trans _ _ ih ih' => exact ih' (ih ht)
  | _ =>
    rw [Source.doc] at ht
    cases ht

/-- What may be absent is read alike if what is there is read alike. -/
theorem option_read_eq_ok {σ : Type} {s : Schema σ} {d d' : Doc} {v : Option σ}
    (hnull : d = .null → d' = .null) (hread : ∀ r, s.codec.read d = .ok r → s.codec.read d' = .ok r)
    (h : s.codec.option.read d = .ok v) : s.codec.option.read d' = .ok v := by
  by_cases hd : d = .null
  · rwa [hnull hd, ← hd]
  · have hoption {e : Doc} (he : e ≠ .null) :
        s.codec.option.read e = (s.codec.read e).map some := by
      cases e <;> first | rfl | exact absurd rfl he
    rw [hoption hd] at h
    obtain ⟨r, hr, rfl⟩ := exists_of_map_eq_ok h
    have hr' := hread r hr
    -- No record is `null`.
    have hd' : d' ≠ .null := by
      rintro rfl
      cases hr'
    rw [hoption hd', hr']
    rfl

/-- These changes do not change what is decoded. -/
theorem Rearranged.read_eq_ok (h : Rearranged p t t') (hread : p.codec.read t.doc = .ok c) :
    p.codec.read t'.doc = .ok c := by
  induction h with
  | respell h => rwa [← h]
  | reorder last h =>
    rw [read_object_eq_ok] at hread ⊢
    refine hread.perm (isRecord _) ?_
    rw [Source.membersDoc_eq_map, Source.membersDoc_eq_map]
    exact h.map _
  | insert members last h =>
    rw [read_object_eq_ok, Source.membersDoc_eq_map] at hread ⊢
    exact (Schema.reads_cons_unknown h.known?_eq_none).mpr ⟨h.readable, hread⟩
  | forget members last h =>
    rw [read_object_eq_ok, Source.membersDoc_eq_map] at hread ⊢
    exact ((Schema.reads_cons_unknown h.known?_eq_none).mp hread).2
  | remove members last h =>
    -- Reading starts from the defaults, so a member at its default stores nothing new.
    obtain ⟨f, hf, hname, hstart⟩ := h
    rw [read_object_eq_ok, Source.membersDoc_eq_map] at hread ⊢
    rw [List.map_cons, hname] at hread
    exact hread.of_default (Schema.known?_eq_some (isRecord _) hf _) hstart
  | @within l m value members last hname h ih =>
    obtain ⟨f, hf, hlayer, set, hstores, -⟩ := Resilience.Config.exists_sectionField l
    rw [read_object_eq_ok, Source.membersDoc_eq_map] at hread ⊢
    rw [List.map_cons, hname, ← hlayer] at hread ⊢
    refine hread.replace (Schema.known?_eq_some (isRecord whole) hf _)
      (Schema.known?_eq_some (isRecord whole) hf _) fun t t' hstore => ?_
    -- The changed section is read as before, so the same is stored.
    obtain ⟨v, hv, hset⟩ := hstores.eq_ok.mp hstore
    exact hstores.eq_ok.mpr ⟨v, option_read_eq_ok h.doc_eq_null (fun _ => ih) hv, hset⟩
  | trans _ _ ih ih' => exact ih' (ih hread)

/-- The items of an array are the values of a part, in the order of its members. -/
def Values (p : Part) (c : p.Config) (items : List (Item Source)) : Prop :=
  List.Forall₂ (fun f i => f.Holds c i.value.doc) p.schema.fields items

/-- The array of all values is decoded to the part. -/
theorem Values.read_eq_ok {items : List (Item Source)} (h : p.Values c items) (last : Gap) :
    p.codec.read (Source.array items last).doc = .ok c := by
  rw [Source.doc, Source.itemsDoc_eq_map]
  exact Schema.readItems_of_holds p.isRecord (List.forall₂_map_right_iff.mpr h)

theorem exists_of_mem_known {q : Json.Field p.Config × Doc}
    (hq : q ∈ p.schema.known (Source.membersDoc members)) :
    ∃ m ∈ members, Mark.content m.name = some q.1.name ∧ m.value.doc = q.2 := by
  rw [Source.membersDoc_eq_map] at hq
  obtain ⟨pair, hpair, hknown⟩ := List.mem_filterMap.mp hq
  obtain ⟨m, hm, rfl⟩ := List.mem_map.mp hpair
  have heq := (Schema.exists_of_known?_eq_some hknown).2
  simp only [Prod.mk.injEq, Doc.text.injEq] at heq
  exact ⟨m, hm, heq⟩

variable {f : Json.Field p.Config}

/-- The value of a known member is what the part has there. -/
theorem holds_of_named (hread : p.codec.read (Source.object members last).doc = .ok c)
    (hf : f ∈ p.schema.fields) (hm : m ∈ members)
    (hname : Mark.content m.name = some f.name) : f.Holds c m.value.doc := by
  refine (read_object_eq_ok.mp hread).holds p.isRecord (p := (f, m.value.doc)) ?_
  rw [Source.membersDoc_eq_map]
  refine List.mem_filterMap.mpr ⟨_, List.mem_map_of_mem hm, ?_⟩
  rw [hname]
  exact Schema.known?_eq_some p.isRecord hf _

/-- Of a member that no one names, the part has the default. -/
theorem holds_of_not_named (hread : p.codec.read (Source.object members last).doc = .ok c)
    (hf : f ∈ p.schema.fields) (hnone : ∀ m ∈ members, Mark.content m.name ≠ some f.name)
    {d : Doc} (hstart : f.Holds p.schema.start d) : f.Holds c d := by
  refine (read_object_eq_ok.mp hread).holds_default p.isRecord hf hstart fun hmem => ?_
  obtain ⟨q, hq, hname⟩ := List.mem_map.mp hmem
  obtain ⟨m, hm, hcontent, -⟩ := exists_of_mem_known hq
  exact hnone m hm (by rw [hcontent, hname])

/-- What an object of the part is decoded to has values that can be written as texts. -/
theorem exists_values (hread : p.codec.read (Source.object members last).doc = .ok c) :
    ∃ items, p.Values c items := by
  have hvalue : ∀ f ∈ p.schema.fields, ∃ i : Item Source, f.Holds c i.value.doc := by
    intro f hf
    by_cases hnamed : ∃ m ∈ members, Mark.content m.name = some f.name
    · obtain ⟨m, hm, hname⟩ := hnamed
      exact ⟨⟨Gap.none, m.value, Gap.none⟩, holds_of_named hread hf hm hname⟩
    · obtain ⟨t, ht⟩ := exists_source_of_value ((f.save p.schema.start).getD .null)
      have hstart : f.Holds p.schema.start t.doc := by
        rw [ht]
        exact p.isRecord.start f hf
      push Not at hnamed
      exact ⟨⟨Gap.none, t, Gap.none⟩, holds_of_not_named hread hf hnamed hstart⟩
  exact Schema.exists_forall₂ hvalue

/-- A known member that is named twice is refused. -/
theorem read_ne_ok_of_named_twice (hf : f ∈ p.schema.fields) {m m' : Member Source}
    (hm : Mark.content m.name = some f.name) (hm' : Mark.content m'.name = some f.name)
    (before between after : List (Member Source)) (last : Gap) :
    p.codec.read (Source.object (before ++ m :: (between ++ m' :: after)) last).doc ≠ .ok c := by
  intro hread
  rw [read_object_eq_ok, Source.membersDoc_eq_map] at hread
  simp only [List.map_append, List.map_cons, hm, hm'] at hread
  exact Schema.not_reads_twice (Schema.known?_eq_some p.isRecord hf _)
    (Schema.known?_eq_some p.isRecord hf _) hread

/-! ## Whole texts -/

/-- What a section or a configuration is decoded to depends only on the values of its known
members. What is decoded at all is a text of the language, and then a text that says the same in
another order, with or without unknown members of whatever value, without members at their
defaults, or with such changes inside of a section, is decoded to the same. So is the array of all
values in the order of declaration; these are the values that the members of an object have, and
the defaults of the members that are left out. An object that names a known member twice is never
decoded. -/
theorem parse_depends_on_values (p : Part) :
    (∀ text c, p.codec.parse text = .ok c →
      ∃ (before : Gap) (t : Source) (after : Gap), text = t.whole before after) ∧
    (∀ (before after : Gap) t c, p.codec.parse (t.whole before after) = .ok c →
      ∀ t', Rearranged p t t' → ∀ before' after',
        p.codec.parse (t'.whole before' after') = .ok c) ∧
    (∀ items c, p.Values c items → ∀ last before after,
      p.codec.parse ((Source.array items last).whole before after) = .ok c) ∧
    (∀ members last before after c,
      p.codec.parse ((Source.object members last).whole before after) = .ok c →
        (∃ items, p.Values c items) ∧
        ∀ f ∈ p.schema.fields,
          (∀ m ∈ members, Mark.content m.name = some f.name → f.Holds c m.value.doc) ∧
          ((∀ m ∈ members, Mark.content m.name ≠ some f.name) →
            ∀ d, f.Holds p.schema.start d → f.Holds c d)) ∧
    ∀ f ∈ p.schema.fields, ∀ (m m' : Member Source), Mark.content m.name = some f.name →
      Mark.content m'.name = some f.name → ∀ members members' members'' last before after c,
        p.codec.parse ((Source.object (members ++ m :: (members' ++ m' :: members'')) last).whole
          before after) ≠ .ok c := by
  refine ⟨fun text c h => ?_, fun before after t c h t' hchange before' after' => ?_,
    fun items c h last before after => ?_, fun members last before after c h => ?_,
    fun f hf m m' hm hm' members members' members'' last before after c h => ?_⟩
  · obtain ⟨before, t, after, htext, -⟩ := p.codec.exists_source_of_parse h
    exact ⟨before, t, after, htext⟩
  · rw [Codec.parse_whole] at h ⊢
    exact hchange.read_eq_ok h
  · rw [Codec.parse_whole]
    exact h.read_eq_ok last
  · rw [Codec.parse_whole] at h
    exact ⟨exists_values h, fun f hf => ⟨fun m hm hname => holds_of_named h hf hm hname,
      fun hnone d hstart => holds_of_not_named h hf hnone hstart⟩⟩
  · rw [Codec.parse_whole] at h
    exact read_ne_ok_of_named_twice hf hm hm' members members' members'' last h

/-- A member with no blanks in it. -/
def dense (name : List Mark) (value : Source) : Member Source :=
  ⟨Gap.none, name, Gap.none, Gap.none, value, Gap.none⟩

theorem parse_depends_on_values_nested :
    let timeout := dense (Mark.plainly "timeout".toList (by decide +kernel)) .null
    let jitter := dense (Mark.plainly "jitter".toList (by decide +kernel)) (.bool false)
    let note := dense (Mark.plainly "note".toList (by decide +kernel)) (.array [] Gap.none)
    let retry := fun members =>
      dense (Mark.plainly "retry".toList (by decide +kernel)) (.object members Gap.none)
    let text := fun members => (Source.object members Gap.none).whole Gap.none Gap.none
    let c : Resilience.Config :=
      { Config.empty with retry := some { Retry.Config.default with jitter := false } }
    Config.codec.parse (text [timeout, retry [jitter]]) = .ok c ∧
      Config.codec.parse (text [retry [note, jitter]]) = .ok c ∧
      (∃ items, whole.Values c items) ∧
      ∀ c, Config.codec.parse (text [timeout, retry [jitter], retry [jitter]]) ≠ .ok c := by
  intro timeout jitter note retry text c
  have hparse : Config.codec.parse (text [timeout, retry [jitter]]) = .ok c := by
    decide +kernel
  -- The absent timeout goes, and a note comes into the section.
  have hchange : Rearranged whole (.object [timeout, retry [jitter]] Gap.none)
      (.object [retry [note, jitter]] Gap.none) :=
    (Rearranged.remove _ _ (atDefault_of_null (l := .timeout) (by decide +kernel) rfl)).trans
      (Rearranged.within (l := .retry) _ _ (by decide +kernel)
        (Rearranged.insert _ _ ⟨"note", by decide +kernel, by decide +kernel⟩))
  obtain ⟨-, hsame, -, hvalues, htwice⟩ := parse_depends_on_values whole
  refine ⟨hparse, hsame Gap.none Gap.none _ c hparse _ hchange _ _,
    (hvalues _ _ _ _ c hparse).1, fun c' => ?_⟩
  obtain ⟨f, hf, hname, -⟩ := Config.exists_sectionField .retry
  have hretry (members : List (Member Source)) :
      Mark.content (retry members).name = some f.name := by
    have hcontent :
        Mark.content (Mark.plainly "retry".toList (by decide +kernel)) = some "retry" := by
      decide +kernel
    rw [hname]
    exact hcontent
  exact htwice f hf _ _ (hretry _) (hretry _) [timeout] [] [] _ _ _ c'

end Part

end Resilience

end Safeguard
