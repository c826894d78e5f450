import Mathlib.Data.List.Pairwise
import Safeguard.Proofs.Json.Records

/-!
# Only the known members of an object matter

The reader of a record passes once through the members of an object. It stores the known ones as
they come, passes over the others and refuses a name that comes again. What it returns depends
only on the known members, each of them with its value: storing in one member does not meddle
with another, so their order does not matter, and neither do members that nobody knows. A member
that stores what the record starts with may be left out.

## Main definitions

* `Json.Field.Commutes`: the order in which two members are stored does not matter.
* `Json.Field.IsPlace`: storing the same again changes nothing.
* `Json.Schema.IsRecord`: a record whose members are separate places, and nothing else.
* `Json.Schema.known`: the known members of an object with their values.
* `Json.Field.Holds`: a document for what a record has in a member.

## Main results

* `Json.Schema.readObject_eq_ok`: an object is read as what its known members make of the record
  that reading starts from.
* `Json.Schema.Reads.perm`, `Json.Schema.reads_unknown`, `Json.Schema.Reads.of_default`: the
  order, unknown members and members at their defaults do not matter.
* `Json.Schema.readItems_of_holds`: an array of all values is read as their record.
-/

namespace Safeguard.Json

variable {σ β γ : Type}

/-! ## Members as places -/

namespace Field

variable {f g : Field σ} {d e : Doc} {t t' r : σ}

/-- The order in which two members are stored does not matter. -/
def Commutes (f g : Field σ) : Prop :=
  ∀ d e t r, (∃ t', f.store d t = .ok t' ∧ g.store e t' = .ok r) ↔
    ∃ t', g.store e t = .ok t' ∧ f.store d t' = .ok r

instance : Std.Symm (Commutes (σ := σ)) := ⟨fun _ _ h d e t r => (h e d t r).symm⟩

/-- A member is a place of its own: whether a document fits does not depend on the record, and
storing the same again changes nothing. -/
structure IsPlace (f : Field σ) : Prop where
  fits : ∀ d t r, f.store d t = .ok r → ∀ t', ∃ r', f.store d t' = .ok r'
  again : ∀ d t r, f.store d t = .ok r → f.store d r = .ok r

/-- The document stands for what the record has in the member. -/
def Holds (f : Field σ) (r : σ) (d : Doc) : Prop := f.store d r = .ok r

instance [DecidableEq σ] (f : Field σ) (r : σ) (d : Doc) : Decidable (f.Holds r d) :=
  inferInstanceAs (Decidable (f.store d r = .ok r))

/-- The document that is written for what the record has in the member; `null` if none is. -/
def written (f : Field σ) (r : σ) : Doc := ((f.save r).getD .null).toDoc

/-- A member that stores what a codec reads. -/
def Stores (f : Field σ) (c : Codec β) (set : β → σ → σ) : Prop :=
  ∀ d t, f.store d t = (c.read d).map (set · t)

variable {c : Codec β} {c' : Codec γ} {set : β → σ → σ} {set' : γ → σ → σ}

theorem Stores.eq_ok (hf : f.Stores c set) :
    f.store d t = .ok r ↔ ∃ v, c.read d = .ok v ∧ set v t = r := by
  rw [hf]
  constructor
  · exact exists_of_map_eq_ok
  · rintro ⟨v, hv, rfl⟩
    rw [hv]
    rfl

theorem Stores.commutes (hf : f.Stores c set) (hg : g.Stores c' set')
    (hset : ∀ v w t, set v (set' w t) = set' w (set v t)) : f.Commutes g := by
  intro d e t r
  simp only [hf.eq_ok, hg.eq_ok]
  constructor
  · rintro ⟨_, ⟨v, hv, rfl⟩, w, hw, rfl⟩
    exact ⟨_, ⟨w, hw, rfl⟩, v, hv, hset v w t⟩
  · rintro ⟨_, ⟨w, hw, rfl⟩, v, hv, rfl⟩
    exact ⟨_, ⟨v, hv, rfl⟩, w, hw, (hset v w t).symm⟩

theorem Stores.isPlace (hf : f.Stores c set) (hset : ∀ v t, set v (set v t) = set v t) :
    f.IsPlace where
  fits d t r h t' := by
    obtain ⟨v, hv, -⟩ := hf.eq_ok.mp h
    exact ⟨set v t', hf.eq_ok.mpr ⟨v, hv, rfl⟩⟩
  again d t r h := by
    obtain ⟨v, hv, rfl⟩ := hf.eq_ok.mp h
    exact hf.eq_ok.mpr ⟨v, hv, hset v t⟩

/-- Records that hold the same document in a member have the same there. -/
theorem Stores.eq_of_holds (hf : f.Stores c set) {get : σ → β} (hget : ∀ v t, get (set v t) = v)
    (h : f.Holds t d) (h' : f.Holds t' d) : get t = get t' := by
  obtain ⟨v, hv, ht⟩ := hf.eq_ok.mp h
  obtain ⟨v', hv', ht'⟩ := hf.eq_ok.mp h'
  obtain rfl : v = v' := Except.ok.inj (hv.symm.trans hv')
  rw [← ht, ← ht', hget, hget]

/-! ### Members of the usual forms -/

variable {name name' : String} {get : σ → β} {get' : σ → γ}

theorem stores_of : (of name c get set).Stores c set := fun _ _ => rfl

theorem stores_optional {get : σ → Option β} {set : Option β → σ → σ} :
    (optional name c get set).Stores c.option set :=
  fun _ _ => rfl

theorem isPlace_of (hset : ∀ v t, set v (set v t) = set v t) : (of name c get set).IsPlace :=
  stores_of.isPlace hset

theorem commutes_of (hset : ∀ v w t, set v (set' w t) = set' w (set v t)) :
    (of name c get set).Commutes (of name' c' get' set') :=
  stores_of.commutes stores_of hset

theorem isPlace_optional {get : σ → Option β} {set : Option β → σ → σ}
    (hset : ∀ v t, set v (set v t) = set v t) : (optional name c get set).IsPlace :=
  stores_optional.isPlace hset

theorem commutes_optional {get : σ → Option β} {set : Option β → σ → σ} {get' : σ → Option γ}
    {set' : Option γ → σ → σ} (hset : ∀ v w t, set v (set' w t) = set' w (set v t)) :
    (optional name c get set).Commutes (optional name' c' get' set') :=
  stores_optional.commutes stores_optional hset

theorem eq_of_holds_of (hget : ∀ v t, get (set v t) = v)
    (h : ∃ d, (of name c get set).Holds t d ∧ (of name c get set).Holds t' d) :
    get t = get t' := by
  obtain ⟨d, ht, ht'⟩ := h
  exact stores_of.eq_of_holds hget ht ht'

theorem eq_of_holds_optional {get : σ → Option β} {set : Option β → σ → σ}
    (hget : ∀ v t, get (set v t) = v)
    (h : ∃ d, (optional name c get set).Holds t d ∧ (optional name c get set).Holds t' d) :
    get t = get t' := by
  obtain ⟨d, ht, ht'⟩ := h
  exact stores_optional.eq_of_holds hget ht ht'

end Field

namespace Schema

/-- A record whose members are separate places, and nothing else. Members that are left out take
defaults, and what is written of the defaults stands for them. -/
structure IsRecord (s : Schema σ) : Prop where
  defaults : s.defaults = true
  start : ∀ f ∈ s.fields, f.Holds s.start (f.written s.start)
  names : (s.fields.map (·.name)).Nodup
  places : ∀ f ∈ s.fields, f.IsPlace
  apart : s.fields.Pairwise Field.Commutes
  complete : ∀ t t', (∀ f ∈ s.fields, ∃ d, f.Holds t d ∧ f.Holds t' d) → t = t'

variable {s : Schema σ} {f : Field σ} {d : Doc} {t t' r : σ} {seen : List String}
  {m : Doc × Doc} {members members' : List (Doc × Doc)}

/-! ## The known members -/

/-- The member of the record that a member of an object names, with its value. -/
def known? (s : Schema σ) : Doc × Doc → Option (Field σ × Doc)
  | (.text (some name), d) => (s.fields.find? (·.name == name)).map (·, d)
  | _ => none

/-- The known members of an object with their values. -/
def known (s : Schema σ) (members : List (Doc × Doc)) : List (Field σ × Doc) :=
  members.filterMap s.known?

/-- The member of an object has a name. If nobody knows the name, there is nothing wrong with the
value. -/
def Readable (s : Schema σ) (m : Doc × Doc) : Prop :=
  ∃ name, m.1 = .text (some name) ∧ (s.known? m = none → m.2.skip = none)

/-- Stores documents in members, one after the other. -/
def storeAll (parts : List (Field σ × Doc)) (t : σ) : Except Fault σ :=
  parts.foldlM (fun t p => p.1.store p.2 t) t

@[simp] theorem storeAll_nil (t : σ) : storeAll [] t = .ok t := rfl

theorem foldlM_cons_eq_ok {ε α τ : Type} {step : τ → α → Except ε τ} {a : α} {as : List α}
    {x y : τ} :
    (a :: as).foldlM step x = .ok y ↔ ∃ x', step x a = .ok x' ∧ as.foldlM step x' = .ok y := by
  rw [List.foldlM_cons]
  constructor
  · exact exists_of_bind_eq_ok
  · rintro ⟨x', hstep, has⟩
    rw [hstep]
    exact has

theorem storeAll_cons_eq_ok {p : Field σ × Doc} {parts : List (Field σ × Doc)} :
    storeAll (p :: parts) t = .ok r ↔
      ∃ t', p.1.store p.2 t = .ok t' ∧ storeAll parts t' = .ok r :=
  foldlM_cons_eq_ok

theorem storeAll_concat_eq_ok {p : Field σ × Doc} {parts : List (Field σ × Doc)} :
    storeAll (parts ++ [p]) t = .ok r ↔
      ∃ t', storeAll parts t = .ok t' ∧ p.1.store p.2 t' = .ok r := by
  induction parts generalizing t with
  | nil => simp [storeAll_cons_eq_ok]
  | cons q parts ih =>
    simp only [List.cons_append, storeAll_cons_eq_ok, ih]
    constructor
    · rintro ⟨t₁, hq, t₂, hparts, hp⟩
      exact ⟨t₂, ⟨t₁, hq, hparts⟩, hp⟩
    · rintro ⟨t₂, ⟨t₁, hq, hparts⟩, hp⟩
      exact ⟨t₁, hq, t₂, hparts, hp⟩

theorem known?_eq_some (hs : s.IsRecord) (hf : f ∈ s.fields) (d : Doc) :
    s.known? (.text (some f.name), d) = some (f, d) := by
  rw [known?, find?_name hs.names hf]
  rfl

theorem exists_of_known?_eq_some {p : Field σ × Doc} (h : s.known? m = some p) :
    p.1 ∈ s.fields ∧ m = (.text (some p.1.name), p.2) := by
  unfold known? at h
  split at h
  · obtain ⟨f, hf, rfl⟩ := Option.map_eq_some_iff.mp h
    have hname := List.find?_some hf
    exact ⟨List.mem_of_find?_eq_some hf, by rw [beq_iff_eq.mp hname]⟩
  · cases h

theorem mem_fields_of_mem_known {p : Field σ × Doc} (h : p ∈ s.known members) : p.1 ∈ s.fields := by
  obtain ⟨m, -, hm⟩ := List.mem_filterMap.mp h
  exact (exists_of_known?_eq_some hm).1

theorem exists_of_memberName_eq_ok {d : Doc} {name : String} (h : d.memberName = .ok name) :
    d = .text (some name) := by
  unfold Doc.memberName at h
  split at h <;> cases h
  rfl

/-- A member that nobody knows is passed over, unless there is something wrong with it. -/
theorem readMember_unknown (h : s.known? m = none) {state state' : σ × List String} :
    s.readMember state m = .ok state' ↔ s.Readable m ∧ state' = state := by
  obtain ⟨key, d⟩ := m
  constructor
  · intro hread
    obtain ⟨name, hname, hread⟩ := exists_of_bind_eq_ok hread
    obtain rfl := exists_of_memberName_eq_ok hname
    rw [Option.map_eq_none_iff.mp h] at hread
    dsimp only at hread
    split at hread
    · cases hread
    · rename_i hskip
      cases hread
      exact ⟨⟨name, rfl, fun _ => hskip⟩, rfl⟩
  · rintro ⟨⟨name, rfl, hskip⟩, rfl⟩
    have hfind := Option.map_eq_none_iff.mp h
    simp [readMember, Doc.memberName, hfind, hskip h, bind, Except.bind]

/-- A known member is stored, unless it was met before. -/
theorem readMember_known {p : Field σ × Doc} (hs : s.IsRecord) (h : s.known? m = some p)
    {state' : σ × List String} :
    s.readMember (t, seen) m = .ok state' ↔
      p.1.name ∉ seen ∧ ∃ t', p.1.store p.2 t = .ok t' ∧ state' = (t', p.1.name :: seen) := by
  obtain ⟨hf, rfl⟩ := exists_of_known?_eq_some h
  have hfind := find?_name hs.names hf
  constructor
  · intro hread
    simp only [readMember, Doc.memberName, bind, Except.bind, hfind] at hread
    split at hread
    · cases hread
    · rename_i hseen
      obtain ⟨t', hstore, hread⟩ := exists_of_bind_eq_ok hread
      cases hread
      exact ⟨fun hmem => hseen (List.elem_eq_true_of_mem hmem), t', hstore, rfl⟩
  · rintro ⟨hseen, t', hstore, rfl⟩
    exact readMember_of_mem hs.names hf hseen hstore

theorem readable_of_known?_eq_some {p : Field σ × Doc} (h : s.known? m = some p) :
    s.Readable m :=
  ⟨p.1.name, by rw [(exists_of_known?_eq_some h).2], fun hnone => nomatch h.symm.trans hnone⟩

/-! ## What an object is read as -/

theorem known?_eq_none {name : String} (h : ∀ f ∈ s.fields, f.name ≠ name) (d : Doc) :
    s.known? (.text (some name), d) = none := by
  rw [known?, List.find?_eq_none.mpr fun f hf => by simpa using h f hf]
  rfl

theorem readable_of_skip {name : String} (h : d.skip = none) :
    s.Readable (.text (some name), d) :=
  ⟨name, rfl, fun _ => h⟩

/-- What the members of an object are read as. -/
structure Reads (s : Schema σ) (members : List (Doc × Doc)) (r : σ) : Prop where
  readable : ∀ m ∈ members, s.Readable m
  once : ((s.known members).map (·.1.name)).Nodup
  stored : storeAll (s.known members) s.start = .ok r

/-- Members are read one after the other if none is met before. -/
theorem exists_foldlM_readMember_eq_ok (hs : s.IsRecord) :
    (∃ seen', members.foldlM s.readMember (t, seen) = .ok (r, seen')) ↔
      (∀ m ∈ members, s.Readable m) ∧ ((s.known members).map (·.1.name)).Nodup ∧
        (∀ p ∈ s.known members, p.1.name ∉ seen) ∧ storeAll (s.known members) t = .ok r := by
  -- The record and the names that were met change on the way, so both are arbitrary.
  induction members generalizing t seen with
  | nil => simp [known, pure, Except.pure]
  | cons m members ih =>
    have hcons {seen' : List String} :
        (m :: members).foldlM s.readMember (t, seen) = .ok (r, seen') ↔
          ∃ state', s.readMember (t, seen) m = .ok state' ∧
            members.foldlM s.readMember state' = .ok (r, seen') :=
      foldlM_cons_eq_ok
    simp only [hcons, List.forall_mem_cons]
    cases hm : s.known? m with
    | none =>
      have hknown : s.known (m :: members) = s.known members := List.filterMap_cons_none hm
      simp only [readMember_unknown hm, hknown, and_assoc, ← ih]
      constructor
      · rintro ⟨seen', _, hreadable, rfl, hread⟩
        exact ⟨hreadable, seen', hread⟩
      · rintro ⟨hreadable, seen', hread⟩
        exact ⟨seen', _, hreadable, rfl, hread⟩
    | some p =>
      have hknown : s.known (m :: members) = p :: s.known members :=
        List.filterMap_cons_some hm
      simp only [readMember_known hs hm, hknown, storeAll_cons_eq_ok, List.map_cons,
        List.nodup_cons, List.forall_mem_cons]
      constructor
      · rintro ⟨seen', _, ⟨hseen, t', hstore, rfl⟩, hread⟩
        obtain ⟨hreadable, honce, hfresh, hstored⟩ := ih.mp ⟨seen', hread⟩
        refine ⟨⟨readable_of_known?_eq_some hm, hreadable⟩, ⟨?_, honce⟩, ⟨hseen, ?_⟩,
          t', hstore, hstored⟩
        · intro hmem
          obtain ⟨q, hq, hname⟩ := List.mem_map.mp hmem
          exact hfresh q hq (by rw [hname]; exact List.mem_cons_self)
        · exact fun q hq hmem => hfresh q hq (List.mem_cons_of_mem _ hmem)
      · rintro ⟨⟨-, hreadable⟩, ⟨hnew, honce⟩, ⟨hseen, hfresh⟩, t', hstore, hstored⟩
        have hlater : ∀ q ∈ s.known members, q.1.name ∉ p.1.name :: seen := by
          intro q hq hmem
          obtain heq | hmem := List.mem_cons.mp hmem
          · exact hnew (List.mem_map.mpr ⟨q, hq, heq⟩)
          · exact hfresh q hq hmem
        obtain ⟨seen', hread⟩ := ih.mpr ⟨hreadable, honce, hlater, hstored⟩
        exact ⟨seen', _, ⟨hseen, t', hstore, rfl⟩, hread⟩

/-- An object is read as what its known members make of the record that reading starts from,
provided that none of them comes again and that there is nothing wrong with the other members. -/
theorem readObject_eq_ok (hs : s.IsRecord) : s.readObject members = .ok r ↔ s.Reads members r := by
  have hlack (seen : List String) : s.fields.all (s.mayLack seen) = true := by
    simp [mayLack, hs.defaults]
  have hread : s.readObject members = .ok r ↔
      ∃ seen', members.foldlM s.readMember (s.start, []) = .ok (r, seen') := by
    unfold readObject
    constructor
    · intro h
      obtain ⟨⟨r', seen'⟩, hfold, h⟩ := exists_of_bind_eq_ok h
      simp only [hlack, ↓reduceIte] at h
      cases h
      exact ⟨seen', hfold⟩
    · rintro ⟨seen', hfold⟩
      rw [hfold]
      simp [hlack, bind, Except.bind]
  rw [hread, exists_foldlM_readMember_eq_ok hs]
  constructor
  · rintro ⟨hreadable, honce, -, hstored⟩
    exact ⟨hreadable, honce, hstored⟩
  · rintro ⟨hreadable, honce, hstored⟩
    exact ⟨hreadable, honce, fun _ _ => List.not_mem_nil, hstored⟩

/-! ## Changes that do not matter -/

/-- Different members of a record may be stored in any order. -/
theorem IsRecord.commutes (hs : s.IsRecord) {f g : Field σ} (hf : f ∈ s.fields)
    (hg : g ∈ s.fields) (hne : f.name ≠ g.name) : f.Commutes g :=
  hs.apart.forall hf hg fun h => hne (h ▸ rfl)

/-- Documents for different members may be stored in any order. -/
theorem storeAll_perm {parts parts' : List (Field σ × Doc)}
    (hapart : parts.Pairwise fun p q => p.1.Commutes q.1) (hperm : parts.Perm parts')
    (h : storeAll parts t = .ok r) : storeAll parts' t = .ok r := by
  induction hperm generalizing t with
  | nil => exact h
  | cons p _ ih =>
    obtain ⟨t', hstore, h⟩ := storeAll_cons_eq_ok.mp h
    exact storeAll_cons_eq_ok.mpr ⟨t', hstore, ih hapart.of_cons h⟩
  | swap p q parts =>
    obtain ⟨t₁, hq, h⟩ := storeAll_cons_eq_ok.mp h
    obtain ⟨t₂, hp, h⟩ := storeAll_cons_eq_ok.mp h
    -- The two that change their places are different members.
    have hcomm : q.1.Commutes p.1 := List.rel_of_pairwise_cons hapart List.mem_cons_self
    obtain ⟨t₁', hp', hq'⟩ := (hcomm _ _ _ _).mp ⟨t₁, hq, hp⟩
    exact storeAll_cons_eq_ok.mpr ⟨t₁', hp', storeAll_cons_eq_ok.mpr ⟨t₂, hq', h⟩⟩
  | trans hperm _ ih ih' =>
    have hsymm : ∀ {p q : Field σ × Doc}, p.1.Commutes q.1 → q.1.Commutes p.1 :=
      fun h => Std.Symm.symm _ _ h
    exact ih' (hperm.pairwise hapart hsymm) (ih hapart h)

/-- The record has what was stored in it. -/
theorem holds_of_storeAll {parts : List (Field σ × Doc)} {p : Field σ × Doc}
    (hapart : parts.Pairwise fun p q => p.1.Commutes q.1) (hp : p ∈ parts) (hplace : p.1.IsPlace)
    (h : storeAll parts t = .ok r) : p.1.Holds r p.2 := by
  -- It may as well be stored last, and storing it again changes nothing.
  obtain ⟨before, after, rfl⟩ := List.append_of_mem hp
  have hperm : (before ++ p :: after).Perm (before ++ after ++ [p]) :=
    List.perm_middle.trans (List.perm_append_singleton _ _).symm
  obtain ⟨t', -, hstore⟩ := storeAll_concat_eq_ok.mp (storeAll_perm hapart hperm h)
  exact hplace.again _ _ _ hstore

namespace Reads

/-- Different known members may be stored in any order. -/
theorem apart (h : s.Reads members r) (hs : s.IsRecord) :
    (s.known members).Pairwise fun p q => p.1.Commutes q.1 :=
  (List.pairwise_map.mp h.once).imp_of_mem fun hp hq hne =>
    hs.commutes (mem_fields_of_mem_known hp) (mem_fields_of_mem_known hq) hne

/-- The order of members does not matter. -/
theorem perm (h : s.Reads members r) (hs : s.IsRecord) (hperm : members.Perm members') :
    s.Reads members' r where
  readable m hm := h.readable m (hperm.mem_iff.mpr hm)
  once := ((hperm.filterMap _).map _).nodup_iff.mp h.once
  stored := storeAll_perm (h.apart hs) (hperm.filterMap _) h.stored

/-- Of a known member, the record has what its value says. -/
theorem holds (h : s.Reads members r) (hs : s.IsRecord) {p : Field σ × Doc}
    (hp : p ∈ s.known members) : p.1.Holds r p.2 :=
  holds_of_storeAll (h.apart hs) hp (hs.places p.1 (mem_fields_of_mem_known hp)) h.stored

/-- A member that stores what the record starts with may be left out. -/
theorem of_default (h : s.Reads (m :: members) r) {p : Field σ × Doc} (hm : s.known? m = some p)
    (hstart : p.1.Holds s.start p.2) : s.Reads members r := by
  obtain ⟨hreadable, honce, hstored⟩ := h
  have hknown : s.known (m :: members) = p :: s.known members := List.filterMap_cons_some hm
  rw [hknown] at honce hstored
  obtain ⟨t, hstore, hstored⟩ := storeAll_cons_eq_ok.mp hstored
  -- Storing a default in the record that reading starts from leaves it as it is.
  obtain rfl : s.start = t := Except.ok.inj (hstart.symm.trans hstore)
  exact ⟨(List.forall_mem_cons.mp hreadable).2, honce.of_cons, hstored⟩

/-- A member that stores what the record starts with may be put in, unless it is there. -/
theorem cons_default (h : s.Reads members r) {p : Field σ × Doc} (hm : s.known? m = some p)
    (hstart : p.1.Holds s.start p.2) (hnew : p.1.name ∉ (s.known members).map (·.1.name)) :
    s.Reads (m :: members) r := by
  have hknown : s.known (m :: members) = p :: s.known members := List.filterMap_cons_some hm
  refine ⟨List.forall_mem_cons.mpr ⟨readable_of_known?_eq_some hm, h.readable⟩, ?_, ?_⟩
  · rw [hknown, List.map_cons]
    exact List.nodup_cons.mpr ⟨hnew, h.once⟩
  · rw [hknown]
    exact storeAll_cons_eq_ok.mpr ⟨s.start, hstart, h.stored⟩

/-- Of a member that is left out, the record has what it starts with. -/
theorem holds_default (h : s.Reads members r) (hs : s.IsRecord) (hf : f ∈ s.fields)
    (hstart : f.Holds s.start d) (hnew : f.name ∉ (s.known members).map (·.1.name)) :
    f.Holds r d := by
  have hm := known?_eq_some hs hf d
  have hcons : s.Reads ((.text (some f.name), d) :: members) r := h.cons_default hm hstart hnew
  refine hcons.holds hs (p := (f, d)) ?_
  rw [known, List.filterMap_cons_some hm]
  exact List.mem_cons_self

/-- The value of a known member may be replaced by one that stores the same. -/
theorem replace (h : s.Reads (m :: members) r) {f : Field σ} {d d' : Doc} {m' : Doc × Doc}
    (hm : s.known? m = some (f, d)) (hm' : s.known? m' = some (f, d'))
    (hstore : ∀ t t', f.store d t = .ok t' → f.store d' t = .ok t') :
    s.Reads (m' :: members) r := by
  obtain ⟨hreadable, honce, hstored⟩ := h
  have hknown : s.known (m :: members) = (f, d) :: s.known members :=
    List.filterMap_cons_some hm
  have hknown' : s.known (m' :: members) = (f, d') :: s.known members :=
    List.filterMap_cons_some hm'
  rw [hknown] at honce hstored
  obtain ⟨t, hfirst, hstored⟩ := storeAll_cons_eq_ok.mp hstored
  refine ⟨List.forall_mem_cons.mpr ⟨readable_of_known?_eq_some hm', ?_⟩, ?_, ?_⟩
  · exact (List.forall_mem_cons.mp hreadable).2
  · rw [hknown']
    exact honce
  · rw [hknown']
    exact storeAll_cons_eq_ok.mpr ⟨t, hstore _ _ hfirst, hstored⟩

end Reads

/-- No member is named twice. -/
theorem not_reads_twice {f : Field σ} {before between after : List (Doc × Doc)} {d d' : Doc}
    {key key' : Doc} (hd : s.known? (key, d) = some (f, d))
    (hd' : s.known? (key', d') = some (f, d')) :
    ¬s.Reads (before ++ (key, d) :: (between ++ (key', d') :: after)) r := by
  intro h
  have honce := h.once
  simp only [known, List.filterMap_append, List.filterMap_cons_some hd,
    List.filterMap_cons_some hd', List.map_append, List.map_cons] at honce
  have hlater := (List.nodup_append.mp honce).2.1
  rw [List.nodup_cons] at hlater
  exact hlater.1 (List.mem_append_right _ List.mem_cons_self)

/-- Members that nobody knows do not matter if there is nothing wrong with them. -/
theorem reads_cons_unknown (hm : s.known? m = none) :
    s.Reads (m :: members) r ↔ s.Readable m ∧ s.Reads members r := by
  have hknown : s.known (m :: members) = s.known members := List.filterMap_cons_none hm
  constructor
  · rintro ⟨hreadable, honce, hstored⟩
    rw [hknown] at honce hstored
    obtain ⟨hfirst, hreadable⟩ := List.forall_mem_cons.mp hreadable
    exact ⟨hfirst, hreadable, honce, hstored⟩
  · rintro ⟨hfirst, hreadable, honce, hstored⟩
    exact ⟨List.forall_mem_cons.mpr ⟨hfirst, hreadable⟩, by rwa [hknown], by rwa [hknown]⟩

/-! ## Arrays of all values -/

theorem exists_forall₂ {α τ : Type} {R : α → τ → Prop} {as : List α}
    (h : ∀ a ∈ as, ∃ b, R a b) : ∃ bs, List.Forall₂ R as bs := by
  induction as with
  | nil => exact ⟨[], .nil⟩
  | cons a as ih =>
    obtain ⟨⟨b, hb⟩, h⟩ := List.forall_mem_cons.mp h
    obtain ⟨bs, hbs⟩ := ih h
    exact ⟨b :: bs, .cons hb hbs⟩

/-- Values that fit are stored in the members of any record. -/
theorem exists_readItems_of_holds (hs : s.IsRecord) {fields : List (Field σ)} {items : List Doc}
    (hsub : fields ⊆ s.fields) (h : List.Forall₂ (fun f d => f.Holds r d) fields items) (t : σ) :
    ∃ t', s.readItems fields items t = .ok t' ∧ storeAll (fields.zip items) t = .ok t' := by
  induction h generalizing t with
  | nil => exact ⟨t, by rw [readItems], rfl⟩
  | @cons f d fields items hf _ ih =>
    obtain ⟨hmem, hsub⟩ := List.cons_subset.mp hsub
    obtain ⟨t₁, hstore⟩ := (hs.places f hmem).fits d r r hf t
    obtain ⟨t', hread, hstored⟩ := ih hsub t₁
    refine ⟨t', ?_, storeAll_cons_eq_ok.mpr ⟨t₁, hstore, hstored⟩⟩
    rw [readItems, hstore]
    exact hread

/-- An array of all values of a record, in the order of its members, is read as the record. -/
theorem readItems_of_holds (hs : s.IsRecord) {items : List Doc}
    (h : List.Forall₂ (fun f d => f.Holds r d) s.fields items) :
    s.readItems s.fields items s.start = .ok r := by
  obtain ⟨t, hread, hstored⟩ :=
    exists_readItems_of_holds hs (List.Subset.refl _) h s.start
  have hfst : (s.fields.zip items).map (·.1) = s.fields :=
    List.map_fst_zip (Nat.le_of_eq h.length_eq)
  have hapart : (s.fields.zip items).Pairwise fun p q => p.1.Commutes q.1 := by
    rw [← List.pairwise_map (R := Field.Commutes), hfst]
    exact hs.apart
  -- What was read has the same in all members, and there is nothing else in a record.
  obtain rfl : t = r := by
    refine hs.complete t r fun f hf => ?_
    rw [← hfst] at hf
    obtain ⟨⟨f, d⟩, hp, rfl⟩ := List.mem_map.mp hf
    have hplace := hs.places f (List.of_mem_zip hp).1
    exact ⟨d, holds_of_storeAll hapart hp hplace hstored, List.forall₂_zip h hp⟩
  exact hread

end Schema

end Safeguard.Json
