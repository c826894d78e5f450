import Mathlib.Data.List.Forall2
import Safeguard.Proofs.Json.Reading

/-!
# Records are read as they were written

What comes back when a value is written and read is a normal form of it: durations lose what is
below a millisecond, everything else comes back as it was. The normal form is written like the
value itself, and every value that is read is in normal form, whatever the text it was read
from. These three facts are stated for one codec at a time, and a record has them if its members
have them: what is read is the record that reading starts from, with the updates of the members
that were written, in their order.

## Main definitions

* `Json.Codec.Returns`: what comes back when a value is written and read.
* `Json.Codec.Normalizes`: a codec with its normal forms.
* `Json.Field.Normalizes`: the same for a member of a record.
* `Duration.truncated`: the normal form of a duration.

## Main results

* `Json.Schema.read_write`: what comes back of a record.
* `Json.Schema.read_induction`: what holds of every record that is read.
* `Json.Schema.normalizes`: a record has normal forms if its members have.
-/

namespace Safeguard

namespace Duration

/-- What is left of a span of time that is counted in whole milliseconds of 64 bits. -/
def truncated (d : Duration) : Duration := .ofMillis (.ofNat (min d.millis (UInt64.size - 1)))

theorem nanos_truncated (d : Duration) :
    d.truncated.nanos = min d.millis (UInt64.size - 1) * nanosPerMilli := by
  have hlt : min d.millis (UInt64.size - 1) < UInt64.size :=
    Nat.lt_of_le_of_lt (Nat.min_le_right _ _) (by decide)
  rw [truncated, nanos_ofMillis, UInt64.toNat_ofNat_of_lt' hlt]

theorem millis_truncated (d : Duration) :
    d.truncated.millis = min d.millis (UInt64.size - 1) := by
  rw [millis, nanos_truncated, Nat.mul_div_cancel _ (by decide)]

@[simp] theorem truncated_truncated (d : Duration) : d.truncated.truncated = d.truncated := by
  ext
  rw [nanos_truncated, nanos_truncated, millis_truncated, Nat.min_assoc, Nat.min_self]

/-- A count of milliseconds loses nothing. -/
@[simp] theorem truncated_ofMillis (ms : UInt64) : (ofMillis ms).truncated = ofMillis ms := by
  have hmillis : (ofMillis ms).millis = ms.toNat :=
    Nat.mul_div_cancel _ (by decide)
  have hle : ms.toNat ≤ UInt64.size - 1 := Nat.le_pred_of_lt ms.toNat_lt
  ext
  rw [nanos_truncated, hmillis, Nat.min_eq_left hle, nanos_ofMillis]

/-- Cutting off keeps the order. -/
theorem truncated_mono {a b : Duration} (h : a ≤ b) : a.truncated ≤ b.truncated := by
  have hmillis : a.millis ≤ b.millis := Nat.div_le_div_right h
  rw [le_def, nanos_truncated, nanos_truncated]
  exact Nat.mul_le_mul_right _ (by omega)

end Duration

namespace Json

section Except

variable {ε α β : Type} {x : Except ε α} {b : β}

theorem exists_of_bind_eq_ok {f : α → Except ε β} (h : (x >>= f) = .ok b) :
    ∃ a, x = .ok a ∧ f a = .ok b := by
  cases x with
  | error e => cases h
  | ok a => exact ⟨a, rfl, h⟩

theorem exists_of_map_eq_ok {f : α → β} (h : x.map f = .ok b) : ∃ a, x = .ok a ∧ f a = b := by
  cases x with
  | error e => cases h
  | ok a => exact ⟨a, rfl, Except.ok.inj h⟩

end Except

/-! ## Codecs -/

namespace Codec

variable {α : Type}

/-- A value that is written is read as the second one. -/
def Returns (c : Codec α) (a b : α) : Prop := c.read (c.write a).toDoc = .ok b

theorem returns_iff_parse {c : Codec α} {a b : α} :
    c.Returns a b ↔ c.parse (c.indented a) = .ok b := by
  rw [parse_indented]
  rfl

theorem exists_read_of_parse {c : Codec α} {text : String} {a : α} (h : c.parse text = .ok a) :
    ∃ d, c.read d = .ok a := by
  refine ⟨(Doc.ofText text.toList).1, ?_⟩
  unfold parse at h
  dsimp only at h
  split at h
  · cases h
  · rename_i hread
    split at h
    · split at h
      · cases h
        exact hread
      · cases h
    · cases h

/-- A codec with its normal forms. A value that is fit comes back in normal form, the normal form
of a value is written like the value, and only normal forms are read. -/
structure Normalizes (c : Codec α) (fit : α → Prop) (norm : α → α) : Prop where
  returns : ∀ a, fit a → c.Returns a (norm a)
  write_norm : ∀ a, c.write (norm a) = c.write a
  norm_of_read : ∀ d a, c.read d = .ok a → norm a = a

/-- A codec that returns every fit value as it was. -/
theorem normalizes_id {c : Codec α} {fit : α → Prop} (h : ∀ a, fit a → c.Returns a a) :
    c.Normalizes fit id :=
  ⟨h, fun _ => rfl, fun _ _ _ => rfl⟩

theorem readNatural_natural {limit n : ℕ} (hlimit : limit ≤ largestWord) (hn : n ≤ limit) :
    readNatural limit (Value.natural n).toDoc = .ok n := by
  rw [Value.toDoc, readNatural, read_natural (Nat.le_trans hn hlimit)]
  simp [hn]

theorem word32_normalizes : word32.Normalizes (fun _ => True) id := normalizes_id fun n _ => by
  have hread : readNatural (UInt32.size - 1) (Value.natural n.toNat).toDoc = .ok n.toNat :=
    readNatural_natural (by decide) (Nat.le_pred_of_lt n.toNat_lt)
  simp only [Returns, word32, hread, Except.map, UInt32.ofNat_toNat]

theorem word64_normalizes : word64.Normalizes (fun _ => True) id := normalizes_id fun n _ => by
  have hread : readNatural (UInt64.size - 1) (Value.natural n.toNat).toDoc = .ok n.toNat :=
    readNatural_natural (by decide) (Nat.le_pred_of_lt n.toNat_lt)
  simp only [Returns, word64, hread, Except.map, UInt64.ofNat_toNat]

theorem bool_normalizes : bool.Normalizes (fun _ => True) id := normalizes_id fun b _ => by
  simp [Returns, bool, Value.toDoc]

/-- A choice comes back if its name stands for it. -/
theorem choice_normalizes {ofName? : String → Option α} {name : α → String}
    (h : ∀ a, ofName? (name a) = some a) :
    (choice ofName? name).Normalizes (fun _ => True) id := normalizes_id fun a _ => by
  simp [Returns, choice, Value.toDoc, h a]

/-- A duration comes back cut off. -/
theorem millis_normalizes : millis.Normalizes (fun _ => True) Duration.truncated where
  returns d _ := by
    have hread : readNatural (UInt64.size - 1)
        (Value.natural (min d.millis (UInt64.size - 1))).toDoc =
          .ok (min d.millis (UInt64.size - 1)) :=
      readNatural_natural (by decide) (Nat.min_le_right _ _)
    simp only [Returns, millis, word64, hread, Except.map]
    rfl
  write_norm d := by
    simp only [millis, Duration.millis_truncated, Nat.min_assoc, Nat.min_self]
  norm_of_read doc d h := by
    obtain ⟨ms, -, h⟩ := exists_of_map_eq_ok h
    rw [← h, Duration.truncated_ofMillis]

/-- A value that may be absent is read in normal form. -/
theorem Normalizes.map_of_read_option {c : Codec α} {fit : α → Prop} {norm : α → α}
    (hc : c.Normalizes fit norm) {d : Doc} {a : Option α} (h : c.option.read d = .ok a) :
    a.map norm = a := by
  unfold option at h
  dsimp only at h
  split at h
  · cases h
    rfl
  · obtain ⟨a, ha, rfl⟩ := exists_of_map_eq_ok h
    rw [Option.map_some, hc.norm_of_read d a ha]

end Codec

/-! ## Members -/

namespace Field

variable {σ β : Type}

/-- The member, as it is written for the record `r`, updates any record that is read into. A
member that is not written updates nothing. -/
def Restores (f : Field σ) (r : σ) (update : σ → σ) : Prop :=
  match f.save r with
  | some v => ∀ t, f.store v.toDoc t = .ok (update t)
  | none => ∀ t, update t = t

/-- A member of records with normal forms. It is restored for every fit record, is written alike
for a record and its normal form, and its storing leaves records in normal form. -/
structure Normalizes (f : Field σ) (fit : σ → Prop) (norm : σ → σ) (update : σ → σ → σ) :
    Prop where
  restores : ∀ r, fit r → f.Restores r (update r)
  save_norm : ∀ r, f.save (norm r) = f.save r
  norm_of_store : ∀ d t t', norm t = t → f.store d t = .ok t' → norm t' = t'

variable {name : String} {c : Codec β} {fit : σ → Prop} {norm : σ → σ} {fitValue : β → Prop}
  {normValue : β → β}

theorem of_normalizes {get : σ → β} {set : β → σ → σ} (hc : c.Normalizes fitValue normValue)
    (hfit : ∀ r, fit r → fitValue (get r) := by intros; trivial)
    (hget : ∀ r, get (norm r) = normValue (get r) := by intros; rfl)
    (hset : ∀ v t, norm (set v t) = set (normValue v) (norm t) := by intros; rfl) :
    (of name c get set).Normalizes fit norm fun r => set (normValue (get r)) where
  restores r hr t := by
    have hread : c.read (c.write (get r)).toDoc = .ok (normValue (get r)) :=
      hc.returns (get r) (hfit r hr)
    simp [of, hread, Except.map]
  save_norm r := by simp only [of, hget, hc.write_norm]
  norm_of_store d t t' ht h := by
    obtain ⟨v, hv, rfl⟩ := exists_of_map_eq_ok h
    rw [hset, hc.norm_of_read d v hv, ht]

/-- An optional member must not be written as `null` when it is there. -/
theorem optional_normalizes {get : σ → Option β} {set : Option β → σ → σ}
    (hc : c.Normalizes fitValue normValue) (hnull : ∀ a, (c.write a).toDoc ≠ .null)
    (hfit : ∀ r, fit r → ∀ a ∈ get r, fitValue a := by intros; trivial)
    (hget : ∀ r, get (norm r) = (get r).map normValue := by intros; rfl)
    (hset : ∀ v t, norm (set v t) = set (v.map normValue) (norm t) := by intros; rfl) :
    (optional name c get set).Normalizes fit norm fun r t =>
      (get r).elim t fun a => set (some (normValue a)) t where
  restores r hr := by
    cases hr' : get r with
    | none => simp [Restores, optional, hr']
    | some a =>
      have hread : c.read (c.write a).toDoc = .ok (normValue a) :=
        hc.returns a (hfit r hr a hr')
      have hoption : c.option.read (c.write a).toDoc = .ok (some (normValue a)) := by
        simp [Codec.option, hnull a, hread, Except.map]
      simp [Restores, optional, of, hr', hoption, Except.map]
  save_norm r := by
    cases hr : get r <;> simp [optional, hget, hr, hc.write_norm]
  norm_of_store d t t' ht h := by
    obtain ⟨v, hv, rfl⟩ := exists_of_map_eq_ok h
    rw [hset, hc.map_of_read_option hv, ht]

end Field

/-! ## Records that come back -/

namespace Schema

variable {σ : Type} {s : Schema σ} {r : σ}

/-- The members that are written for a record. -/
def written (r : σ) (fields : List (Field σ)) : List (String × Value) :=
  fields.filterMap fun field => (field.save r).map fun v => (field.name, v)

theorem find?_name {fields : List (Field σ)} (hnames : (fields.map (·.name)).Nodup) {f : Field σ}
    (hf : f ∈ fields) : fields.find? (·.name == f.name) = some f := by
  induction fields with
  | nil => cases hf
  | cons g fields ih =>
    rw [List.map_cons, List.nodup_cons] at hnames
    rw [List.find?_cons]
    obtain rfl | hf := List.mem_cons.mp hf
    · simp
    · have hne : g.name ≠ f.name := fun h => hnames.1 (h ▸ List.mem_map_of_mem hf)
      rw [beq_false_of_ne hne]
      exact ih hnames.2 hf

/-- A member whose name was not met before is stored. -/
theorem readMember_of_mem (hnames : (s.fields.map (·.name)).Nodup) {f : Field σ}
    (hf : f ∈ s.fields) {t t' : σ} {seen : List String} (hseen : f.name ∉ seen) {d : Doc}
    (hstore : f.store d t = .ok t') :
    s.readMember (t, seen) (.text (some f.name), d) = .ok (t', f.name :: seen) := by
  simp [readMember, Doc.memberName, find?_name hnames hf, hseen, hstore, bind, Except.bind]

/-- Members that were written are stored one after the other. -/
theorem foldlM_readMember_written (hnames : (s.fields.map (·.name)).Nodup)
    {fields : List (Field σ)} {updates : List (σ → σ)}
    (h : List.Forall₂ (fun f u => f.Restores r u) fields updates) (hsub : fields ⊆ s.fields)
    (hnodup : (fields.map (·.name)).Nodup) (t : σ) (seen : List String)
    (hseen : ∀ f ∈ fields, f.name ∉ seen) :
    ∃ seen', (Value.membersDoc (written r fields)).foldlM s.readMember (t, seen) =
      .ok (updates.foldl (fun t u => u t) t, seen') := by
  -- Names are met once only because those of the members still to come are not among those seen.
  induction h generalizing t seen with
  | nil => exact ⟨seen, rfl⟩
  | @cons f u fields updates hf hfields ih =>
    rw [List.map_cons, List.nodup_cons] at hnodup
    obtain ⟨hmem, hsub⟩ := List.cons_subset.mp hsub
    have hrest {g : Field σ} (hg : g ∈ fields) : g.name ∉ seen :=
      hseen g (List.mem_cons_of_mem f hg)
    unfold Field.Restores at hf
    unfold written
    rw [List.filterMap_cons]
    cases hsave : f.save r with
    | none =>
      rw [hsave] at hf
      simp only [Option.map_none, List.foldl_cons, hf t]
      exact ih hsub hnodup.2 t seen fun g hg => hrest hg
    | some v =>
      rw [hsave] at hf
      simp only [Option.map_some, Value.membersDoc, List.foldlM_cons, List.foldl_cons]
      rw [readMember_of_mem hnames hmem (hseen f List.mem_cons_self) (hf t)]
      refine ih hsub hnodup.2 (u t) (f.name :: seen) fun g hg => ?_
      rw [List.mem_cons, not_or]
      exact ⟨fun heq => hnodup.1 (heq ▸ List.mem_map_of_mem hg), hrest hg⟩

/-- What comes back of a record is the record that reading starts from, with the updates of the
members that were written. -/
theorem read_write (hdefaults : s.defaults = true) (hnames : (s.fields.map (·.name)).Nodup)
    {updates : List (σ → σ)}
    (h : List.Forall₂ (fun f u => f.Restores r u) s.fields updates) :
    s.codec.Returns r (updates.foldl (fun t u => u t) s.start) := by
  obtain ⟨seen, hread⟩ := foldlM_readMember_written hnames h (List.Subset.refl _) hnames s.start
    [] fun _ _ => List.not_mem_nil
  have hlack : s.fields.all (s.mayLack seen) = true := by
    simp [mayLack, hdefaults]
  have hdoc : (s.write r).toDoc = .object (Value.membersDoc (written r s.fields)) := by
    rw [write, Value.toDoc, written]
  simp only [Codec.Returns, codec, hdoc, read, readObject, hread, bind, Except.bind, hlack,
    ↓reduceIte]

theorem toDoc_write_ne_null (r : σ) : (s.codec.write r).toDoc ≠ .null := by
  simp only [codec, write, Value.toDoc]
  exact fun h => nomatch h

/-! ## Records that are read -/

section Reading

variable {P : σ → Prop} (hstore : ∀ f ∈ s.fields, ∀ d t t', P t → f.store d t = .ok t' → P t')
include hstore

theorem readMember_induction {state state' : σ × List String} {member : Doc × Doc}
    (hP : P state.1) (h : s.readMember state member = .ok state') : P state'.1 := by
  obtain ⟨name, -, h⟩ := exists_of_bind_eq_ok h
  split at h
  · split at h <;> cases h
    exact hP
  · rename_i field hfield
    split at h
    · cases h
    · obtain ⟨t, ht, h⟩ := exists_of_bind_eq_ok h
      cases h
      exact hstore field (List.mem_of_find?_eq_some hfield) _ _ _ hP ht

theorem foldlM_readMember_induction {members : List (Doc × Doc)} {state state' : σ × List String}
    (hP : P state.1) (h : members.foldlM s.readMember state = .ok state') : P state'.1 := by
  induction members generalizing state with
  | nil =>
    cases h
    exact hP
  | cons member members ih =>
    rw [List.foldlM_cons] at h
    obtain ⟨next, hnext, h⟩ := exists_of_bind_eq_ok h
    exact ih (readMember_induction hstore hP hnext) h

theorem readItems_induction {fields : List (Field σ)} {items : List Doc} {t : σ}
    (hsub : fields ⊆ s.fields) (hP : P t) (h : s.readItems fields items t = .ok r) : P r := by
  fun_induction readItems s fields items t with
  | case1 => cases h; exact hP
  | case2 => cases h
  | case3 => cases h
  | case4 => cases h; exact hP
  | case5 => cases h
  | case6 f fields item items t ih =>
    obtain ⟨t', ht, h⟩ := exists_of_bind_eq_ok h
    obtain ⟨hmem, hsub⟩ := List.cons_subset.mp hsub
    exact ih t' hsub (hstore f hmem item t t' hP ht) h

/-- What the record has that reading starts from, and what storing a member preserves, holds of
every record that is read. -/
theorem read_induction (hstart : P s.start) {d : Doc} (h : s.read d = .ok r) : P r := by
  unfold read at h
  split at h
  · obtain ⟨⟨t, seen⟩, hread, h⟩ := exists_of_bind_eq_ok h
    have hP : P t := foldlM_readMember_induction hstore hstart hread
    dsimp only at h
    split at h
    · cases h
      exact hP
    · cases h
  · exact readItems_induction hstore (List.Subset.refl _) hstart h
  · cases h

end Reading

/-! ## Normal forms of records -/

theorem exists_of_mem_forall₂ {α β : Type} {R : α → β → Prop} {as : List α} {bs : List β}
    (h : List.Forall₂ R as bs) {a : α} (ha : a ∈ as) : ∃ b, R a b := by
  induction h with
  | nil => cases ha
  | @cons _ b _ _ hab _ ih =>
    obtain rfl | ha := List.mem_cons.mp ha
    · exact ⟨b, hab⟩
    · exact ih ha

/-- A record has normal forms if its members have, and if the updates of all members together make
the normal form out of the record that reading starts from. -/
theorem normalizes {fit : σ → Prop} {norm : σ → σ} {updates : List (σ → σ → σ)}
    (hdefaults : s.defaults = true) (hnames : (s.fields.map (·.name)).Nodup)
    (h : List.Forall₂ (fun f u => f.Normalizes fit norm u) s.fields updates)
    (hstart : norm s.start = s.start)
    (hupdates : ∀ r, updates.foldl (fun t u => u r t) s.start = norm r) :
    s.codec.Normalizes fit norm where
  returns r hr := by
    -- A fit record restores each member, and all the updates together make its normal form.
    have hrestores : List.Forall₂ (fun f u => f.Restores r u) s.fields (updates.map (· r)) :=
      List.forall₂_map_right_iff.mpr (h.imp fun f u hf => hf.restores r hr)
    have hread := read_write hdefaults hnames hrestores
    rwa [List.foldl_map, hupdates] at hread
  write_norm r := by
    have hsave : ∀ f ∈ s.fields, f.save (norm r) = f.save r := fun f hf => by
      obtain ⟨u, hu⟩ := exists_of_mem_forall₂ h hf
      exact hu.save_norm r
    simp only [codec, write]
    exact congrArg Value.object (List.filterMap_congr fun f hf => by rw [hsave f hf])
  norm_of_read d r hread := by
    have hstore : ∀ f ∈ s.fields, ∀ d t t', norm t = t → f.store d t = .ok t' → norm t' = t' :=
      fun f hf => by
        obtain ⟨u, hu⟩ := exists_of_mem_forall₂ h hf
        exact hu.norm_of_store
    exact read_induction (P := fun t => norm t = t) hstore hstart hread

end Schema

end Json

end Safeguard
