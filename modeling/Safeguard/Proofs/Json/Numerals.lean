import Mathlib.Data.Int.Notation
import Mathlib.Data.List.Basic
import Safeguard.Json.Codec

/-!
# Numbers are read as they were written

The text of a number consists of whole digits and perhaps a fraction and a power of ten. It is
read to its last character as long as nothing follows that could be part of a number, and what
is read are these parts. Whole numbers and the numbers of a saved configuration are written in
this form, whatever layout is chosen for them.

## Main definitions

* `Json.EndsNumber`: texts that may follow a number.
* `Json.Figure`: a number in its parts, as it may be written.
* `Json.Spelling`: the text of a number in its parts, as it is written.
* `Json.Spelling.Valid`: what is expected of the parts.

## Main results

* `Json.readNumeral_figure`: a number is read as its parts, and nothing behind it is touched.
* `Json.read_natural`: a whole number of at most 64 bits is read as itself.
* `Decimal.exists_spelling_of_savedText?`: a floating-point number that is saved has such a text.
-/

namespace Safeguard.Json

/-! ## Digits -/

/-- A text of digits only. -/
def AllDigits (s : List Char) : Prop := ∀ c ∈ s, c.isDigit

/-- A text that does not begin with a digit. -/
def EndsDigits (rest : List Char) : Prop := ∀ c ∈ rest.head?, c.isDigit = false

variable {s rest : List Char}

theorem AllDigits.append {t : List Char} (hs : AllDigits s) (ht : AllDigits t) :
    AllDigits (s ++ t) := fun c hc =>
  (List.mem_append.mp hc).elim (hs c) (ht c)

theorem allDigits_toDigits (n : ℕ) : AllDigits (Nat.toDigits 10 n) := fun _ hc =>
  Nat.isDigit_of_mem_toDigits (by decide) (by decide) hc

theorem allDigits_zeros (n : ℕ) : AllDigits (Decimal.zeros n) := fun c hc => by
  rw [List.eq_of_mem_replicate hc]
  rfl

theorem readDigits_append (h : AllDigits s) (hrest : EndsDigits rest) :
    readDigits (s ++ rest) = (s.map digitValue, rest) := by
  have hstop : rest.takeWhile Char.isDigit = [] ∧ rest.dropWhile Char.isDigit = rest := by
    cases rest with
    | nil => exact ⟨rfl, rfl⟩
    | cons c rest =>
      have hc : ¬c.isDigit := Bool.not_eq_true _ ▸ hrest c rfl
      exact ⟨List.takeWhile_cons_of_neg hc, List.dropWhile_cons_of_neg hc⟩
  unfold readDigits
  rw [List.takeWhile_append_of_pos h, List.dropWhile_append_of_pos h, hstop.1, hstop.2,
    List.append_nil]

theorem readSomeDigits_append (h : AllDigits s) (hne : s ≠ []) (hrest : EndsDigits rest) :
    readSomeDigits (s ++ rest) = .ok (s.map digitValue, rest) := by
  unfold readSomeDigits
  rw [readDigits_append h hrest]
  cases s with
  | nil => exact absurd rfl hne
  | cons c s => rfl

/-- Only the digit zero is worth nothing. -/
theorem eq_zero_of_digitValue_eq_zero {c : Char} (hc : c.isDigit) (h : digitValue c = 0) :
    c = '0' := by
  have hge : 48 ≤ c.toNat := by
    simp only [Char.isDigit, Bool.and_eq_true, decide_eq_true_eq] at hc
    exact hc.1
  have hle : c.toNat - 48 = 0 := h
  exact Char.toNat_inj.mp (show c.toNat = 48 by omega)

/-- Zero apart, a whole number does not begin with a zero. -/
theorem head?_toDigits_ne (n : ℕ) (hn : n ≠ 0) : (Nat.toDigits 10 n).head? ≠ some '0' := by
  induction n using Nat.strongRecOn with
  | _ n ih =>
    rw [Nat.toDigits_eq_if (by decide)]
    split
    · simpa using hn
    · rename_i hge
      rw [List.head?_append_of_ne_nil _ Nat.toDigits_ne_nil]
      exact ih (n / 10) (by omega) (by omega)

/-- Digits that may stand before the point: there are some, and only a lone zero leads. -/
structure IsWhole (s : List Char) : Prop where
  digits : AllDigits s
  ne_nil : s ≠ []
  leading : s.head? = some '0' → s = ['0']

theorem isWhole_zero : IsWhole ['0'] where
  digits := fun c hc => by cases List.mem_singleton.mp hc; rfl
  ne_nil := List.cons_ne_nil _ _
  leading := fun _ => rfl

theorem isWhole_toDigits (n : ℕ) : IsWhole (Nat.toDigits 10 n) where
  digits := allDigits_toDigits n
  ne_nil := Nat.toDigits_ne_nil
  leading hzero := by
    by_cases hn : n = 0
    · subst hn
      rfl
    · exact absurd hzero (head?_toDigits_ne n hn)

/-- A text that does not go on with a number. -/
def EndsNumber (rest : List Char) : Prop :=
  ∀ c ∈ rest.head?, c.isDigit = false ∧ c ≠ '.' ∧ c ≠ 'e' ∧ c ≠ 'E'

theorem EndsNumber.endsDigits (h : EndsNumber rest) : EndsDigits rest := fun c hc => (h c hc).1

theorem endsNumber_nil : EndsNumber [] := fun _ hc => nomatch hc

/-! ## Numbers as they may be written -/

/-- Some digits. -/
structure Digits where
  chars : List Char
  digits : AllDigits chars
  ne_nil : chars ≠ []

/-- A power of ten as it may be written. -/
structure Power where
  /-- Whether it is announced by a capital letter. -/
  capital : Bool
  /-- Whether the sign, if there is one, is a minus. -/
  sign : Option Bool
  digits : Digits

/-- A number as it may be written. -/
structure Figure where
  negative : Bool
  whole : List Char
  isWhole : IsWhole whole
  /-- The digits behind the point, if there is one. -/
  fraction : Option Digits
  power : Option Power

namespace Power

/-- The sign of an exponent. -/
def signText : Option Bool → List Char
  | none => []
  | some false => ['+']
  | some true => ['-']

/-- The text of an exponent. -/
def text (e : Power) : List Char :=
  (if e.capital then 'E' else 'e') :: (signText e.sign ++ e.digits.chars)

/-- What it is read as. -/
def parts (e : Power) : Bool × List ℕ := (e.sign == some true, e.digits.chars.map digitValue)

end Power

namespace Figure

/-- The text behind the digits before the point. -/
def fractionText (n : Figure) : List Char := n.fraction.elim [] fun d => '.' :: d.chars

/-- The text of the power of ten. -/
def powerText (n : Figure) : List Char := n.power.elim [] Power.text

/-- The text of a number. -/
def text (n : Figure) : List Char :=
  Decimal.sign n.negative ++ (n.whole ++ (n.fractionText ++ n.powerText))

/-- What it is read as. -/
def numeral (n : Figure) : Numeral where
  negative := n.negative
  whole := n.whole.map digitValue
  fraction := n.fraction.elim [] fun d => d.chars.map digitValue
  exponent := n.power.map Power.parts

end Figure

variable {n : Figure}

theorem readSomeDigits_digits (d : Digits) (hrest : EndsDigits rest) :
    readSomeDigits (d.chars ++ rest) = .ok (d.chars.map digitValue, rest) :=
  readSomeDigits_append d.digits d.ne_nil hrest

/-- The digits of an exponent are no sign. -/
theorem readSign_signText (sign : Option Bool) (d : Digits) (s : List Char) :
    readSign (Power.signText sign ++ (d.chars ++ s)) = (sign == some true, d.chars ++ s) := by
  obtain ⟨c, chars, hc⟩ := List.exists_cons_of_ne_nil d.ne_nil
  have hdigit : c.isDigit := d.digits c (by rw [hc]; exact List.mem_cons_self)
  rcases sign with _ | _ | _
  · rw [hc, Power.signText, List.nil_append, List.cons_append]
    unfold readSign
    split
    · rename_i heq
      cases heq
      cases hdigit
    · rename_i heq
      cases heq
      cases hdigit
    · rfl
  · rfl
  · rfl

theorem readExponent_powerText (hrest : EndsNumber rest) :
    readExponent (n.powerText ++ rest) = .ok (n.power.map Power.parts, rest) := by
  unfold Figure.powerText
  cases n.power with
  | none =>
    cases rest with
    | nil => rfl
    | cons c rest =>
      obtain ⟨-, -, hlower, hupper⟩ := hrest c rfl
      simp [readExponent, hlower, hupper]
  | some e =>
    have hsign := readSign_signText e.sign e.digits rest
    have hdigits := readSomeDigits_digits e.digits hrest.endsDigits
    simp [readExponent, Power.text, hsign, hdigits, Power.parts, bind, Except.bind]

theorem endsDigits_powerText (hrest : EndsNumber rest) : EndsDigits (n.powerText ++ rest) := by
  unfold Figure.powerText
  cases n.power with
  | none => exact hrest.endsDigits
  | some e => exact fun c hc => by cases hc; cases e.capital <;> rfl

theorem readFraction_fractionText (hrest : EndsNumber rest) :
    readFraction (n.fractionText ++ (n.powerText ++ rest)) =
      .ok (n.numeral.fraction, n.powerText ++ rest) := by
  unfold Figure.fractionText Figure.numeral
  cases n.fraction with
  | some d => exact readSomeDigits_digits d (endsDigits_powerText hrest)
  | none =>
    rw [Option.elim_none, Option.elim_none, List.nil_append, readFraction]
    -- Neither a power of ten nor what follows the number begins with a point.
    intro t ht
    unfold Figure.powerText at ht
    cases he : n.power with
    | none =>
      rw [he, Option.elim_none, List.nil_append] at ht
      exact (hrest '.' (by rw [ht]; rfl)).2.1 rfl
    | some e =>
      rw [he] at ht
      have hletter := (List.cons.inj ht).1
      cases hcapital : e.capital <;> rw [hcapital] at hletter <;> cases hletter

theorem endsDigits_fraction_append (hrest : EndsNumber rest) :
    EndsDigits (n.fractionText ++ (n.powerText ++ rest)) := by
  unfold Figure.fractionText
  cases n.fraction with
  | none => exact endsDigits_powerText hrest
  | some d => exact fun c hc => by cases hc; rfl

theorem readWhole_append (h : IsWhole s) (hrest : EndsDigits rest) :
    readWhole (s ++ rest) = .ok (s.map digitValue, rest) := by
  unfold readWhole
  rw [readSomeDigits_append h.digits h.ne_nil hrest]
  match s with
  | [] => exact absurd rfl h.ne_nil
  | [c] => simp [bind, Except.bind]
  | c :: d :: s =>
    have hc : digitValue c ≠ 0 := fun hzero => by
      have hdigit : c.isDigit := h.digits c List.mem_cons_self
      have := h.leading (by rw [eq_zero_of_digitValue_eq_zero hdigit hzero]; rfl)
      cases this
    simp [bind, Except.bind, hc]

/-- A number is read as its parts, and nothing behind it is touched. -/
theorem readNumeral_figure (hrest : EndsNumber rest) :
    readNumeral n.negative (n.whole ++ (n.fractionText ++ n.powerText) ++ rest) =
      .ok (n.numeral, rest) := by
  unfold readNumeral
  rw [List.append_assoc, List.append_assoc,
    readWhole_append n.isWhole (endsDigits_fraction_append hrest)]
  simp only [bind, Except.bind]
  rw [readFraction_fractionText hrest]
  simp only
  rw [readExponent_powerText hrest]
  rfl

/-! ## Numbers as they are written -/

/-- The text of a number in its parts; its sign stands apart. -/
structure Spelling where
  /-- The digits before the point. -/
  whole : List Char
  /-- The digits after the point; none if there is no point. -/
  fraction : List Char
  /-- Whether the exponent is negative, and its digits. -/
  exponent : Option (Bool × List Char)

namespace Spelling

/-- The point and the digits after it. -/
def fractionText (p : Spelling) : List Char :=
  if p.fraction = [] then [] else '.' :: p.fraction

/-- The power of ten, always with a sign. -/
def exponentText (p : Spelling) : List Char :=
  match p.exponent with
  | none => []
  | some (below, digits) => 'e' :: (if below then '-' else '+') :: digits

/-- The whole text. -/
def text (p : Spelling) : List Char := p.whole ++ (p.fractionText ++ p.exponentText)

/-- What the text is read as. -/
def numeral (p : Spelling) (negative : Bool) : Numeral where
  negative := negative
  whole := p.whole.map digitValue
  fraction := p.fraction.map digitValue
  exponent := p.exponent.map fun e => (e.1, e.2.map digitValue)

/-- The parts are as the grammar wants them. -/
structure Valid (p : Spelling) : Prop where
  whole : IsWhole p.whole
  fraction : AllDigits p.fraction
  exponent : ∀ e ∈ p.exponent, AllDigits e.2 ∧ e.2 ≠ []

/-- Without a power of ten the digits before and after the point are all there is. -/
theorem valid_of_isWhole {whole fraction : List Char} (hwhole : IsWhole whole)
    (hfraction : AllDigits fraction) : Valid ⟨whole, fraction, none⟩ :=
  ⟨hwhole, hfraction, fun _ he => nomatch he⟩

end Spelling

/-- What is written is among the ways to write a number: the exponent always has a sign. -/
theorem Spelling.Valid.exists_figure {p : Spelling} (h : p.Valid) (negative : Bool) :
    ∃ n : Figure, n.negative = negative ∧ n.whole ++ (n.fractionText ++ n.powerText) = p.text ∧
      n.numeral = p.numeral negative := by
  obtain ⟨fraction, hfraction⟩ : ∃ fraction : Option Digits,
      fraction.elim [] (fun d => '.' :: d.chars) = p.fractionText ∧
        fraction.elim [] (fun d => d.chars.map digitValue) = p.fraction.map digitValue := by
    by_cases hnone : p.fraction = []
    · exact ⟨none, by rw [Spelling.fractionText, if_pos hnone]; rfl, by rw [hnone]; rfl⟩
    · refine ⟨some ⟨p.fraction, h.fraction, hnone⟩, ?_, rfl⟩
      rw [Spelling.fractionText, if_neg hnone]
      rfl
  obtain ⟨power, hpower⟩ : ∃ power : Option Power,
      power.elim [] Power.text = p.exponentText ∧
        power.map Power.parts = p.exponent.map fun e => (e.1, e.2.map digitValue) := by
    unfold Spelling.exponentText
    cases he : p.exponent with
    | none => exact ⟨none, rfl, rfl⟩
    | some e =>
      obtain ⟨below, digits⟩ := e
      obtain ⟨hdigits, hne⟩ := h.exponent _ he
      exact ⟨some ⟨false, some below, digits, hdigits, hne⟩, by cases below <;> rfl,
        by cases below <;> rfl⟩
  refine ⟨⟨negative, p.whole, h.whole, fraction, power⟩, rfl, ?_, ?_⟩
  · simp only [Figure.fractionText, Figure.powerText, hfraction.1, hpower.1, Spelling.text]
  · simp only [Figure.numeral, hfraction.2, hpower.2, Spelling.numeral]

/-! ## Whole numbers -/

/-- The text of a whole number. -/
def Spelling.natural (n : ℕ) : Spelling := ⟨(Nat.repr n).toList, [], none⟩

theorem Spelling.valid_natural (n : ℕ) : (natural n).Valid := by
  unfold natural
  rw [Nat.toList_repr]
  exact valid_of_isWhole (isWhole_toDigits n) fun _ hc => nomatch hc

theorem le_foldl_digits (a : ℕ) (ds : List ℕ) : a ≤ ds.foldl (fun n d => n * 10 + d) a := by
  induction ds generalizing a with
  | nil => exact Nat.le_refl a
  | cons d ds ih => exact Nat.le_trans (by omega : a ≤ a * 10 + d) (ih _)

/-- Digits are absorbed to the last one if the number fits. -/
theorem absorb_eq (a : ℕ) (ds : List ℕ)
    (h : ds.foldl (fun n d => n * 10 + d) a ≤ largestWord) :
    absorb a ds = (ds.foldl (fun n d => n * 10 + d) a, []) := by
  induction ds generalizing a with
  | nil => rfl
  | cons d ds ih =>
    rw [absorb, if_pos (Nat.le_trans (le_foldl_digits _ ds) h)]
    exact ih _ h

theorem ofDigits_toDigits (n : ℕ) : ofDigits ((Nat.toDigits 10 n).map digitValue) = n := by
  have h : Nat.ofDigitChars 10 (Nat.toDigits 10 n) 0 = n := Nat.ofDigitChars_ten_toDigits
  rw [Nat.ofDigitChars_eq_foldl] at h
  unfold ofDigits
  rw [List.foldl_map]
  simpa only [digitValue, Nat.mul_comm] using h

/-- A whole number that fits into 64 bits is read as itself. -/
theorem read_natural {n : ℕ} (hn : n ≤ largestWord) :
    ((Spelling.natural n).numeral false).read = .ok (.natural n) := by
  have hvalue : ofDigits ((Spelling.natural n).whole.map digitValue) = n := by
    unfold Spelling.natural
    rw [Nat.toList_repr]
    exact ofDigits_toDigits n
  have habsorb : absorb 0 ((Spelling.natural n).whole.map digitValue) = (n, []) := by
    rw [absorb_eq 0 _ (by rw [← ofDigits, hvalue]; exact hn), ← ofDigits, hvalue]
  have hfraction : (Spelling.natural n).fraction = [] := rfl
  have hexponent : (Spelling.natural n).exponent = none := rfl
  simp [Numeral.read, Spelling.numeral, habsorb, hfraction, hexponent]

end Safeguard.Json

namespace Safeguard.Decimal

open Json

/-! ## Saved numbers -/

variable {d : Decimal}

/-- The decimal that is written is not zero. -/
theorem shortest_digits_ne (tie : Tie) {m : ℕ} (hm : 0 < m) (e : ℤ) :
    (shortest tie m e).digits ≠ 0 := by
  unfold shortest
  extract_lets interval top found
  cases hfound : found with
  | none => exact Nat.pos_iff_ne_zero.mp hm
  | some d =>
    obtain ⟨step, -, hstep⟩ := List.exists_of_findSome?_eq_some hfound
    obtain ⟨c, -, hc⟩ := Option.bind_eq_some_iff.mp hstep
    split at hc
    · cases hc
    · rename_i hne
      cases hc
      exact hne

theorem allDigits_characters (d : Decimal) : AllDigits d.characters := by
  unfold characters
  rw [Nat.toList_repr]
  exact allDigits_toDigits _

/-- The digits of a decimal other than zero begin with one that is worth something. -/
theorem exists_characters_eq_cons (h : d.digits ≠ 0) :
    ∃ c s, d.characters = c :: s ∧ c ≠ '0' := by
  have hhead := head?_toDigits_ne _ h
  unfold characters
  rw [Nat.toList_repr]
  cases hs : Nat.toDigits 10 d.digits with
  | nil => exact absurd hs Nat.toDigits_ne_nil
  | cons c s => exact ⟨c, s, rfl, fun hc => hhead (by rw [hs, hc]; rfl)⟩

theorem isWhole_characters_append (h : d.digits ≠ 0) {s : List Char} (hs : AllDigits s) :
    IsWhole (d.characters ++ s) := by
  obtain ⟨c, t, hd, hc⟩ := exists_characters_eq_cons h
  refine ⟨(allDigits_characters d).append hs, ?_, ?_⟩
  · simp [hd]
  · simp [hd, hc]

theorem isWhole_characters_take (h : d.digits ≠ 0) {n : ℕ} (hn : 0 < n) :
    IsWhole (d.characters.take n) := by
  obtain ⟨c, t, hd, hc⟩ := exists_characters_eq_cons h
  obtain ⟨k, rfl⟩ := Nat.exists_eq_add_of_lt hn
  refine ⟨fun x hx => allDigits_characters d x (List.mem_of_mem_take hx), ?_, ?_⟩
  · simp [hd]
  · simp [hd, hc]

theorem allDigits_characters_drop (d : Decimal) (n : ℕ) : AllDigits (d.characters.drop n) :=
  fun c hc => allDigits_characters d c (List.mem_of_mem_drop hc)

/-- Writing out every place gives a number. -/
theorem exists_spelling_positional (h : d.digits ≠ 0) :
    ∃ p : Spelling, p.Valid ∧ positional ['.', '0'] d = p.text := by
  unfold positional
  split_ifs with hwhole hpoint
  · refine ⟨⟨d.characters ++ zeros d.exponent.toNat, ['0'], none⟩,
      Spelling.valid_of_isWhole (isWhole_characters_append h (allDigits_zeros _))
        isWhole_zero.digits, ?_⟩
    simp [Spelling.text, Spelling.fractionText, Spelling.exponentText]
  · -- The point falls among the digits: some are before it and some behind.
    have hbehind : d.characters.drop d.point.toNat ≠ [] := by
      have hplace : d.point = d.characters.length + d.exponent := rfl
      rw [ne_eq, List.drop_eq_nil_iff]
      omega
    refine ⟨⟨d.characters.take d.point.toNat, d.characters.drop d.point.toNat, none⟩,
      Spelling.valid_of_isWhole (isWhole_characters_take h (by omega))
        (allDigits_characters_drop d _), ?_⟩
    simp [Spelling.text, Spelling.fractionText, Spelling.exponentText, hbehind]
  · obtain ⟨c, s, hd, -⟩ := exists_characters_eq_cons h
    refine ⟨⟨['0'], zeros (-d.point).toNat ++ d.characters, none⟩,
      Spelling.valid_of_isWhole isWhole_zero
        ((allDigits_zeros _).append (allDigits_characters d)), ?_⟩
    simp [Spelling.text, Spelling.fractionText, Spelling.exponentText, hd]

/-- Naming the power of ten gives a number. -/
theorem exists_spelling_scientific (h : d.digits ≠ 0) :
    ∃ p : Spelling, p.Valid ∧ scientific d = p.text := by
  refine ⟨⟨d.characters.take 1, d.characters.drop 1,
    some (decide (d.point - 1 < 0), (Nat.repr (d.point - 1).natAbs).toList)⟩,
    ⟨isWhole_characters_take h Nat.one_pos, allDigits_characters_drop d 1, ?_⟩, ?_⟩
  · intro e he
    cases he
    rw [Nat.toList_repr]
    exact ⟨allDigits_toDigits _, Nat.toDigits_ne_nil⟩
  · simp [scientific, signedCharacters, Spelling.text, Spelling.fractionText,
      Spelling.exponentText]

/-- What is saved for a floating-point number is the text of a number. -/
theorem exists_spelling_of_savedText? {x : Float} {t : List Char} (h : savedText? x = some t) :
    ∃ (negative : Bool) (p : Spelling), p.Valid ∧ t = sign negative ++ p.text := by
  unfold savedText? at h
  split at h
  · cases h
  · cases h
  · rename_i negative _
    cases h
    exact ⟨negative, ⟨['0'], ['0'], none⟩,
      Spelling.valid_of_isWhole isWhole_zero isWhole_zero.digits, rfl⟩
  · rename_i negative d hmagnitude
    cases h
    have hd : d.digits ≠ 0 := by
      unfold Magnitude.ofFloat at hmagnitude
      split at hmagnitude
      · cases hmagnitude
      · cases hmagnitude
      · cases hmagnitude
      · rename_i hm _
        cases hmagnitude
        exact shortest_digits_ne .even hm _
    obtain ⟨p, hp, hpositional⟩ := exists_spelling_positional hd
    obtain ⟨q, hq, hscientific⟩ := exists_spelling_scientific hd
    split
    · exact ⟨negative, p, hp, by rw [hpositional]⟩
    · exact ⟨negative, q, hq, by rw [hscientific]⟩

end Safeguard.Decimal
