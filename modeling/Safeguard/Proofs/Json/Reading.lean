import Safeguard.Proofs.Json.Numerals

/-!
# Indented text is read as what was written

The indented text of a value is read as the document of that value: quoted texts come back with
every escape resolved, numbers in their parts, and members in their order under their names.
Nothing behind the text is touched, so the reading of a value inside an object is its reading
alone. The bound on the depth of reading is never met, since every level takes at least one
character of the text.

## Main definitions

* `Json.Value.toDoc`: the document of a value.

## Main results

* `Json.readText_escape`: a quoted text is read as what was quoted.
* `Json.readValue_indentedText`: the indented text of a value is read as its document.
* `Json.Codec.parse_indented`: to read what was written is to read the document of it.
-/

namespace Safeguard.Json

/-! ## Quoted texts -/

variable {rest : List Char}

theorem hexValue?_hexDigit (n : ℕ) : hexValue? (hexDigit n) = some (n % 16) := by
  have h : ∀ k < 16, hexValue? (Nat.digitChar k) = some k := by decide
  exact h _ (Nat.mod_lt _ (by decide))

/-- A character that is not a surrogate spells itself, whatever follows it. -/
theorem spell_unit {code : ℕ} (h : code < 0xD800) (ending : Except Fault Unit)
    (pieces : List Piece) :
    spell ending (.unit code :: pieces) = (spell ending pieces).map (Char.ofNat code :: ·) := by
  have hopens : opensPair code = false := by
    simp only [opensPair, Bool.and_eq_false_iff, decide_eq_false_iff_not]
    omega
  have hcloses : closesPair code = false := by
    simp only [closesPair, Bool.and_eq_false_iff, decide_eq_false_iff_not]
    omega
  match pieces with
  | [] => cases ending <;> simp [spell, hopens, hcloses, Except.map]
  | .char c :: pieces =>
    cases hs : spell ending pieces <;> simp [spell, hopens, hcloses, hs, Except.map]
  | .unit next :: pieces => simp [spell, hopens, hcloses]

/-- A character that was escaped, or needed no escape, is read as one piece that spells it. -/
theorem exists_piece (c : Char) :
    ∃ piece : Piece,
      (∀ s, readPieces (escape c ++ s) = (piece :: (readPieces s).1, (readPieces s).2)) ∧
        ∀ ending pieces,
          spell ending (piece :: pieces) = (spell ending pieces).map (c :: ·) := by
  have hspell : ∀ ending pieces,
      spell ending (.char c :: pieces) = (spell ending pieces).map (c :: ·) := fun _ _ => by
    rw [spell]
  unfold escape
  split_ifs with hquote hslash hb hf hn hr ht hcontrol
  iterate 7
    · subst_vars
      exact ⟨.char _, fun s => by simp [readPieces, escaped?], hspell⟩
  · refine ⟨.unit c.toNat, fun s => ?_, fun ending pieces => ?_⟩
    · have hcode : hexUnit? '0' '0' (hexDigit (c.toNat / 16)) (hexDigit c.toNat) =
          some c.toNat := by
        have hzero : hexValue? '0' = some 0 := rfl
        simp only [hexUnit?, hexValue?_hexDigit, hzero, bind, Option.bind]
        congr 1
        omega
      simp [readPieces, hcode]
    · rw [spell_unit (by omega), Char.ofNat_toNat]
  · refine ⟨.char c, fun s => ?_, hspell⟩
    rw [List.singleton_append, readPieces.eq_def]
    split <;> simp_all

/-- What was quoted is read to its closing quote. -/
theorem readPieces_quoted (s rest : List Char) :
    ∃ pieces, readPieces (s.flatMap escape ++ '"' :: rest) = (pieces, .ok rest) ∧
      ∀ ending, spell ending pieces = ending.map fun _ => s := by
  induction s with
  | nil => exact ⟨[], by simp [readPieces], fun ending => by simp [spell]⟩
  | cons c s ih =>
    obtain ⟨pieces, hread, hspell⟩ := ih
    obtain ⟨piece, hpiece, hspells⟩ := exists_piece c
    refine ⟨piece :: pieces, ?_, fun ending => ?_⟩
    · rw [List.flatMap_cons, List.append_assoc, hpiece, hread]
    · rw [hspells, hspell]
      cases ending <;> rfl

/-- A quoted text is read as what was quoted. -/
theorem readText_escape (s : String) (rest : List Char) :
    readText (s.toList.flatMap escape ++ '"' :: rest) = (.text (some s), some rest) := by
  obtain ⟨pieces, hread, hspell⟩ := readPieces_quoted s.toList rest
  unfold readText
  rw [hread]
  simp only [hspell]
  simp [Except.map]

/-! ## Values without members -/

/-- The document of a floating-point number is what its own text is read as. -/
def realDoc (x : Float) : Doc := (readValue 1 (Value.real x).scalarText).1

theorem readValue_digit {c : Char} (hc : c.isDigit) (fuel : ℕ) (s : List Char) :
    readValue (fuel + 1) (c :: s) = readNumber false (c :: s) := by
  have hblank : dropBlanks (c :: s) = c :: s := by
    refine List.dropWhile_cons_of_neg fun h => ?_
    simp only [isBlank, Bool.or_eq_true, decide_eq_true_eq] at h
    obtain ((rfl | rfl) | rfl) | rfl := h <;> simp at hc
  rw [readValue, hblank]
  split <;> simp_all

/-- A number is read with its sign. -/
theorem readValue_figure (n : Figure) (fuel : ℕ) (hrest : EndsNumber rest) :
    readValue (fuel + 1) (n.text ++ rest) = (.number n.numeral, some rest) := by
  have hread : readNumber n.negative (n.whole ++ (n.fractionText ++ n.powerText) ++ rest) =
      (.number n.numeral, some rest) := by
    unfold readNumber
    rw [readNumeral_figure hrest]
  unfold Figure.text
  cases hn : n.negative with
  | true =>
    rw [hn] at hread
    simpa [Decimal.sign, readValue, dropBlanks, isBlank] using hread
  | false =>
    rw [hn] at hread
    obtain ⟨c, s, hs⟩ := List.exists_cons_of_ne_nil n.isWhole.ne_nil
    have hc : c.isDigit := n.isWhole.digits c (by rw [hs]; exact List.mem_cons_self)
    have htext : n.whole ++ (n.fractionText ++ n.powerText) ++ rest =
        c :: (s ++ (n.fractionText ++ n.powerText) ++ rest) := by
      rw [hs]
      simp
    rw [Decimal.sign, if_neg Bool.false_ne_true, List.nil_append]
    rw [htext] at hread ⊢
    rw [readValue_digit hc, hread]

theorem readValue_number {p : Spelling} (hp : p.Valid) (negative : Bool) (fuel : ℕ)
    (hrest : EndsNumber rest) :
    readValue (fuel + 1) (Decimal.sign negative ++ p.text ++ rest) =
      (.number (p.numeral negative), some rest) := by
  obtain ⟨n, rfl, htext, hnumeral⟩ := hp.exists_figure negative
  rw [← htext, ← hnumeral]
  exact readValue_figure n fuel hrest

/-- A floating-point number is read as its own text is, and as `null` if it has none. -/
theorem readValue_real (x : Float) (fuel : ℕ) (hrest : EndsNumber rest) :
    readValue (fuel + 1) ((Value.real x).scalarText ++ rest) = (realDoc x, some rest) := by
  unfold realDoc
  cases hx : Decimal.savedText? x with
  | none => simp [Value.scalarText, hx, readValue, dropBlanks, isBlank, readWord, expectWord]
  | some t =>
    obtain ⟨negative, p, hp, rfl⟩ := Decimal.exists_spelling_of_savedText? hx
    have halone := readValue_number hp negative 0 endsNumber_nil
    rw [List.append_nil] at halone
    simp only [Value.scalarText, hx, Option.getD_some]
    rw [readValue_number hp negative fuel hrest, halone]

/-! ## Objects -/

mutual

/-- The document of a value. -/
def Value.toDoc : Value → Doc
  | .null => .null
  | .bool b => .bool b
  | .natural n => .number ((Spelling.natural n).numeral false)
  | .real x => realDoc x
  | .text s => .text (some s)
  | .object members => .object (Value.membersDoc members)

/-- The documents of members, with their names. -/
def Value.membersDoc : List (String × Value) → List (Doc × Doc)
  | [] => []
  | (name, v) :: rest => (.text (some name), v.toDoc) :: Value.membersDoc rest

end

/-- The text behind a member: a comma and the other members, if there are any. -/
def Value.indentedMore (level : ℕ) : List (String × Value) → List Char
  | [] => []
  | members => ',' :: indentedMembers level members

theorem Value.indentedMembers_cons (level : ℕ) (name : String) (v : Value)
    (rest : List (String × Value)) :
    indentedMembers level ((name, v) :: rest) =
      newline level ++ (quoted name ++ ':' :: ' ' ::
        (v.indentedText level ++ indentedMore level rest)) := by
  cases rest with
  | nil => simp [indentedMembers, indentedMore]
  | cons m rest => simp [indentedMembers, indentedMore]

theorem Value.indentedMore_cons (level : ℕ) (m : String × Value) (rest : List (String × Value)) :
    indentedMore level (m :: rest) = ',' :: indentedMembers level (m :: rest) := rfl

theorem dropBlanks_newline (level : ℕ) (s : List Char) :
    dropBlanks (Value.newline level ++ s) = dropBlanks s := by
  unfold dropBlanks Value.newline
  refine List.dropWhile_append_of_pos fun c hc => ?_
  obtain rfl | hspace := List.mem_cons.mp hc
  · rfl
  · rw [List.eq_of_mem_replicate hspace]
    rfl

theorem readValue_blank (fuel : ℕ) (s : List Char) :
    readValue fuel (' ' :: s) = readValue fuel s := by
  cases fuel with
  | zero => rfl
  | succ fuel =>
    have hblank : dropBlanks (' ' :: s) = dropBlanks s := List.dropWhile_cons_of_pos rfl
    rw [readValue, readValue, hblank]

theorem readMembers_first (fuel level : ℕ) (name : String) (s : List Char) :
    readMembers (fuel + 1) true (Value.newline level ++ (quoted name ++ s)) =
      readMember fuel (quoted name ++ s) := by
  rw [readMembers, dropBlanks_newline]
  simp [quoted, dropBlanks, isBlank]

theorem readMembers_next (fuel level : ℕ) (name : String) (s : List Char) :
    readMembers (fuel + 1) false (',' :: (Value.newline level ++ (quoted name ++ s))) =
      readMember fuel (quoted name ++ s) := by
  obtain ⟨t, ht⟩ : ∃ t, quoted name ++ s = '"' :: t := ⟨_, rfl⟩
  have hcomma : dropBlanks (',' :: (Value.newline level ++ '"' :: t)) =
      ',' :: (Value.newline level ++ '"' :: t) := rfl
  have hquote : dropBlanks (Value.newline level ++ '"' :: t) = '"' :: t := by
    rw [dropBlanks_newline]
    rfl
  rw [ht, readMembers, hcomma]
  simp [hquote]

/-- A member is read as its name and its value, and the members behind it as they are. -/
theorem readMember_quoted {name : String} {s left : List Char} {d : Doc}
    {found : List (Doc × Doc) × Option (List Char)} {fuel : ℕ}
    (hvalue : readValue (fuel + 1) s = (d, some left))
    (hmore : readMembers (fuel + 1) false left = found) :
    readMember (fuel + 2) (quoted name ++ ':' :: ' ' :: s) =
      ((.text (some name), d) :: found.1, found.2) := by
  have hname : readValue (fuel + 1) (quoted name ++ ':' :: ' ' :: s) =
      (.text (some name), some (':' :: ' ' :: s)) := by
    have := readText_escape name (':' :: ' ' :: s)
    simpa [quoted, readValue, dropBlanks, isBlank] using this
  have hcolon : dropBlanks (':' :: ' ' :: s) = ':' :: ' ' :: s := rfl
  rw [readMember, hname]
  simp only [hcolon, ↓reduceIte]
  rw [readValue_blank, hvalue]
  simp only [hmore]

theorem scalarText_real_ne_nil (x : Float) : (Value.real x).scalarText ≠ [] := by
  cases hx : Decimal.savedText? x with
  | none => simp [Value.scalarText, hx]
  | some t =>
    obtain ⟨negative, p, hp, rfl⟩ := Decimal.exists_spelling_of_savedText? hx
    simp [Value.scalarText, hx, Spelling.text, hp.whole.ne_nil]

theorem length_indentedText_pos (v : Value) (level : ℕ) : 0 < (v.indentedText level).length := by
  cases v with
  | null => simp [Value.indentedText, Value.scalarText]
  | bool b => cases b <;> simp [Value.indentedText, Value.scalarText]
  | natural n => simp [Value.indentedText, Value.scalarText, Nat.length_toDigits_pos]
  | real x =>
    rw [Value.indentedText]
    · exact List.length_pos_of_ne_nil (scalarText_real_ne_nil x)
    · exact fun h => nomatch h
    · exact fun members h => nomatch h
  | text s => simp [Value.indentedText, Value.scalarText, quoted]
  | object members => cases members <;> simp [Value.indentedText]

@[simp] theorem length_newline (level : ℕ) : (Value.newline level).length = 2 * level + 1 := by
  simp [Value.newline]

theorem two_le_length_quoted (name : String) : 2 ≤ (quoted name).length := by
  simp [quoted]

/-- What follows a member cannot be taken for a part of its value. -/
theorem endsNumber_indentedMore (level outer : ℕ) (members : List (String × Value))
    (rest : List Char) :
    EndsNumber (Value.indentedMore level members ++ (Value.newline outer ++ rest)) := by
  intro c hc
  cases members with
  | nil => cases hc; decide
  | cons m members => cases hc; decide

mutual

/-- The indented text of a value is read as its document. Every level of reading takes a
character at least, which bounds the depth. -/
theorem readValue_indentedText (v : Value) (level fuel : ℕ) (rest : List Char)
    (hfuel : (v.indentedText level).length ≤ fuel) (hrest : EndsNumber rest) :
    readValue fuel (v.indentedText level ++ rest) = (v.toDoc, some rest) := by
  obtain ⟨fuel, rfl⟩ : ∃ k, fuel = k + 1 :=
    Nat.exists_eq_succ_of_ne_zero (by have := length_indentedText_pos v level; omega)
  cases v with
  | null =>
    simp [Value.indentedText, Value.scalarText, Value.toDoc, readValue, dropBlanks, isBlank,
      readWord, expectWord]
  | bool b =>
    cases b <;>
      simp [Value.indentedText, Value.scalarText, Value.toDoc, readValue, dropBlanks, isBlank,
        readWord, expectWord]
  | natural n =>
    have hread := readValue_number (Spelling.valid_natural n) false fuel hrest
    simpa [Value.indentedText, Value.scalarText, Value.toDoc, Decimal.sign, Spelling.text,
      Spelling.natural, Spelling.fractionText, Spelling.exponentText] using hread
  | real x =>
    rw [Value.indentedText, Value.toDoc, readValue_real x fuel hrest]
    · exact fun h => nomatch h
    · exact fun members h => nomatch h
  | text s =>
    have hread := readText_escape s rest
    simpa [Value.indentedText, Value.scalarText, Value.toDoc, quoted, readValue, dropBlanks,
      isBlank] using hread
  | object members =>
    cases members with
    -- Braces with nothing between them are written without a line break.
    | nil =>
      simp only [Value.indentedText, List.length_cons, List.length_nil] at hfuel
      obtain ⟨fuel, rfl⟩ : ∃ k, fuel = k + 1 := Nat.exists_eq_succ_of_ne_zero (by omega)
      simp [Value.indentedText, Value.toDoc, Value.membersDoc, readValue, readMembers, dropBlanks,
        isBlank]
    | cons m members =>
      obtain ⟨name, v⟩ := m
      have hlength := two_le_length_quoted name
      simp only [Value.indentedText, Value.indentedMembers_cons, List.length_cons,
        List.length_append, length_newline] at hfuel
      obtain ⟨fuel, rfl⟩ : ∃ k, fuel = k + 3 := ⟨fuel - 3, by omega⟩
      have hvalue := readValue_indentedText v (level + 1) (fuel + 1) _ (by omega)
        (endsNumber_indentedMore (level + 1) level members ('\x7d' :: rest))
      have hmore := readMembers_indentedMore members (level + 1) level (fuel + 1) rest (by omega)
      have htext : (Value.object ((name, v) :: members)).indentedText level ++ rest =
          '\x7b' :: (Value.newline (level + 1) ++ (quoted name ++ ':' :: ' ' ::
            (v.indentedText (level + 1) ++ (Value.indentedMore (level + 1) members ++
              (Value.newline level ++ '\x7d' :: rest))))) := by
        simp [Value.indentedText, Value.indentedMembers_cons]
      have hbrace (s : List Char) : dropBlanks ('\x7b' :: s) = '\x7b' :: s := rfl
      rw [htext, readValue, hbrace]
      simp only
      rw [readMembers_first, readMember_quoted hvalue hmore, Value.toDoc, Value.membersDoc]

/-- The members behind one are read in their order, up to the closing brace. -/
theorem readMembers_indentedMore (members : List (String × Value)) (level outer fuel : ℕ)
    (rest : List Char) (hfuel : (Value.indentedMore level members).length < fuel) :
    readMembers fuel false
      (Value.indentedMore level members ++ (Value.newline outer ++ '\x7d' :: rest)) =
        (Value.membersDoc members, some rest) := by
  cases members with
  | nil =>
    obtain ⟨fuel, rfl⟩ : ∃ k, fuel = k + 1 := Nat.exists_eq_succ_of_ne_zero (by omega)
    rw [Value.indentedMore, List.nil_append, readMembers, dropBlanks_newline]
    simp [dropBlanks, isBlank, Value.membersDoc]
  | cons m members =>
    obtain ⟨name, v⟩ := m
    have hlength := two_le_length_quoted name
    simp only [Value.indentedMore_cons, Value.indentedMembers_cons, List.length_cons,
      List.length_append, length_newline] at hfuel
    obtain ⟨fuel, rfl⟩ : ∃ k, fuel = k + 3 := ⟨fuel - 3, by omega⟩
    have hvalue := readValue_indentedText v level (fuel + 1) _ (by omega)
      (endsNumber_indentedMore level outer members ('\x7d' :: rest))
    have hmore := readMembers_indentedMore members level outer (fuel + 1) rest (by omega)
    have htext : Value.indentedMore level ((name, v) :: members) ++
          (Value.newline outer ++ '\x7d' :: rest) =
        ',' :: (Value.newline level ++ (quoted name ++ ':' :: ' ' ::
          (v.indentedText level ++ (Value.indentedMore level members ++
            (Value.newline outer ++ '\x7d' :: rest))))) := by
      simp [Value.indentedMore_cons, Value.indentedMembers_cons]
    rw [htext, readMembers_next, readMember_quoted hvalue hmore, Value.membersDoc]

end

/-! ## Whole texts -/

/-- The indented text of a value is that value's document and nothing else. -/
theorem Doc.ofText_indented (v : Value) : Doc.ofText v.indented.toList = (v.toDoc, some []) := by
  have hread := readValue_indentedText v 0 (3 * (v.indentedText 0).length + 3) [] (by omega)
    endsNumber_nil
  rw [List.append_nil] at hread
  rw [Doc.ofText, Value.indented, String.toList_ofList, hread]

/-- To read what was written is to read the document of it. -/
theorem Codec.parse_indented {α : Type} (c : Codec α) (a : α) :
    c.parse (c.indented a) = c.read (c.write a).toDoc := by
  unfold Codec.parse Codec.indented
  rw [Doc.ofText_indented]
  cases hread : c.read (c.write a).toDoc <;> simp [hread]

end Safeguard.Json
