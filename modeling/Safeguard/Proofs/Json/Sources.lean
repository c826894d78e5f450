import Safeguard.Proofs.Json.Records

/-!
# Texts that are read

The texts of the language are described here by trees that keep every character: blanks between
the parts, the layout of numbers, and the escapes in quoted texts. Parts that are not allowed
cannot be built. A quoted text may name halves of surrogate pairs that have no partner; it is
a text of the language, though it has no content.

The reader reads exactly these texts. The text of a tree is read as the document of the tree,
and nothing behind it is touched; and whatever is read without a flaw is the text of a tree.

## Main definitions

* `Json.Gap`, `Json.Figure`, `Json.Mark`: blanks, numbers, and parts of quoted texts.
* `Json.Source`: a text of the language.
* `Json.Source.chars`, `Json.Source.doc`: its characters, and the document it stands for.
* `Json.Source.whole`: a whole text, with the blanks around it.

## Main results

* `Json.readValue_source`: the text of a tree is read as its document.
* `Json.exists_source_of_readValue`: what is read without a flaw is the text of a tree.
* `Json.Codec.parse_whole`, `Json.Codec.exists_source_of_parse`: the same for whole texts.
-/

namespace Safeguard.Json

variable {s rest : List Char}

/-! ## Blanks -/

/-- Blanks between two parts. -/
structure Gap where
  chars : List Char
  blank : ∀ c ∈ chars, isBlank c = true

namespace Gap

/-- No blanks. -/
def none : Gap := ⟨[], fun _ hc => nomatch hc⟩

/-- Blanks behind blanks. -/
def append (g h : Gap) : Gap :=
  ⟨g.chars ++ h.chars, fun c hc => (List.mem_append.mp hc).elim (g.blank c) (h.blank c)⟩

@[simp] theorem chars_none : none.chars = [] := rfl

@[simp] theorem chars_append (g h : Gap) : (g.append h).chars = g.chars ++ h.chars := rfl

end Gap

theorem dropBlanks_gap (g : Gap) (s : List Char) : dropBlanks (g.chars ++ s) = dropBlanks s :=
  List.dropWhile_append_of_pos g.blank

/-- A text is what is left of it behind some blanks. -/
theorem exists_gap (s : List Char) : ∃ g : Gap, s = g.chars ++ dropBlanks s :=
  ⟨⟨s.takeWhile isBlank, List.all_eq_true.mp List.all_takeWhile⟩,
    List.takeWhile_append_dropWhile.symm⟩

/-- No digit is a blank. -/
theorem isBlank_of_isDigit {c : Char} (hc : c.isDigit) : isBlank c = false := by
  rw [← Bool.not_eq_true]
  intro h
  simp only [isBlank, Bool.or_eq_true, decide_eq_true_eq] at h
  obtain ((rfl | rfl) | rfl) | rfl := h <;> cases hc

theorem dropBlanks_cons {c : Char} (hc : isBlank c = false) (s : List Char) :
    dropBlanks (c :: s) = c :: s :=
  List.dropWhile_cons_of_neg (by rw [hc]; exact Bool.false_ne_true)

/-- Blanks end a number. -/
theorem EndsNumber.gap (h : EndsNumber rest) (g : Gap) : EndsNumber (g.chars ++ rest) := by
  obtain ⟨_ | ⟨c, chars⟩, hblank⟩ := g
  · exact h
  · intro c' hc'
    cases hc'
    have hc := hblank c List.mem_cons_self
    simp only [isBlank, Bool.or_eq_true, decide_eq_true_eq] at hc
    obtain ((rfl | rfl) | rfl) | rfl := hc <;> decide

/-! ## Numbers that are read -/

theorem exists_of_readSomeDigits {ds : List ℕ} (h : readSomeDigits s = .ok (ds, rest)) :
    ∃ d : Digits, s = d.chars ++ rest ∧ d.chars.map digitValue = ds := by
  have hfound : readDigits s = (ds, rest) ∧ ds ≠ [] := by
    unfold readSomeDigits at h
    split at h
    · cases h
    · cases h
    · rename_i hempty hnone
      have hread := Except.ok.inj h
      refine ⟨hread, ?_⟩
      rintro rfl
      cases rest with
      | nil => exact hempty hread
      | cons c rest => exact hnone c rest hread
  obtain ⟨hread, hne⟩ := hfound
  cases hread
  refine ⟨⟨s.takeWhile Char.isDigit, List.all_eq_true.mp List.all_takeWhile, ?_⟩,
    List.takeWhile_append_dropWhile.symm, rfl⟩
  intro hnone
  exact hne (by rw [hnone, List.map_nil])

theorem exists_of_readWhole {ds : List ℕ} (h : readWhole s = .ok (ds, rest)) :
    ∃ whole, IsWhole whole ∧ s = whole ++ rest ∧ whole.map digitValue = ds := by
  obtain ⟨⟨ds', rest'⟩, hread, h⟩ := exists_of_bind_eq_ok h
  obtain ⟨d, rfl, rfl⟩ := exists_of_readSomeDigits hread
  dsimp only at h
  split at h
  · cases h
  · rename_i hleading
    cases h
    refine ⟨d.chars, ⟨d.digits, d.ne_nil, fun hzero => ?_⟩, rfl, rfl⟩
    -- A zero that leads more digits is refused.
    match hchars : d.chars with
    | [] => exact absurd hchars d.ne_nil
    | [c] =>
      rw [hchars] at hzero
      rw [Option.some.inj hzero]
    | c :: c' :: chars =>
      rw [hchars] at hzero
      refine absurd ?_ (hleading (digitValue c') (chars.map digitValue))
      rw [hchars, Option.some.inj hzero]
      rfl

theorem exists_of_readFraction {ds : List ℕ} (h : readFraction s = .ok (ds, rest)) :
    ∃ fraction : Option Digits, s = fraction.elim [] (fun d => '.' :: d.chars) ++ rest ∧
      fraction.elim [] (fun d => d.chars.map digitValue) = ds := by
  unfold readFraction at h
  split at h
  · obtain ⟨d, rfl, rfl⟩ := exists_of_readSomeDigits h
    exact ⟨some d, rfl, rfl⟩
  · cases h
    exact ⟨none, rfl, rfl⟩

theorem exists_sign (s : List Char) : ∃ sign : Option Bool,
    s = Power.signText sign ++ (readSign s).2 ∧ (sign == some true) = (readSign s).1 := by
  unfold readSign
  split
  · exact ⟨some false, rfl, rfl⟩
  · exact ⟨some true, rfl, rfl⟩
  · exact ⟨none, rfl, rfl⟩

theorem exists_of_readExponent {exponent : Option (Bool × List ℕ)}
    (h : readExponent s = .ok (exponent, rest)) :
    ∃ power : Option Power, s = power.elim [] Power.text ++ rest ∧
      power.map Power.parts = exponent := by
  unfold readExponent at h
  split at h
  · rename_i c s
    split at h
    · rename_i hletter
      obtain ⟨sign, hs, hbelow⟩ := exists_sign s
      generalize readSign s = signed at h hs hbelow
      obtain ⟨below, t⟩ := signed
      obtain ⟨⟨ds, rest'⟩, hread, h⟩ := exists_of_bind_eq_ok h
      cases h
      obtain ⟨d, rfl, rfl⟩ := exists_of_readSomeDigits hread
      rw [Bool.or_eq_true, decide_eq_true_eq, decide_eq_true_eq] at hletter
      refine ⟨some ⟨decide (c = 'E'), sign, d⟩, ?_, by rw [Option.map_some, Power.parts, hbelow]⟩
      have hcapital : (if decide (c = 'E') then 'E' else 'e') = c := by
        obtain rfl | rfl := hletter <;> rfl
      rw [Option.elim_some, Power.text, hcapital, List.cons_append, List.append_assoc, hs]
    · cases h
      exact ⟨none, rfl, rfl⟩
  · cases h
    exact ⟨none, rfl, rfl⟩

/-- Only numbers are read as numbers. -/
theorem exists_figure_of_readNumber {negative : Bool} {d : Doc}
    (h : readNumber negative s = (d, some rest)) :
    ∃ n : Figure, n.negative = negative ∧
      s = n.whole ++ (n.fractionText ++ n.powerText) ++ rest ∧ d = .number n.numeral := by
  unfold readNumber at h
  split at h
  · rename_i numeral rest' hread
    cases h
    obtain ⟨⟨whole, s₁⟩, hwhole, hread⟩ := exists_of_bind_eq_ok hread
    obtain ⟨⟨fraction, s₂⟩, hfraction, hread⟩ := exists_of_bind_eq_ok hread
    obtain ⟨⟨exponent, s₃⟩, hexponent, hread⟩ := exists_of_bind_eq_ok hread
    cases hread
    obtain ⟨whole, hisWhole, rfl, rfl⟩ := exists_of_readWhole hwhole
    obtain ⟨fraction, rfl, rfl⟩ := exists_of_readFraction hfraction
    obtain ⟨power, rfl, rfl⟩ := exists_of_readExponent hexponent
    refine ⟨⟨negative, whole, hisWhole, fraction, power⟩, rfl, ?_, rfl⟩
    simp only [Figure.fractionText, Figure.powerText, List.append_assoc]
  · cases h

/-! ## Quoted texts -/

/-- A part of a quoted text as it may be written. -/
inductive Mark where
  /-- A character that stands for itself. -/
  | plain (c : Char) (ordinary : c ≠ '"' ∧ c ≠ '\\' ∧ ¬c.toNat < 0x20)
  /-- A letter behind a backslash. -/
  | escape (letter c : Char) (known : escaped? letter = some c)
  /-- Four hexadecimal digits. -/
  | unit (a b c d : Char) (code : ℕ) (known : hexUnit? a b c d = some code)

namespace Mark

/-- The characters of a part. -/
def text : Mark → List Char
  | plain c _ => [c]
  | escape letter _ _ => ['\\', letter]
  | unit a b c d _ _ => ['\\', 'u', a, b, c, d]

/-- What it is read as. -/
def piece : Mark → Piece
  | plain c _ => .char c
  | escape _ c _ => .char c
  | unit _ _ _ _ code _ => .unit code

/-- What a quoted text says; nothing, if it holds half a surrogate pair. -/
def content (marks : List Mark) : Option String :=
  match spell (.ok ()) (marks.map piece) with
  | .ok chars => some (String.ofList chars)
  | .error _ => none

/-- The characters of a quoted text, with its quotes. -/
def quote (marks : List Mark) : List Char := '"' :: (marks.flatMap text ++ ['"'])

/-- Characters that stand for themselves. -/
def plainly (s : List Char)
    (h : s.all (fun c => decide (c ≠ '"' ∧ c ≠ '\\' ∧ ¬c.toNat < 0x20)) = true) : List Mark :=
  s.pmap plain fun c hc => of_decide_eq_true (List.all_eq_true.mp h c hc)

theorem readPieces_text (m : Mark) (s : List Char) :
    readPieces (m.text ++ s) = (m.piece :: (readPieces s).1, (readPieces s).2) := by
  cases m with
  | plain c ordinary =>
    obtain ⟨hquote, hslash, hcontrol⟩ := ordinary
    rw [text, List.singleton_append, readPieces, if_neg hcontrol]
    · rfl
    · exact hquote
    all_goals
      intros
      contradiction
  | escape letter c known =>
    have hu : letter ≠ 'u' := by
      rintro rfl
      cases known
    rw [text, List.cons_append, List.singleton_append, readPieces, known]
    · rfl
    all_goals
      intros
      contradiction
  | unit a b c d code known => simp [text, piece, readPieces, known]

end Mark

theorem readPieces_marks (marks : List Mark) (rest : List Char) :
    readPieces (marks.flatMap Mark.text ++ '"' :: rest) = (marks.map Mark.piece, .ok rest) := by
  induction marks with
  | nil => simp [readPieces]
  | cons m marks ih => rw [List.flatMap_cons, List.append_assoc, m.readPieces_text, ih]; rfl

/-- A quoted text is read as what it says. -/
theorem readText_marks (marks : List Mark) (rest : List Char) :
    readText (marks.flatMap Mark.text ++ '"' :: rest) =
      (.text (Mark.content marks), some rest) := by
  unfold readText Mark.content
  rw [readPieces_marks]
  dsimp only
  cases spell (.ok ()) (marks.map Mark.piece) <;> rfl

/-- Only quoted texts are read to a closing quote. -/
theorem exists_marks_of_readPieces {pieces : List Piece}
    (h : readPieces s = (pieces, .ok rest)) :
    ∃ marks : List Mark, s = marks.flatMap Mark.text ++ '"' :: rest ∧
      marks.map Mark.piece = pieces := by
  -- The cases that are named are those that read a part, or the closing quote.
  fun_induction readPieces s generalizing pieces with
  | case2 =>
    cases h
    exact ⟨[], rfl, rfl⟩
  | case4 a b c d s code hcode found ending hread ih =>
    cases h
    obtain ⟨marks, rfl, rfl⟩ := ih hread
    exact ⟨.unit a b c d code hcode :: marks, rfl, rfl⟩
  | case8 letter s _ _ c hc found ending hread ih =>
    cases h
    obtain ⟨marks, rfl, rfl⟩ := ih hread
    exact ⟨.escape letter c hc :: marks, rfl, rfl⟩
  | case10 c s hquote _ _ hlast hmore hcontrol found ending hread ih =>
    cases h
    have hslash : c ≠ '\\' := by
      intro hc
      cases s with
      | nil => exact hlast hc rfl
      | cons c' s => exact hmore c' s hc rfl
    obtain ⟨marks, rfl, rfl⟩ := ih hread
    exact ⟨.plain c ⟨hquote, hslash, hcontrol⟩ :: marks, rfl, rfl⟩
  | _ => cases h

theorem exists_marks_of_readText {d : Doc} (h : readText s = (d, some rest)) :
    ∃ marks : List Mark, s = marks.flatMap Mark.text ++ '"' :: rest ∧
      d = .text (Mark.content marks) := by
  unfold readText at h
  split at h
  · rename_i pieces rest' hread
    obtain ⟨marks, rfl, rfl⟩ := exists_marks_of_readPieces hread
    refine ⟨marks, ?_, ?_⟩
    · split at h <;> cases h <;> rfl
    · unfold Mark.content
      split at h <;> cases h <;> simp_all
  · split at h <;> cases h

/-! ## Values -/

/-- An item of an array between its blanks. -/
structure Item (α : Type) where
  before : Gap
  value : α
  after : Gap

/-- A member of an object: a name, a colon and a value, with the blanks between them. -/
structure Member (α : Type) where
  before : Gap
  name : List Mark
  beforeColon : Gap
  afterColon : Gap
  value : α
  after : Gap

/-- A text of the language, without the blanks around it. -/
inductive Source where
  | null
  | bool (b : Bool)
  | number (n : Figure)
  | text (marks : List Mark)
  /-- Items, and blanks before the closing bracket. -/
  | array (items : List (Item Source)) (last : Gap)
  /-- Members, and blanks before the closing brace. -/
  | object (members : List (Member Source)) (last : Gap)

/-- The comma before every part but the first one. -/
def comma (first : Bool) : List Char := if first then [] else [',']

namespace Source

mutual

/-- The characters of a text. -/
def chars : Source → List Char
  | null => ['n', 'u', 'l', 'l']
  | bool true => ['t', 'r', 'u', 'e']
  | bool false => ['f', 'a', 'l', 's', 'e']
  | number n => n.text
  | text marks => Mark.quote marks
  | array items last => '[' :: (itemsChars true items ++ (last.chars ++ [']']))
  | object members last => '\x7b' :: (membersChars true members ++ (last.chars ++ ['\x7d']))

/-- The characters of items, which are separated by commas. -/
def itemsChars (first : Bool) : List (Item Source) → List Char
  | [] => []
  | ⟨before, value, after⟩ :: rest =>
    comma first ++ (before.chars ++ (value.chars ++ (after.chars ++ itemsChars false rest)))

/-- The characters of members, which are separated by commas. -/
def membersChars (first : Bool) : List (Member Source) → List Char
  | [] => []
  | ⟨before, name, beforeColon, afterColon, value, after⟩ :: rest =>
    comma first ++ (before.chars ++ (Mark.quote name ++ (beforeColon.chars ++ ':' ::
      (afterColon.chars ++ (value.chars ++ (after.chars ++ membersChars false rest))))))

end

mutual

/-- The document that a text stands for. -/
def doc : Source → Doc
  | null => .null
  | bool b => .bool b
  | number n => .number n.numeral
  | text marks => .text (Mark.content marks)
  | array items _ => .array (itemsDoc items)
  | object members _ => .object (membersDoc members)

/-- The documents of items. -/
def itemsDoc : List (Item Source) → List Doc
  | [] => []
  | ⟨_, value, _⟩ :: rest => value.doc :: itemsDoc rest

/-- The documents of members, with their names. -/
def membersDoc : List (Member Source) → List (Doc × Doc)
  | [] => []
  | ⟨_, name, _, _, value, _⟩ :: rest =>
    (.text (Mark.content name), value.doc) :: membersDoc rest

end

end Source

mutual

/-- There is no flaw in a text, even if a quoted text in it has no content. -/
theorem Source.skip_doc (t : Source) : t.doc.skip = none := by
  cases t with
  | null | bool | number | text => rw [doc, Doc.skip]
  | array items last => rw [doc, Doc.skip, skipItems_itemsDoc items]
  | object members last => rw [doc, Doc.skip, skipMembers_membersDoc members]

theorem Source.skipItems_itemsDoc (items : List (Item Source)) :
    Doc.skipItems (itemsDoc items) = none := by
  cases items with
  | nil => rw [itemsDoc, Doc.skipItems]
  | cons i items =>
    obtain ⟨before, value, after⟩ := i
    rw [itemsDoc, Doc.skipItems, value.skip_doc, skipItems_itemsDoc items]
    rfl

theorem Source.skipMembers_membersDoc (members : List (Member Source)) :
    Doc.skipMembers (membersDoc members) = none := by
  cases members with
  | nil => rw [membersDoc, Doc.skipMembers]
  | cons m members =>
    obtain ⟨before, name, beforeColon, afterColon, value, after⟩ := m
    rw [membersDoc, Doc.skipMembers, Doc.skipName, value.skip_doc, skipMembers_membersDoc members]
    rfl

end

theorem Source.itemsDoc_eq_map (items : List (Item Source)) :
    itemsDoc items = items.map fun i => i.value.doc := by
  induction items with
  | nil => rw [itemsDoc, List.map_nil]
  | cons i items ih => rw [itemsDoc, List.map_cons, ih]

theorem Source.membersDoc_eq_map (members : List (Member Source)) :
    membersDoc members = members.map fun m => (.text (Mark.content m.name), m.value.doc) := by
  induction members with
  | nil => rw [membersDoc, List.map_nil]
  | cons m members ih => rw [membersDoc, List.map_cons, ih]

/-! ## Texts are read as their documents -/

theorem readValue_gap (g : Gap) (fuel : ℕ) (s : List Char) :
    readValue fuel (g.chars ++ s) = readValue fuel s := by
  cases fuel with
  | zero => rw [readValue, readValue]
  | succ fuel => rw [readValue, readValue, dropBlanks_gap]

theorem readItems_gap (g : Gap) (fuel : ℕ) (first : Bool) (s : List Char) :
    readItems fuel first (g.chars ++ s) = readItems fuel first s := by
  cases fuel with
  | zero => rw [readItems, readItems]
  | succ fuel => rw [readItems, readItems, dropBlanks_gap]

theorem readMembers_gap (g : Gap) (fuel : ℕ) (first : Bool) (s : List Char) :
    readMembers fuel first (g.chars ++ s) = readMembers fuel first s := by
  cases fuel with
  | zero => rw [readMembers, readMembers]
  | succ fuel => rw [readMembers, readMembers, dropBlanks_gap]

/-- A value begins with a character that is no blank and does not close anything. -/
theorem Source.exists_chars_eq_cons (t : Source) :
    ∃ c s, t.chars = c :: s ∧ isBlank c = false ∧ c ≠ ']' := by
  cases t with
  | null => exact ⟨_, _, by rw [chars], rfl, by decide⟩
  | bool b => cases b <;> exact ⟨_, _, by rw [chars], rfl, by decide⟩
  | number n =>
    rw [chars, Figure.text]
    cases n.negative with
    | true => exact ⟨_, _, rfl, rfl, by decide⟩
    | false =>
      obtain ⟨c, s, hs⟩ := List.exists_cons_of_ne_nil n.isWhole.ne_nil
      have hdigit : c.isDigit := n.isWhole.digits c (by rw [hs]; exact List.mem_cons_self)
      refine ⟨c, s ++ (n.fractionText ++ n.powerText), by rw [hs]; rfl, ?_, ?_⟩
      · exact isBlank_of_isDigit hdigit
      · rintro rfl
        cases hdigit
  | text marks => exact ⟨_, _, by rw [chars, Mark.quote], rfl, by decide⟩
  | array items last => exact ⟨_, _, by rw [chars], rfl, by decide⟩
  | object members last => exact ⟨_, _, by rw [chars], rfl, by decide⟩

theorem Source.length_chars_pos (t : Source) : 0 < t.chars.length := by
  obtain ⟨c, s, hs, -⟩ := t.exists_chars_eq_cons
  rw [hs]
  exact Nat.succ_pos _

/-- What follows an item or a member cannot be taken for a part of its value. -/
theorem endsNumber_more {more : List Char} (hmore : more = [] ∨ ∃ s, more = ',' :: s)
    (after last : Gap) (hrest : EndsNumber rest) :
    EndsNumber (after.chars ++ (more ++ (last.chars ++ rest))) := by
  refine EndsNumber.gap ?_ after
  obtain rfl | ⟨s, rfl⟩ := hmore
  · exact hrest.gap last
  · exact fun c hc => by cases hc; decide

theorem Source.itemsChars_false (items : List (Item Source)) :
    itemsChars false items = [] ∨ ∃ s, itemsChars false items = ',' :: s := by
  cases items with
  | nil => exact .inl (by rw [itemsChars])
  | cons i items => exact .inr ⟨_, by rw [itemsChars]; rfl⟩

theorem Source.membersChars_false (members : List (Member Source)) :
    membersChars false members = [] ∨ ∃ s, membersChars false members = ',' :: s := by
  cases members with
  | nil => exact .inl (by rw [membersChars])
  | cons m members => exact .inr ⟨_, by rw [membersChars]; rfl⟩

/-- The first item, or the next one behind its comma, is read next. -/
theorem readItems_comma (fuel : ℕ) (first : Bool) (g : Gap) (t : Source) (s : List Char) :
    readItems (fuel + 1) first (comma first ++ (g.chars ++ (t.chars ++ s))) =
      readItem fuel (t.chars ++ s) := by
  obtain ⟨c, s', hs, hblank, hclose⟩ := t.exists_chars_eq_cons
  have hdrop : dropBlanks (g.chars ++ c :: (s' ++ s)) = c :: (s' ++ s) := by
    rw [dropBlanks_gap, dropBlanks_cons hblank]
  have hcomma (u : List Char) : dropBlanks (',' :: u) = ',' :: u := rfl
  rw [hs, List.cons_append]
  cases first with
  | true =>
    rw [comma, if_pos rfl, List.nil_append, readItems, hdrop]
    simp
  | false =>
    rw [comma, if_neg Bool.false_ne_true, List.singleton_append, readItems, hcomma]
    simp [hdrop, hclose]

/-- The first member, or the next one behind its comma, is read next. -/
theorem readMembers_comma (fuel : ℕ) (first : Bool) (g : Gap) (s : List Char) :
    readMembers (fuel + 1) first (comma first ++ (g.chars ++ '"' :: s)) =
      readMember fuel ('"' :: s) := by
  have hdrop : dropBlanks (g.chars ++ '"' :: s) = '"' :: s := by
    rw [dropBlanks_gap]
    rfl
  have hcomma (u : List Char) : dropBlanks (',' :: u) = ',' :: u := rfl
  cases first with
  | true =>
    rw [comma, if_pos rfl, List.nil_append, readMembers, hdrop]
    simp
  | false =>
    rw [comma, if_neg Bool.false_ne_true, List.singleton_append, readMembers, hcomma]
    simp [hdrop]

/-- A member is read as its name and its value, and the members behind it as they are. -/
theorem readMember_quote (name : List Mark) (beforeColon afterColon : Gap) {s left : List Char}
    {d : Doc} {found : List (Doc × Doc) × Option (List Char)} {fuel : ℕ}
    (hvalue : readValue (fuel + 1) s = (d, some left))
    (hmore : readMembers (fuel + 1) false left = found) :
    readMember (fuel + 2) (Mark.quote name ++ (beforeColon.chars ++ ':' ::
        (afterColon.chars ++ s))) =
      ((.text (Mark.content name), d) :: found.1, found.2) := by
  have hname : readValue (fuel + 1) (Mark.quote name ++ (beforeColon.chars ++ ':' ::
      (afterColon.chars ++ s))) =
        (.text (Mark.content name),
          some (beforeColon.chars ++ ':' :: (afterColon.chars ++ s))) := by
    have hread := readText_marks name (beforeColon.chars ++ ':' :: (afterColon.chars ++ s))
    simpa [Mark.quote, readValue, dropBlanks, isBlank] using hread
  have hcolon (u : List Char) : dropBlanks (':' :: u) = ':' :: u := rfl
  rw [readMember, hname]
  simp only [dropBlanks_gap, hcolon, ↓reduceIte]
  rw [readValue_gap, hvalue]
  simp only [hmore]

theorem endsNumber_cons {c : Char} (hc : EndsNumber [c]) (s : List Char) : EndsNumber (c :: s) :=
  fun c' hc' => hc c' hc'

mutual

/-- The text of a tree is read as its document, whatever follows it. Every level of reading takes
a character at least, and what is inside of brackets takes three levels at most. -/
theorem readValue_source (t : Source) (fuel : ℕ) (rest : List Char)
    (hfuel : 3 * t.chars.length ≤ fuel) (hrest : EndsNumber rest) :
    readValue fuel (t.chars ++ rest) = (t.doc, some rest) := by
  obtain ⟨fuel, rfl⟩ : ∃ k, fuel = k + 1 :=
    Nat.exists_eq_succ_of_ne_zero (by have := t.length_chars_pos; omega)
  cases t with
  | null => simp [Source.chars, Source.doc, readValue, dropBlanks, isBlank, readWord, expectWord]
  | bool b =>
    cases b <;>
      simp [Source.chars, Source.doc, readValue, dropBlanks, isBlank, readWord, expectWord]
  | number n =>
    rw [Source.chars, Source.doc]
    exact readValue_figure n fuel hrest
  | text marks =>
    have hread := readText_marks marks rest
    simpa [Source.chars, Source.doc, Mark.quote, readValue, dropBlanks, isBlank] using hread
  | array items last =>
    have hitems := readItems_source items true last fuel rest (by
      simp only [Source.chars, List.length_cons, List.length_append] at hfuel
      omega)
    have hopen (u : List Char) : dropBlanks ('[' :: u) = '[' :: u := rfl
    rw [Source.chars, Source.doc, List.cons_append, readValue, hopen]
    simp only [List.append_assoc, List.singleton_append, hitems]
  | object members last =>
    have hmembers := readMembers_source members true last fuel rest (by
      simp only [Source.chars, List.length_cons, List.length_append] at hfuel
      omega)
    have hopen (u : List Char) : dropBlanks ('\x7b' :: u) = '\x7b' :: u := rfl
    rw [Source.chars, Source.doc, List.cons_append, readValue, hopen]
    simp only [List.append_assoc, List.singleton_append, hmembers]

theorem readItems_source (items : List (Item Source)) (first : Bool) (last : Gap) (fuel : ℕ)
    (rest : List Char) (hfuel : 3 * (Source.itemsChars first items).length + 3 ≤ fuel) :
    readItems fuel first (Source.itemsChars first items ++ (last.chars ++ ']' :: rest)) =
      (Source.itemsDoc items, some rest) := by
  cases items with
  | nil =>
    obtain ⟨fuel, rfl⟩ : ∃ k, fuel = k + 1 := Nat.exists_eq_succ_of_ne_zero (by omega)
    rw [Source.itemsChars, Source.itemsDoc, List.nil_append, readItems_gap, readItems]
    simp [dropBlanks, isBlank]
  | cons i items =>
    obtain ⟨before, value, after⟩ := i
    have hpos := value.length_chars_pos
    simp only [Source.itemsChars, List.length_append] at hfuel
    -- One level for what comes before the item, and one for the item.
    obtain ⟨fuel, rfl⟩ : ∃ k, fuel = k + 2 := ⟨fuel - 2, by omega⟩
    have hrest : EndsNumber (after.chars ++ (Source.itemsChars false items ++
        (last.chars ++ ']' :: rest))) :=
      endsNumber_more (Source.itemsChars_false items) after last
        (endsNumber_cons (fun c hc => by cases hc; decide) rest)
    have hvalue := readValue_source value fuel _ (by omega) hrest
    have hmore := readItems_source items false last fuel rest (by omega)
    rw [Source.itemsChars, Source.itemsDoc]
    simp only [List.append_assoc]
    rw [readItems_comma, readItem, hvalue]
    simp only [readItems_gap, hmore]

theorem readMembers_source (members : List (Member Source)) (first : Bool) (last : Gap)
    (fuel : ℕ) (rest : List Char)
    (hfuel : 3 * (Source.membersChars first members).length + 3 ≤ fuel) :
    readMembers fuel first (Source.membersChars first members ++ (last.chars ++ '\x7d' :: rest)) =
      (Source.membersDoc members, some rest) := by
  cases members with
  | nil =>
    obtain ⟨fuel, rfl⟩ : ∃ k, fuel = k + 1 := Nat.exists_eq_succ_of_ne_zero (by omega)
    rw [Source.membersChars, Source.membersDoc, List.nil_append, readMembers_gap, readMembers]
    simp [dropBlanks, isBlank]
  | cons m members =>
    obtain ⟨before, name, beforeColon, afterColon, value, after⟩ := m
    have hpos := value.length_chars_pos
    simp only [Source.membersChars, List.length_append, List.length_cons] at hfuel
    -- One level for what comes before the member, one for the member, and one for its name.
    obtain ⟨fuel, rfl⟩ : ∃ k, fuel = k + 3 := ⟨fuel - 3, by omega⟩
    have hrest : EndsNumber (after.chars ++ (Source.membersChars false members ++
        (last.chars ++ '\x7d' :: rest))) :=
      endsNumber_more (Source.membersChars_false members) after last
        (endsNumber_cons (fun c hc => by cases hc; decide) rest)
    have hvalue := readValue_source value (fuel + 1) _ (by omega) hrest
    have hmore := readMembers_source members false last (fuel + 1) rest (by omega)
    rw [← readMembers_gap after] at hmore
    have hmember := readMember_quote name beforeColon afterColon hvalue hmore
    rw [Source.membersChars, Source.membersDoc]
    simp only [List.append_assoc, List.cons_append]
    rw [Mark.quote, List.cons_append, readMembers_comma]
    exact hmember

end

/-! ## What is read is a text -/

theorem expectWord_eq_ok {word left : List Char} (h : expectWord word s = .ok left) :
    s = word ++ left := by
  fun_induction expectWord word s with
  | case1 s =>
    cases h
    rfl
  | case2 => cases h
  | case3 word c s ih => rw [ih h, List.cons_append]
  | case4 => cases h

theorem readWord_eq_some {word : List Char} {d meaning : Doc}
    (h : readWord word s meaning = (d, some rest)) : s = word ++ rest ∧ d = meaning := by
  unfold readWord at h
  split at h
  · rename_i left hword
    cases h
    exact ⟨expectWord_eq_ok hword, rfl⟩
  · cases h

/-- What is read with a given bound without a flaw, as a text. Blanks may come before it. -/
structure Exact (fuel : ℕ) : Prop where
  value : ∀ s d rest, readValue fuel s = (d, some rest) →
    ∃ (g : Gap) (t : Source), s = g.chars ++ (t.chars ++ rest) ∧ t.doc = d
  items : ∀ first s ds rest, readItems fuel first s = (ds, some rest) →
    ∃ (g : Gap) (items : List (Item Source)) (last : Gap),
      s = g.chars ++ (Source.itemsChars first items ++ (last.chars ++ ']' :: rest)) ∧
        Source.itemsDoc items = ds
  item : ∀ s ds rest, readItem fuel s = (ds, some rest) →
    ∃ (i : Item Source) (items : List (Item Source)) (last : Gap),
      s = Source.itemsChars true (i :: items) ++ (last.chars ++ ']' :: rest) ∧
        Source.itemsDoc (i :: items) = ds
  members : ∀ first s ds rest, readMembers fuel first s = (ds, some rest) →
    ∃ (g : Gap) (members : List (Member Source)) (last : Gap),
      s = g.chars ++ (Source.membersChars first members ++ (last.chars ++ '\x7d' :: rest)) ∧
        Source.membersDoc members = ds
  member : ∀ s ds rest, readMember fuel s = (ds, some rest) →
    ∃ (m : Member Source) (members : List (Member Source)) (last : Gap),
      s = Source.membersChars true (m :: members) ++ (last.chars ++ '\x7d' :: rest) ∧
        Source.membersDoc (m :: members) = ds

theorem exact_zero : Exact 0 where
  value _ _ _ h := by rw [readValue] at h; cases h
  items _ _ _ _ h := by rw [readItems] at h; cases h
  item _ _ _ h := by rw [readItem] at h; cases h
  members _ _ _ _ h := by rw [readMembers] at h; cases h
  member _ _ _ h := by rw [readMember] at h; cases h

/-- Blanks before the items of an array belong to its first item, or to its closing bracket. -/
theorem exists_items_gap (g : Gap) (items : List (Item Source)) (last : Gap) (s : List Char) :
    ∃ (items' : List (Item Source)) (last' : Gap),
      g.chars ++ (Source.itemsChars true items ++ (last.chars ++ s)) =
          Source.itemsChars true items' ++ (last'.chars ++ s) ∧
        Source.itemsDoc items' = Source.itemsDoc items := by
  cases items with
  | nil => exact ⟨[], g.append last, by simp [Source.itemsChars], rfl⟩
  | cons i items =>
    refine ⟨⟨g.append i.before, i.value, i.after⟩ :: items, last, ?_, ?_⟩
    · simp [Source.itemsChars, comma]
    · rw [Source.itemsDoc, Source.itemsDoc]

/-- Blanks before the members of an object belong to its first member, or to its closing brace. -/
theorem exists_members_gap (g : Gap) (members : List (Member Source)) (last : Gap)
    (s : List Char) :
    ∃ (members' : List (Member Source)) (last' : Gap),
      g.chars ++ (Source.membersChars true members ++ (last.chars ++ s)) =
          Source.membersChars true members' ++ (last'.chars ++ s) ∧
        Source.membersDoc members' = Source.membersDoc members := by
  cases members with
  | nil => exact ⟨[], g.append last, by simp [Source.membersChars], rfl⟩
  | cons m members =>
    obtain ⟨before, name, beforeColon, afterColon, value, after⟩ := m
    refine ⟨⟨g.append before, name, beforeColon, afterColon, value, after⟩ :: members, last, ?_, ?_⟩
    · simp [Source.membersChars, comma]
    · rw [Source.membersDoc, Source.membersDoc]

/-- Behind a comma, blanks belong to the next item. -/
theorem itemsChars_comma (g : Gap) (i : Item Source) (items : List (Item Source)) :
    ',' :: (g.chars ++ Source.itemsChars true (i :: items)) =
      Source.itemsChars false (⟨g.append i.before, i.value, i.after⟩ :: items) := by
  simp [Source.itemsChars, comma]

/-- Behind a comma, blanks belong to the next member. -/
theorem membersChars_comma (g : Gap) (m : Member Source) (members : List (Member Source)) :
    ',' :: (g.chars ++ Source.membersChars true (m :: members)) =
      Source.membersChars false ({ m with before := g.append m.before } :: members) := by
  obtain ⟨before, name, beforeColon, afterColon, value, after⟩ := m
  simp [Source.membersChars, comma]

namespace Exact

variable {fuel : ℕ}

theorem value_succ (h : Exact fuel) {d : Doc} (hread : readValue (fuel + 1) s = (d, some rest)) :
    ∃ (g : Gap) (t : Source), s = g.chars ++ (t.chars ++ rest) ∧ t.doc = d := by
  obtain ⟨g, hs⟩ := exists_gap s
  rw [readValue] at hread
  generalize dropBlanks s = s' at hs hread
  subst hs
  refine ⟨g, ?_⟩
  -- The first character that is no blank tells what is read.
  split at hread
  · cases hread
  · obtain ⟨rfl, rfl⟩ := readWord_eq_some hread
    exact ⟨.null, by rw [Source.chars]; rfl, by rw [Source.doc]⟩
  · obtain ⟨rfl, rfl⟩ := readWord_eq_some hread
    exact ⟨.bool true, by rw [Source.chars]; rfl, by rw [Source.doc]⟩
  · obtain ⟨rfl, rfl⟩ := readWord_eq_some hread
    exact ⟨.bool false, by rw [Source.chars]; rfl, by rw [Source.doc]⟩
  · obtain ⟨marks, rfl, rfl⟩ := exists_marks_of_readText hread
    exact ⟨.text marks, by rw [Source.chars, Mark.quote]; simp, by rw [Source.doc]⟩
  · rename_i s
    generalize hitems : readItems fuel true s = found at hread
    obtain ⟨docs, left⟩ := found
    cases hread
    obtain ⟨g', items, last, rfl, rfl⟩ := h.items true s docs rest hitems
    obtain ⟨items', last', htext, hdoc⟩ := exists_items_gap g' items last (']' :: rest)
    exact ⟨.array items' last', by rw [Source.chars, htext]; simp, by rw [Source.doc, hdoc]⟩
  · rename_i s
    generalize hmembers : readMembers fuel true s = found at hread
    obtain ⟨docs, left⟩ := found
    cases hread
    obtain ⟨g', members, last, rfl, rfl⟩ := h.members true s docs rest hmembers
    obtain ⟨members', last', htext, hdoc⟩ := exists_members_gap g' members last ('\x7d' :: rest)
    exact ⟨.object members' last', by rw [Source.chars, htext]; simp, by rw [Source.doc, hdoc]⟩
  · obtain ⟨n, hn, rfl, rfl⟩ := exists_figure_of_readNumber hread
    exact ⟨.number n, by rw [Source.chars, Figure.text, hn]; rfl, by rw [Source.doc]⟩
  · split at hread
    · obtain ⟨n, hn, hs, rfl⟩ := exists_figure_of_readNumber hread
      exact ⟨.number n, by rw [Source.chars, Figure.text, hn, hs]; rfl, by rw [Source.doc]⟩
    · cases hread

theorem items_succ (h : Exact fuel) {first : Bool} {ds : List Doc}
    (hread : readItems (fuel + 1) first s = (ds, some rest)) :
    ∃ (g : Gap) (items : List (Item Source)) (last : Gap),
      s = g.chars ++ (Source.itemsChars first items ++ (last.chars ++ ']' :: rest)) ∧
        Source.itemsDoc items = ds := by
  obtain ⟨g, hs⟩ := exists_gap s
  rw [readItems] at hread
  generalize dropBlanks s = s' at hs hread
  subst hs
  refine ⟨g, ?_⟩
  split at hread
  · cases hread
  · cases hread
    exact ⟨[], Gap.none, by simp [Source.itemsChars], by rw [Source.itemsDoc]⟩
  · rename_i c s _
    -- The first item comes at once, and every other one behind its comma.
    split at hread
    · rename_i hfirst
      subst hfirst
      obtain ⟨i, items, last, hs, hdoc⟩ := h.item _ _ _ hread
      exact ⟨i :: items, last, by rw [hs], hdoc⟩
    · rename_i hfirst
      obtain rfl := (Bool.not_eq_true first).mp hfirst
      split at hread
      · rename_i hcomma
        subst hcomma
        obtain ⟨g', hs⟩ := exists_gap s
        generalize dropBlanks s = s' at hs hread
        subst hs
        split at hread
        · cases hread
        · cases hread
        · obtain ⟨i, items, last, rfl, rfl⟩ := h.item _ _ _ hread
          refine ⟨⟨g'.append i.before, i.value, i.after⟩ :: items, last, ?_, ?_⟩
          · rw [← itemsChars_comma]
            simp
          · rw [Source.itemsDoc, Source.itemsDoc]
      · cases hread

theorem item_succ (h : Exact fuel) {ds : List Doc}
    (hread : readItem (fuel + 1) s = (ds, some rest)) :
    ∃ (i : Item Source) (items : List (Item Source)) (last : Gap),
      s = Source.itemsChars true (i :: items) ++ (last.chars ++ ']' :: rest) ∧
        Source.itemsDoc (i :: items) = ds := by
  rw [readItem] at hread
  split at hread
  · cases hread
  · rename_i d left hvalue
    generalize hitems : readItems fuel false left = found at hread
    obtain ⟨docs, left'⟩ := found
    cases hread
    obtain ⟨before, t, rfl, rfl⟩ := h.value _ _ _ hvalue
    obtain ⟨after, items, last, rfl, rfl⟩ := h.items _ _ _ _ hitems
    refine ⟨⟨before, t, after⟩, items, last, ?_, by rw [Source.itemsDoc]⟩
    simp [Source.itemsChars, comma]

theorem members_succ (h : Exact fuel) {first : Bool} {ds : List (Doc × Doc)}
    (hread : readMembers (fuel + 1) first s = (ds, some rest)) :
    ∃ (g : Gap) (members : List (Member Source)) (last : Gap),
      s = g.chars ++ (Source.membersChars first members ++ (last.chars ++ '\x7d' :: rest)) ∧
        Source.membersDoc members = ds := by
  obtain ⟨g, hs⟩ := exists_gap s
  rw [readMembers] at hread
  generalize dropBlanks s = s' at hs hread
  subst hs
  refine ⟨g, ?_⟩
  split at hread
  · cases hread
  · cases hread
    exact ⟨[], Gap.none, by simp [Source.membersChars], by rw [Source.membersDoc]⟩
  · rename_i c s _
    -- The first member comes at once, and every other one behind its comma.
    split at hread
    · rename_i hfirst
      subst hfirst
      obtain ⟨m, members, last, hs, hdoc⟩ := h.member _ _ _ hread
      exact ⟨m :: members, last, by rw [hs], hdoc⟩
    · rename_i hfirst
      obtain rfl := (Bool.not_eq_true first).mp hfirst
      split at hread
      · rename_i hcomma
        subst hcomma
        obtain ⟨g', hs⟩ := exists_gap s
        generalize dropBlanks s = s' at hs hread
        subst hs
        split at hread
        · cases hread
        · obtain ⟨m, members, last, hs, rfl⟩ := h.member _ _ _ hread
          rw [hs]
          refine ⟨{ m with before := g'.append m.before } :: members, last, ?_, ?_⟩
          · rw [← membersChars_comma]
            simp
          · rw [Source.membersDoc, Source.membersDoc]
        · cases hread
      · cases hread

theorem member_succ (h : Exact fuel) {ds : List (Doc × Doc)}
    (hread : readMember (fuel + 1) s = (ds, some rest)) :
    ∃ (m : Member Source) (members : List (Member Source)) (last : Gap),
      s = Source.membersChars true (m :: members) ++ (last.chars ++ '\x7d' :: rest) ∧
        Source.membersDoc (m :: members) = ds := by
  rw [readMember] at hread
  split at hread
  · rename_i content left hname
    obtain ⟨before, t, rfl, hdoc⟩ := h.value _ _ _ hname
    -- Only a quoted text stands for a text.
    obtain ⟨marks, rfl, rfl⟩ : ∃ marks, t = .text marks ∧ Mark.content marks = content := by
      cases t <;> simp_all [Source.doc]
    obtain ⟨beforeColon, hleft⟩ := exists_gap left
    generalize dropBlanks left = left' at hleft hread
    subst hleft
    split at hread
    · cases hread
    · rename_i c s
      split at hread
      · rename_i hcolon
        subst hcolon
        split at hread
        · cases hread
        · rename_i d left hvalue
          generalize hmembers : readMembers fuel false left = found at hread
          obtain ⟨docs, left'⟩ := found
          cases hread
          obtain ⟨afterColon, value, rfl, rfl⟩ := h.value _ _ _ hvalue
          obtain ⟨after, members, last, rfl, rfl⟩ := h.members _ _ _ _ hmembers
          refine ⟨⟨before, marks, beforeColon, afterColon, value, after⟩, members, last, ?_, ?_⟩
          · simp [Source.membersChars, Source.chars, comma]
          · rw [Source.membersDoc]
      · cases hread
  · cases hread

end Exact

/-- Whatever the bound, what is read without a flaw is a text. -/
theorem exact (fuel : ℕ) : Exact fuel := by
  -- What is read under a bound is put together from what is read under the bound below it.
  induction fuel with
  | zero => exact exact_zero
  | succ fuel ih =>
    exact {
      value _ _ _ := ih.value_succ
      items _ _ _ _ := ih.items_succ
      item _ _ _ := ih.item_succ
      members _ _ _ _ := ih.members_succ
      member _ _ _ := ih.member_succ }

/-- What is read without a flaw is the text of a tree, behind some blanks. -/
theorem exists_source_of_readValue {fuel : ℕ} {d : Doc}
    (h : readValue fuel s = (d, some rest)) :
    ∃ (g : Gap) (t : Source), s = g.chars ++ (t.chars ++ rest) ∧ t.doc = d :=
  (exact fuel).value s d rest h

/-! ## Whole texts -/

namespace Source

/-- A text of the language with the blanks around it. -/
def whole (before : Gap) (t : Source) (after : Gap) : String :=
  String.ofList (before.chars ++ (t.chars ++ after.chars))

theorem ofText_whole (before : Gap) (t : Source) (after : Gap) :
    Doc.ofText (t.whole before after).toList = (t.doc, some after.chars) := by
  have hends : EndsNumber after.chars := by
    have hgap := endsNumber_nil.gap after
    rwa [List.append_nil] at hgap
  rw [Doc.ofText, whole, String.toList_ofList, readValue_gap]
  exact readValue_source t _ _ (by simp only [List.length_append]; omega) hends

end Source

/-- What is written is a text of the language. -/
theorem exists_source_of_value (v : Value) : ∃ t : Source, t.doc = v.toDoc := by
  obtain ⟨-, t, -, hdoc⟩ := exists_source_of_readValue (Doc.ofText_indented v)
  exact ⟨t, hdoc⟩

namespace Codec

variable {α : Type} (c : Codec α)

/-- Nothing but the document of a text matters. -/
theorem parse_whole (before : Gap) (t : Source) (after : Gap) :
    c.parse (t.whole before after) = c.read t.doc := by
  have hafter : after.chars.all isBlank = true := List.all_eq_true.mpr after.blank
  rw [parse, Source.ofText_whole]
  cases hread : c.read t.doc <;> simp [hread, hafter]

/-- Only texts of the language are decoded. -/
theorem exists_source_of_parse {text : String} {a : α} (h : c.parse text = .ok a) :
    ∃ (before : Gap) (t : Source) (after : Gap),
      text = t.whole before after ∧ c.read t.doc = .ok a := by
  unfold parse at h
  generalize hread : Doc.ofText text.toList = found at h
  obtain ⟨d, left⟩ := found
  dsimp only at h
  split at h
  · cases h
  · rename_i hvalue
    split at h
    · rename_i left
      split at h
      · rename_i hblank
        cases h
        obtain ⟨before, t, htext, rfl⟩ := exists_source_of_readValue hread
        refine ⟨before, t, ⟨left, List.all_eq_true.mp hblank⟩, ?_, hvalue⟩
        rw [Source.whole, ← htext, String.ofList_toList]
      · cases h
    · cases h

end Codec

end Safeguard.Json
