import JsxLowering.Json.Scan
import Mathlib.Data.List.Forall2

/-!
# The grammar of JSON texts

Which texts are JSON values, and which texts spell a string, whatever blanks stand between the
tokens and whatever escapes stand in the strings. A list and an object are described by the texts of
their parts, so that the parts can be read in more than one way.

A string that is read has to spell characters. In a string that is only skipped an escape may also
be half of a surrogate pair.
-/

namespace JsxLowering.Json

/-! ## Blanks -/

/-- Whether a text is made of blanks. -/
def AreBlank (text : List Char) : Prop := ∀ c ∈ text, c ∈ [' ', '\t', '\n', '\r']

instance (text : List Char) : Decidable (AreBlank text) :=
  List.decidableBAll _ text

/-- A text with blanks before and after it. -/
def IsPadded (text padded : List Char) : Prop :=
  ∃ before after, AreBlank before ∧ AreBlank after ∧ padded = before ++ (text ++ after)

/-! ## Strings -/

/-- Whether a text is four hexadecimal digits. -/
def IsHexFour (digits : List Char) : Prop :=
  digits.length = 4 ∧ ∀ d ∈ digits, d ∈ "0123456789abcdefABCDEF".toList

instance (digits : List Char) : Decidable (IsHexFour digits) :=
  have : Decidable (∀ d ∈ digits, d ∈ "0123456789abcdefABCDEF".toList) :=
    List.decidableBAll _ digits
  instDecidableAnd

/-- The escapes of one letter, with what they stand for. -/
def shortEscapes : List (Char × Char) :=
  [('"', '"'), ('\\', '\\'), ('/', '/'), ('b', '\x08'), ('f', '\x0C'), ('n', '\n'), ('r', '\r'),
    ('t', '\t')]

/-- What may follow `\u` for a character: its code, or the codes of its surrogate pair. -/
inductive IsCodeOf (c : Char) : List Char → Prop
  | one {digits : List Char} (hd : IsHexFour digits) (hv : Number.ofDigits 16 digits = c.toNat) :
    IsCodeOf c digits
  | two {high low : List Char} (hh : IsHexFour high) (hl : IsHexFour low) (hc : 0x10000 ≤ c.toNat)
      (hv : Number.ofDigits 16 high = 0xD800 + (c.toNat - 0x10000) / 0x400)
      (hw : Number.ofDigits 16 low = 0xDC00 + (c.toNat - 0x10000) % 0x400) :
    IsCodeOf c (high ++ '\\' :: 'u' :: low)

/-- The text between the quotes of a string, with the characters that it stands for. `codes` says
what may follow `\u`. -/
inductive Spells (codes : Char → List Char → Prop) : List Char → List Char → Prop
  | nil : Spells codes [] []
  | plain {c : Char} {content body : List Char} (hc : 0x20 ≤ c.toNat) (hq : c ≠ '"') (hb : c ≠ '\\')
      (h : Spells codes content body) : Spells codes (c :: content) (c :: body)
  | short {mark c : Char} {content body : List Char} (hm : (mark, c) ∈ shortEscapes)
      (h : Spells codes content body) : Spells codes (c :: content) ('\\' :: mark :: body)
  | code {c : Char} {digits content body : List Char} (hd : codes c digits)
      (h : Spells codes content body) :
    Spells codes (c :: content) ('\\' :: 'u' :: (digits ++ body))

/-- Whether a text may stand between the quotes of a string. Any four digits may follow `\u`. -/
def IsStringBody (body : List Char) : Prop :=
  ∃ content, Spells (fun _ digits => IsHexFour digits) content body

/-- A string in its quotes. -/
def quoted (body : List Char) : List Char := '"' :: (body ++ ['"'])

/-- A spelling of a string, in its quotes. -/
def SpellsText (value : String) (text : List Char) : Prop :=
  ∃ body, Spells IsCodeOf value.toList body ∧ text = quoted body

/-! ## Numbers -/

/-- Whether a text is a run of digits. -/
def AreDigits (run : List Char) : Prop := run ≠ [] ∧ ∀ d ∈ run, d.isDigit

instance (run : List Char) : Decidable (AreDigits run) :=
  have : Decidable (∀ d ∈ run, d.isDigit) := List.decidableBAll _ run
  instDecidableAnd

/-- Whether a text is a whole number: a zero alone, or digits that start with none. -/
def IsWhole (text : List Char) : Prop := text = ['0'] ∨ AreDigits text ∧ text.head? ≠ some '0'

/-- Whether a text is nothing, or a point and digits. -/
def IsFraction (text : List Char) : Prop := text = [] ∨ ∃ run, AreDigits run ∧ text = '.' :: run

/-- Whether a text is nothing, or a power of ten. -/
def IsPower (text : List Char) : Prop :=
  text = [] ∨ ∃ mark sign run, mark ∈ ['e', 'E'] ∧ sign ∈ [[], ['+'], ['-']] ∧ AreDigits run
    ∧ text = mark :: (sign ++ run)

/-- Whether a text is a number. -/
def IsNumber (text : List Char) : Prop :=
  ∃ minus whole fraction power, minus ∈ [[], ['-']] ∧ IsWhole whole ∧ IsFraction fraction
    ∧ IsPower power ∧ text = minus ++ (whole ++ (fraction ++ power))

/-! ## Lists and objects -/

/-- What is left of a list of items, with commas between them and blanks around them: after the
opening bracket, or with `after` set, after an item. -/
inductive Items (closing : Char) : Bool → List (List Char) → List Char → Prop
  | close {after : Bool} {ws : List Char} (hw : AreBlank ws) :
    Items closing after [] (ws ++ [closing])
  | first {ws item text : List Char} {more : List (List Char)} (hw : AreBlank ws)
      (h : Items closing true more text) : Items closing false (item :: more) (ws ++ (item ++ text))
  | comma {ws gap item text : List Char} {more : List (List Char)} (hw : AreBlank ws)
      (hg : AreBlank gap) (h : Items closing true more text) :
    Items closing true (item :: more) (ws ++ ',' :: (gap ++ (item ++ text)))

/-- A list with the texts of its elements. -/
def IsList (elements : List (List Char)) (text : List Char) : Prop :=
  ∃ inside, Items ']' false elements inside ∧ text = '[' :: inside

/-- A member of an object with the texts of its key, which stands between quotes, and its value. -/
def IsMember (key value text : List Char) : Prop :=
  ∃ before after, AreBlank before ∧ AreBlank after
    ∧ text = quoted key ++ (before ++ ':' :: (after ++ value))

/-- An object with the texts of the keys and the values of its members. -/
def IsObject (members : List (List Char × List Char)) (text : List Char) : Prop :=
  ∃ items inside, List.Forall₂ (fun member item => IsMember member.1 member.2 item) members items
    ∧ Items '\x7d' false items inside ∧ text = '\x7b' :: inside

/-- Whether a text is a value. -/
inductive IsValue : List Char → Prop
  | null : IsValue "null".toList
  | boolean (value : Bool) : IsValue (if value then "true" else "false").toList
  | number {text : List Char} (h : IsNumber text) : IsValue text
  | string {body : List Char} (h : IsStringBody body) : IsValue (quoted body)
  | list {elements : List (List Char)} {text : List Char} (h : IsList elements text)
      (hv : ∀ element ∈ elements, IsValue element) : IsValue text
  | object {members : List (List Char × List Char)} {text : List Char} (h : IsObject members text)
      (hk : ∀ member ∈ members, IsStringBody member.1)
      (hv : ∀ member ∈ members, IsValue member.2) : IsValue text

/-- The spelling of a string is the text of one. -/
theorem Spells.isStringBody {content body : List Char} (h : Spells IsCodeOf content body) :
    IsStringBody body := by
  induction h with
  | nil => exact ⟨[], .nil⟩
  | @plain c _ _ printable notQuote notSlash _ ih =>
    obtain ⟨content, spelled⟩ := ih
    exact ⟨c :: content, .plain printable notQuote notSlash spelled⟩
  | @short _ c _ _ known _ ih =>
    obtain ⟨content, spelled⟩ := ih
    exact ⟨c :: content, .short known spelled⟩
  | @code c _ _ _ coded _ ih =>
    obtain ⟨content, spelled⟩ := ih
    cases coded with
    | one hd _ => exact ⟨c :: content, .code hd spelled⟩
    | two hh hl _ _ _ =>
      -- a pair is two escapes
      rw [List.append_assoc]
      exact ⟨c :: c :: content, .code hh (.code hl spelled)⟩

/-- Whether a character may stand in a string without an escape. -/
def isPrinted (c : Char) : Bool := 0x20 ≤ c.toNat && c ≠ '"' && c ≠ '\\'

/-- What needs no escape spells itself. -/
theorem Spells.plain_append {codes : Char → List Char → Prop} {text : List Char}
    (ht : text.all isPrinted) {content body : List Char} (h : Spells codes content body) :
    Spells codes (text ++ content) (text ++ body) := by
  induction text with
  | nil => exact h
  | cons c rest ih =>
    simp only [List.all_cons, isPrinted, Bool.and_eq_true, decide_eq_true_eq] at ht
    obtain ⟨⟨⟨printable, notQuote⟩, notSlash⟩, others⟩ := ht
    exact .plain printable notQuote notSlash (ih others)

/-- A text that needs no escape is its own spelling. -/
theorem Spells.of_plain {codes : Char → List Char → Prop} {text : List Char}
    (ht : text.all isPrinted) : Spells codes text text := by
  have spelled := Spells.plain_append ht (Spells.nil : Spells codes [] [])
  rwa [List.append_nil] at spelled

theorem SpellsText.isValue {value : String} {text : List Char} (h : SpellsText value text) :
    IsValue text := by
  obtain ⟨body, spelled, rfl⟩ := h
  exact .string spelled.isStringBody

/-- A run of items has at least the bracket at its end. -/
theorem Items.length_pos {closing : Char} {after : Bool} {items : List (List Char)}
    {text : List Char} (h : Items closing after items text) : 0 < text.length := by
  induction h with
  | close => simp
  | first _ _ ih => simp only [List.length_append]; omega
  | comma _ _ _ _ => simp only [List.length_append, List.length_cons]; omega

/-- What follows from the relation holds of everything on its right side. -/
theorem forall_mem_of_forall₂ {α β : Type} {R : α → β → Prop} {P : β → Prop}
    (hp : ∀ a b, R a b → P b) {as : List α} {bs : List β} (h : List.Forall₂ R as bs) :
    ∀ b ∈ bs, P b := by
  induction h with
  | nil => exact fun _ known => absurd known List.not_mem_nil
  | cons related _ ih => exact List.forall_mem_cons.mpr ⟨hp _ _ related, ih⟩

/-- Every item takes a character of the text, and so does the end of the list. -/
theorem Items.length_lt {closing : Char} {after : Bool} {items : List (List Char)}
    {text : List Char} (h : Items closing after items text) (hi : ∀ item ∈ items, item ≠ []) :
    items.length < text.length := by
  induction h with
  | close => simp
  | first _ _ ih =>
    obtain ⟨filled, others⟩ := List.forall_mem_cons.mp hi
    have size := List.length_pos_iff.mpr filled
    have later := ih others
    simp only [List.length_append, List.length_cons]
    omega
  | comma _ _ _ ih =>
    obtain ⟨-, others⟩ := List.forall_mem_cons.mp hi
    have later := ih others
    simp only [List.length_append, List.length_cons]
    omega

/-! ## Steps -/

section
variable {α β : Type}

/-- A step that takes `a` goes on with the rest. -/
theorem bind_of_ok {x : Scan α} {a : α} {cs rest : List Char} (h : x cs = .ok (a, rest))
    (f : α → Scan β) : (x >>= f) cs = f a rest := by
  show Except.bind (x cs) _ = _
  rw [h]
  rfl

/-- If a step fails, so do all steps after it. -/
theorem bind_of_error {x : Scan α} {mishap : Mishap} {cs : List Char} (h : x cs = .error mishap)
    (f : α → Scan β) : (x >>= f) cs = .error mishap := by
  show Except.bind (x cs) _ = _
  rw [h]
  rfl

/-- Computing with the value of a step changes the value only. -/
theorem map_of_ok {x : Scan α} {a : α} {cs rest : List Char} (h : x cs = .ok (a, rest))
    (f : α → β) : (x.map f) cs = .ok (f a, rest) := by
  show Except.bind (x cs) _ = _
  rw [h]
  rfl

end

theorem peek_cons (c : Char) (cs : List Char) : peek (c :: cs) = .ok (some c, c :: cs) := rfl

theorem eat_cons (c : Char) (cs : List Char) : eat (c :: cs) = .ok ((), cs) := rfl

/-! ## Reading strings -/

/-- A text has at least as many bytes as characters. -/
theorem length_le_byteSize (text : List Char) : text.length ≤ Text.byteSize text := by
  induction text with
  | nil => exact Nat.le_refl 0
  | cons c rest ih =>
    have filled : 0 < c.utf8Size := c.utf8Size_pos
    rw [List.length_cons, Text.byteSize]
    omega

/-- Four digits are read as the number that they stand for. -/
theorem hexFour_append {digits : List Char} (h : IsHexFour digits) (rest : List Char) :
    hexFour (digits ++ rest) = .ok (Number.ofDigits 16 digits, rest) := by
  obtain ⟨four, hexadecimal⟩ := h
  have size := length_le_byteSize (digits ++ rest)
  rw [List.length_append, four] at size
  have known : "0123456789abcdefABCDEF".toList.all isHexDigit := by decide
  have all : digits.all isHexDigit :=
    List.all_eq_true.mpr fun d hd => List.all_eq_true.mp known d (hexadecimal d hd)
  unfold hexFour
  rw [if_neg (by omega), ← four, List.take_left, List.drop_left]
  exact if_pos all

/-- A character is read from its code or from the codes of its pair. -/
theorem codePoint_append {c : Char} {digits : List Char} (h : IsCodeOf c digits)
    (rest : List Char) : codePoint (digits ++ rest) = .ok (c, rest) := by
  have range : c.toNat < 0xD800 ∨ 0xDFFF < c.toNat ∧ c.toNat < 0x110000 := c.valid
  cases h with
  | one hd hv =>
    unfold codePoint
    rw [bind_of_ok (hexFour_append hd rest), hv, if_neg (by simp; omega), if_pos (by simp; omega),
      Char.ofNat_toNat]
    rfl
  | @two high low hh hl hc hv hw =>
    have first : Number.ofDigits 16 high ≤ 0xDBFF := by omega
    have second : Number.ofDigits 16 low ≤ 0xDFFF := by omega
    have sum : 0x10000 + (Number.ofDigits 16 high - 0xD800) * 0x400
        + (Number.ofDigits 16 low - 0xDC00) = c.toNat := by omega
    unfold codePoint
    rw [List.append_assoc, bind_of_ok (hexFour_append hh _), if_neg (by simp; omega),
      if_neg (by simp; omega)]
    show (pairMark '\\' >>= fun _ => pairMark 'u' >>= fun _ => _)
      ('\\' :: 'u' :: (low ++ rest)) = _
    rw [bind_of_ok (rfl : pairMark '\\' _ = .ok ((), 'u' :: (low ++ rest))),
      bind_of_ok (rfl : pairMark 'u' _ = .ok ((), low ++ rest)),
      bind_of_ok (hexFour_append hl rest), if_neg (by simp; omega), sum, Char.ofNat_toNat]
    rfl

/-- An escape of one letter stands for its character. -/
theorem escapeWith_short {mark c : Char} (h : (mark, c) ∈ shortEscapes) (code : Scan Char)
    (rest : List Char) : escapeWith code (mark :: rest) = .ok (c, rest) := by
  simp only [shortEscapes, List.mem_cons, Prod.mk.injEq, List.not_mem_nil, or_false] at h
  rcases h with ⟨rfl, rfl⟩ | ⟨rfl, rfl⟩ | ⟨rfl, rfl⟩ | ⟨rfl, rfl⟩ | ⟨rfl, rfl⟩ | ⟨rfl, rfl⟩ |
    ⟨rfl, rfl⟩ | ⟨rfl, rfl⟩ <;> rfl

section
variable (code : Scan Char) (control : Scan (List Char)) (fuel : Nat)

/-- A character that needs no escape is read as it stands. -/
theorem stringFrom_plain {c : Char} (hc : 0x20 ≤ c.toNat) (hq : c ≠ '"') (hb : c ≠ '\\')
    (cs : List Char) :
    stringFrom code control (fuel + 1) (c :: cs)
      = (stringFrom code control fuel).map (c :: ·) cs := by
  rw [stringFrom, bind_of_ok (peek_cons c cs)]
  simp only
  rw [if_neg (by omega)]
  rfl

/-- An escape is read as the character that it stands for. -/
theorem stringFrom_escape {c : Char} {cs rest : List Char}
    (h : escapeWith code cs = .ok (c, rest)) :
    stringFrom code control (fuel + 1) ('\\' :: cs)
      = (stringFrom code control fuel).map (c :: ·) rest := by
  show (escapeWith code >>= fun c => stringFrom code control fuel >>= fun rest => pure (c :: rest))
    cs = _
  rw [bind_of_ok h]
  rfl

end

/-- The rest of a string is read up to its quote. The escapes after `\u` are read as `same` says. -/
theorem stringFrom_of_spells {codes : Char → List Char → Prop} (same : Char → Char → Prop)
    {code : Scan Char} (hs : ∀ c, same c c)
    (hc : ∀ c digits rest, codes c digits → ∃ d, same c d ∧ code (digits ++ rest) = .ok (d, rest))
    {content body : List Char} (h : Spells codes content body) (control : Scan (List Char))
    {fuel : Nat} (hf : body.length < fuel) (rest : List Char) :
    ∃ read, List.Forall₂ same content read
      ∧ stringFrom code control fuel (body ++ '"' :: rest) = .ok (read, rest) := by
  obtain ⟨fuel, rfl⟩ := Nat.exists_eq_add_one_of_ne_zero (Nat.ne_zero_of_lt hf)
  -- the induction is on the spelling; each escape takes one step, a pair included
  induction h generalizing fuel with
  | nil => exact ⟨[], .nil, rfl⟩
  | @plain c content body printable notQuote notSlash _ ih =>
    rw [List.length_cons] at hf
    obtain ⟨fuel, rfl⟩ := Nat.exists_eq_add_one_of_ne_zero (show fuel ≠ 0 by omega)
    obtain ⟨read, alike, taken⟩ := ih fuel (by omega)
    refine ⟨c :: read, .cons (hs c) alike, ?_⟩
    rw [List.cons_append, stringFrom_plain _ _ _ printable notQuote notSlash, map_of_ok taken]
  | @short mark c content body known _ ih =>
    rw [List.length_cons, List.length_cons] at hf
    obtain ⟨fuel, rfl⟩ := Nat.exists_eq_add_one_of_ne_zero (show fuel ≠ 0 by omega)
    obtain ⟨read, alike, taken⟩ := ih fuel (by omega)
    refine ⟨c :: read, .cons (hs c) alike, ?_⟩
    rw [List.cons_append, List.cons_append, stringFrom_escape _ _ _ (escapeWith_short known _ _),
      map_of_ok taken]
  | @code c digits content body coded _ ih =>
    rw [List.length_cons, List.length_cons, List.length_append] at hf
    obtain ⟨fuel, rfl⟩ := Nat.exists_eq_add_one_of_ne_zero (show fuel ≠ 0 by omega)
    obtain ⟨read, alike, taken⟩ := ih fuel (by omega)
    obtain ⟨d, like, found⟩ := hc c digits (body ++ '"' :: rest) coded
    refine ⟨d :: read, .cons like alike, ?_⟩
    rw [List.cons_append, List.cons_append, List.append_assoc]
    rw [stringFrom_escape _ _ _ (show escapeWith code ('u' :: _) = _ from found), map_of_ok taken]

/-- A string that is read is what its spelling says. -/
theorem string_of_spells {value : String} {body : List Char} (h : Spells IsCodeOf value.toList body)
    (rest : List Char) : string (body ++ '"' :: rest) = .ok (value, rest) := by
  have enough : body.length < (body ++ '"' :: rest).length + 1 := by
    rw [List.length_append]
    omega
  obtain ⟨read, same, taken⟩ := stringFrom_of_spells Eq (fun _ => rfl)
    (fun c digits rest coded => ⟨c, rfl, codePoint_append coded rest⟩) h
    (failNext .controlCharacter) enough rest
  rw [List.forall₂_eq_eq_eq] at same
  unfold string
  rw [map_of_ok taken, ← same, String.ofList_toList]

/-- A string that is skipped is skipped up to its quote. -/
theorem skipString_of_isStringBody {body : List Char} (h : IsStringBody body) (rest : List Char) :
    skipString (body ++ '"' :: rest) = .ok ((), rest) := by
  obtain ⟨content, spelled⟩ := h
  have skipped {digits : List Char} (hd : IsHexFour digits) (rest : List Char) :
      anyCode (digits ++ rest) = .ok (' ', rest) := bind_of_ok (hexFour_append hd rest) _
  have enough : body.length < (body ++ '"' :: rest).length + 1 := by
    rw [List.length_append]
    omega
  -- what an escape stands for does not matter here, so it is read as a blank
  obtain ⟨read, -, taken⟩ := stringFrom_of_spells (fun _ _ => True) (fun _ => trivial)
    (fun c digits rest coded => ⟨' ', trivial, skipped coded rest⟩) spelled
    (failHere .controlCharacter) enough rest
  exact map_of_ok taken _

end JsxLowering.Json
