import JsxLowering.Proofs.CompleteCode

/-!
# Line breaks in generated sources

The source of a template function is put on one line before it is read. Line breaks in its texts are
escaped and those between its parts separate lexemes that stay apart without them, so neither
matters. Line breaks in the code of a hole are left out as well, and nothing checks that the code
still means the same: a comment that ended with its line goes on, and a line break inside a template
literal is lost. Code that is a whole expression, and the same one on one line, gives the same
function either way.
-/

namespace JsxLowering.Template

open Source

/-! ## The source with its line breaks -/

/-- The source of the function for a fragment, with a name and with its line breaks. -/
def namedSource (fragment : String) : String :=
  String.ofList (functionSource " tmpl".toList dataName.toList (ofText fragment.toList))

/-- It is the source without a name, with the name after the first word. -/
theorem exists_namedSource (fragment : String) :
    ∃ more, source fragment dataName = String.ofList ("function".toList ++ more)
      ∧ namedSource fragment = String.ofList ("function".toList ++ (" tmpl".toList ++ more)) := by
  have regroup (a b c d e f g : List Char) :
      a ++ b ++ c ++ d ++ e ++ f ++ g = a ++ (b ++ (c ++ d ++ e ++ f ++ g)) := by
    simp only [List.append_assoc]
  obtain ⟨more, h⟩ : ∃ more, ∀ name, functionSource name dataName.toList (ofText fragment.toList)
      = "function".toList ++ (name ++ more) := ⟨_, fun name => regroup _ name _ _ _ _ _⟩
  exact ⟨more, congrArg String.ofList (h []), congrArg String.ofList (h " tmpl".toList)⟩

/-- What is compiled is the source with its name, on one line. -/
theorem generated_eq (fragment : String) :
    generated fragment = String.ofList (unbroken (namedSource fragment).toList) :=
  congrArg (fun text => String.ofList (unbroken text)) String.toList_ofList.symm

/-- The hole with its code on one line. -/
def Slot.onOneLine (slot : Slot) : Slot := { slot with code := unbroken slot.code }

/-- Leaving out line breaks changes the codes of slots only. -/
theorem ofSlots_onOneLine (head : List Char) (slots : List Slot) :
    (ofSlots head slots).onOneLine = ofSlots head (slots.map Slot.onOneLine) := by
  rw [onOneLine, ofSlots, ofSlots, List.map_map, List.map_map]
  rfl

/-- Code without line breaks stays as it is. -/
theorem Slot.onOneLine_of_unbroken {slot : Slot} (hn : '\n' ∉ slot.code) (hr : '\r' ∉ slot.code) :
    slot.onOneLine = slot := by
  rw [Slot.onOneLine, unbroken_of_not_mem hn hr]

/-- The function depends on the values of the holes and not on their code. -/
theorem functionTree_onOneLine (name : Tree) (head : List Char) (slots : List Slot) :
    functionTree name head (slots.map Slot.onOneLine) = functionTree name head slots := by
  have joined : joinTree head (slots.map Slot.onOneLine) = joinTree head slots := List.foldl_map ..
  rw [functionTree, functionTree, joined]

/-! ## Line breaks around names -/

/-- Whether a text has only spaces and line breaks. -/
def isPadding (gap : List Char) : Bool := gap.all fun c => c = ' ' || c = '\n' || c = '\r'

/-- What comes after a gap does not depend on the lines that ended before. -/
theorem gapFrom_snd (part : GapPart) (a b : Bool) (cs : List Char) :
    (gapFrom part a cs).2 = (gapFrom part b cs).2 := by
  induction cs generalizing part a b with
  | nil => cases part <;> rfl
  | cons c cs ih =>
    -- in each part of a gap the flag is only handed on or set, and the character decides the rest
    cases part with
    | blank =>
      simp only [gapFrom]
      split_ifs
      · exact ih ..
      · rfl
      · exact ih ..
      · exact ih ..
      · rfl
    | lineComment =>
      simp only [gapFrom]
      split_ifs
      · rfl
      · exact ih ..
    | blockComment opened =>
      simp only [gapFrom]
      split_ifs
      · exact ih ..
      · exact ih ..
    | opening opened => exact ih ..
    | closing => exact ih ..

/-- Padding is skipped like any gap. -/
theorem skip_padding {gap : List Char} (h : isPadding gap) (cs : List Char) :
    skip (gap ++ cs) = skip cs := by
  induction gap with
  | nil => rfl
  | cons c gap ih =>
    simp only [isPadding, List.all_cons, Bool.and_eq_true, Bool.or_eq_true, decide_eq_true_eq] at h
    obtain ⟨(rfl | rfl) | rfl, hg⟩ := h
    · exact ih hg
    · exact (gapFrom_snd .blank true false _).trans (ih hg)
    · exact (gapFrom_snd .blank true false _).trans (ih hg)

theorem isPadding_unbroken {gap : List Char} (h : isPadding gap) : isPadding (unbroken gap) :=
  List.all_eq_true.mpr fun c hc => List.all_eq_true.mp h c (List.mem_of_mem_filter hc)

/-- A name ends before padding and a parenthesis. -/
theorem endsName_padding {gap : List Char} (h : isPadding gap) (cs : List Char) :
    endsName (gap ++ ')' :: cs) := by
  cases gap with
  | nil => rfl
  | cons c gap =>
    simp only [isPadding, List.all_cons, Bool.and_eq_true, Bool.or_eq_true, decide_eq_true_eq] at h
    obtain ⟨(rfl | rfl) | rfl, -⟩ := h <;> rfl

namespace DottedName

/-- The hole for a name with spaces and line breaks around it, and the text after it. -/
def paddedSlot (before : List Char) (name : DottedName) (after text : List Char) : Slot :=
  ⟨before ++ (name.dotted.toList ++ after), name.chain, text⟩

theorem isNameChars_start {name : DottedName} (h : name.isLegal) :
    ∃ start more, Text.isNameChars start ∧ name.dotted.toList = start ++ more := by
  cases name with
  | single root => exact ⟨_, [], MemberRoot.isNameChars_text h, (List.append_nil _).symm⟩
  | member path =>
    exact ⟨_, _, MemberRoot.isNameChars_text (path.isLegal_root h), path.toList_dotted⟩

theorem inParentheses_chain {name : DottedName} (h : name.isLegal) :
    inParentheses name.chain = name.chain := by
  cases name with
  | single root => cases root <;> rfl
  | member path =>
    obtain ⟨object, property, hp⟩ := path.exists_member h
    rw [chain, ← MemberName.reference_eq_chain h, hp]
    rfl

/-- A name up to a closing parenthesis. -/
theorem assignment_padded {mode : Mode} {n : Nat} {name : DottedName} {cs after more : List Char}
    (hm : mode.IsPlain) (ha : mode.awaits = false) (h : name.isLegal) (hp : isPadding after)
    (hs : skip cs = name.dotted.toList ++ (after ++ ')' :: more)) :
    grammar (n + 3) mode .assignment cs = some (name.chain, after ++ ')' :: more) := by
  have closes : skip (after ++ ')' :: more) = ')' :: more := skip_padding hp _
  have operand : endsOperand (after ++ ')' :: more) := by
    rw [endsOperand, closes]
    rfl
  have operators : endsOperators 0 (after ++ ')' :: more) := by
    rw [endsOperators, closes]
    rfl
  have assignment : endsAssignment (after ++ ')' :: more) := by
    rw [endsAssignment, closes]
    rfl
  cases name with
  | single root =>
    -- a name alone could also start an arrow function
    have arrow : afterArrow (after ++ ')' :: more) = none := by
      rw [afterArrow, closes]
      cases breaks (after ++ ')' :: more) <;> rfl
    have named : namedArrowOf (skip (after ++ ')' :: more)) = none := by
      rw [closes]
      rfl
    rw [chain, ← MemberRoot.reference_eq_operand h]
    exact assignment_root hm ha h hs (endsName_padding hp more) operand operators assignment arrow
      named
  | member path =>
    rw [chain, ← MemberName.reference_eq_chain h]
    exact assignment_path hm ha h hs (endsName_padding hp more) operand operators assignment

/-- A name is read the same with any spaces and line breaks around it. -/
theorem isClosed_paddedSlot {before after : List Char} {name : DottedName} (hb : isPadding before)
    (h : name.isLegal) (ha : isPadding after) (text : List Char) :
    (paddedSlot before name after text).IsClosed := by
  obtain ⟨start, end', hstart, hname⟩ := isNameChars_start h
  have closed : (slot (name, text)).IsClosed := isClosed_slot h
  refine Slot.isClosed_of_isRead (fun {mode} {n} hm hw more => ?_) closed.complete closed.plain
  have gap : skip ((paddedSlot before name after text).code ++ ')' :: ')' :: more)
      = name.dotted.toList ++ (after ++ ')' :: ')' :: more) := by
    rw [paddedSlot, List.append_assoc, skip_padding hb, List.append_assoc, hname,
      List.append_assoc, skip_name _ hstart]
  have head {m : Char} (hc : Text.isNameStart m = false) :
      (skip ((paddedSlot before name after text).code ++ ')' :: ')' :: more)).head? ≠ some m := by
    rw [gap, hname, List.append_assoc, ← skip_name _ hstart]
    exact head?_skip_name hstart hc
  have read := unary_paren (n := n + 3) hm (head rfl) (head rfl) (assignment_padded hm hw h ha gap)
    (skip_padding ha _) rfl rfl
  rw [inParentheses_chain h] at read
  exact read

/-- So it is also read the same when the line breaks are left out. -/
theorem isClosed_onOneLine_paddedSlot {before after : List Char} {name : DottedName}
    (hb : isPadding before) (h : name.isLegal) (ha : isPadding after) (text : List Char) :
    (paddedSlot before name after text).onOneLine.IsClosed := by
  have same : unbroken name.dotted.toList = name.dotted.toList :=
    unbroken_of_not_mem (not_mem_dotted h rfl (by decide)) (not_mem_dotted h rfl (by decide))
  have shorter : (paddedSlot before name after text).onOneLine
      = paddedSlot (unbroken before) name (unbroken after) text := by
    simp only [Slot.onOneLine, paddedSlot, unbroken_append, same]
  rw [shorter]
  exact isClosed_paddedSlot (isPadding_unbroken hb) h (isPadding_unbroken ha) text

end DottedName

/-! ## The source on one line -/

/-- If the code of each hole is a whole expression and, where it has line breaks, the same one
without them, then the source with its line breaks and the one on a single line are both read to
their end, as the same function. -/
theorem generated_reads_as_named {fragment : String} {head : List Char} {slots : List Slot}
    (split : ofText fragment.toList = ofSlots head slots)
    (whole : ∀ slot ∈ slots, slot.IsClosed)
    (same : ∀ slot ∈ slots, '\n' ∈ slot.code ∨ '\r' ∈ slot.code → slot.onOneLine.IsClosed) :
    (read? (namedSource fragment) = some (functionTree (.identifier "tmpl") head slots)
        ∧ SpansSource (namedSource fragment) (functionTree (.identifier "tmpl") head slots))
      ∧ read? (generated fragment) = read? (namedSource fragment)
      ∧ SpansSource (generated fragment) (functionTree (.identifier "tmpl") head slots) := by
  have broken : namedSource fragment
      = String.ofList (functionLayout true (ofSlots head slots)) := by
    rw [namedSource, functionSource_eq, split]
  have single : generated fragment
      = String.ofList (functionLayout false (ofSlots head (slots.map Slot.onOneLine))) := by
    rw [generated, unbroken_functionSource, split, ofSlots_onOneLine]
  have closed : ∀ slot ∈ slots.map Slot.onOneLine, slot.IsClosed := by
    intro slot h
    obtain ⟨slot, hs, rfl⟩ := List.mem_map.mp h
    by_cases breaks : '\n' ∈ slot.code ∨ '\r' ∈ slot.code
    · exact same slot hs breaks
    · rw [not_or] at breaks
      rw [Slot.onOneLine_of_unbroken breaks.1 breaks.2]
      exact whole slot hs
  -- both sources are layouts of the same template, up to the line breaks in its codes
  have first := read?_layout true head whole
  have second := read?_layout false head closed
  rw [functionTree_onOneLine] at second
  refine ⟨⟨by rw [broken, first], ?_⟩, by rw [single, second, broken, first], ?_⟩
  · rw [SpansSource, broken, String.toList_ofList]
    exact expression_functionLayout true _ head whole
  · rw [SpansSource, single, String.toList_ofList, ← functionTree_onOneLine]
    exact expression_functionLayout false _ head closed

/-- A path with line breaks around it, a quoted text, and line breaks in the texts between. -/
def spreadFragment : String := "a\r\n<%=\n user.name\r\n%>\nb<%='c)'%>"

def spreadSlots : List Slot :=
  [DottedName.paddedSlot ['\n', ' '] (.member (.base (.name "user") "name")) ['\r', '\n']
    ['\n', 'b'], quotedSlot ['c', ')'] []]

/-- Line breaks between the tokens of the codes change nothing, and those in the text are kept as
escapes. -/
theorem generated_spreadFragment :
    ofText spreadFragment.toList = ofSlots ['a', '\r', '\n'] spreadSlots
      ∧ (∀ slot ∈ spreadSlots, slot.IsClosed)
      ∧ (∀ slot ∈ spreadSlots, '\n' ∈ slot.code ∨ '\r' ∈ slot.code → slot.onOneLine.IsClosed)
      ∧ read? (generated spreadFragment)
          = some (functionTree (.identifier "tmpl") ['a', '\r', '\n'] spreadSlots)
      ∧ read? (generated spreadFragment) = read? (namedSource spreadFragment) := by
  have split : ofText spreadFragment.toList = ofSlots ['a', '\r', '\n'] spreadSlots := by decide
  have whole : ∀ slot ∈ spreadSlots, slot.IsClosed := by
    intro slot hs
    simp only [spreadSlots, List.mem_cons, List.not_mem_nil, or_false] at hs
    rcases hs with rfl | rfl
    · exact DottedName.isClosed_paddedSlot rfl rfl rfl _
    · exact isClosed_quotedSlot _ _
  have same : ∀ slot ∈ spreadSlots,
      '\n' ∈ slot.code ∨ '\r' ∈ slot.code → slot.onOneLine.IsClosed := by
    intro slot hs hb
    simp only [spreadSlots, List.mem_cons, List.not_mem_nil, or_false] at hs
    rcases hs with rfl | rfl
    · exact DottedName.isClosed_onOneLine_paddedSlot rfl rfl rfl _
    · exact absurd hb (by decide)
  obtain ⟨⟨named, -⟩, generated, -⟩ := generated_reads_as_named split whole same
  exact ⟨split, whole, same, generated.trans named, generated⟩

/-- A comment that ends with its line goes on without the line break, and takes the rest of the
source with it. A template literal that is opened in one hole and closed in another loses the line
breaks between them, although neither hole has one. -/
theorem generated_brokenCode :
    ((read? (namedSource "<%= a // b\n %>")).bind unnamed?).map Tree.code
        = some ("function(data) \x7b\n\tvar __t, __p = \"\";\n\t__p += \"\" + "
            ++ "((__t = a) == null ? \"\" : __t) + \"\";\n\treturn __p;\n\x7d")
      ∧ read? (generated "<%= a // b\n %>") = none
      ∧ ((read? (namedSource "<%=\x60%>x<%=\x60%>")).bind unnamed?).map Tree.code
        = some ("function(data) \x7b\n\tvar __t, __p = \"\";\n\t__p += \"\" + "
            ++ "((__t = \x60))==null?'':__t)+\n'x'+\n((__t=(\x60) == null ? \"\" : __t) + \"\";"
            ++ "\n\treturn __p;\n\x7d")
      ∧ ((read? (generated "<%=\x60%>x<%=\x60%>")).bind unnamed?).map Tree.code
        = some ("function(data) \x7b\n\tvar __t, __p = \"\";\n\t__p += \"\" + "
            ++ "((__t = \x60))==null?'':__t)+'x'+((__t=(\x60) == null ? \"\" : __t) + \"\";"
            ++ "\n\treturn __p;\n\x7d") := by
  decide +kernel

end JsxLowering.Template
