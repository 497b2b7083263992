import JsxLowering.Code.Printer
import JsxLowering.Proofs.Joining
import JsxLowering.Proofs.TemplateReading

/-!
# Templates whose code is complete

A template is read from the whole source that is generated for it if the code of each hole is a
whole expression. Nothing checks that it is: code that closes the parentheses around it may end the
function early, and what comes after it is left out. Names and dotted paths are whole expressions,
so a fragment that has only these in its holes compiles, whatever its texts are.
-/

namespace JsxLowering.Template

open Source

/-! ## The whole source -/

/-- An expression is read from a text up to its end. -/
def SpansSource (source : String) (tree : Tree) : Prop :=
  grammar (depthOf source.toList) { size := Text.byteSize source.toList } .expression source.toList
    = some (tree, [])

/-- A fragment that is refused is reported as a fault of its template. If the code of each hole is a
whole expression, it is not refused: it compiles to the function of its texts and values, and this
function is read from the whole generated source. -/
theorem compile_uses_whole_source (fragment : String) :
    (∀ fault, compile fragment = .error fault → fault.code = "JSX-ERR-TEMPLATE-001")
      ∧ ∀ head slots, (ofText fragment.toList).onOneLine = ofSlots head slots →
          (∀ slot ∈ slots, slot.IsClosed) →
          compile fragment = .ok (functionTree .absent head slots)
            ∧ SpansSource (generated fragment)
                (functionTree (.identifier "tmpl") head slots) := by
  refine ⟨fun fault h => code_of_compile h, fun head slots hf hs => ⟨compile_ofSlots hs hf, ?_⟩⟩
  rw [SpansSource, toList_generated, hf]
  exact expression_functionLayout false _ head hs

/-- The hole for a quoted text, and the text after it. -/
def quotedSlot (quoted text : List Char) : Slot :=
  ⟨quotedSource quoted [], .string (String.ofList quoted), text⟩

/-- Parentheses and braces in a quoted text do not count. -/
theorem isClosed_quotedSlot (quoted text : List Char) : (quotedSlot quoted text).IsClosed := by
  refine Slot.isClosed_of_isRead (fun {mode} {n} hm _ more => ?_) rfl rfl
  have value : grammar (n + 3) mode .assignment (quotedSource quoted (')' :: ')' :: more))
      = some (.string (String.ofList quoted), ')' :: ')' :: more) :=
    assignment_of_unary hm (namedArrow_mark _ rfl rfl (by decide)) (unary_quoted hm quoted rfl)
      rfl rfl rfl
  have code : (quotedSlot quoted text).code ++ ')' :: ')' :: more
      = quotedSource quoted (')' :: ')' :: more) := by
    simp [quotedSlot, quotedSource]
  rw [code]
  exact unary_paren hm (head?_skip_cons rfl (by decide)) (head?_skip_cons rfl (by decide)) value
    rfl rfl rfl

/-- A path that goes on after a line break, and a quoted text with parentheses and a brace. -/
def brokenFragment : String := "x<%= a\n.b %>y<%='c)))\x7d'%>z"

def brokenSlots : List Slot :=
  [pathSlot (.base (.name "a") "b", ['y']), quotedSlot "c)))\x7d".toList ['z']]

/-- The line break in the code is left out, and the rest of it is read as one expression. -/
theorem compile_brokenFragment :
    (∀ slot ∈ brokenSlots, slot.IsClosed)
      ∧ compile brokenFragment = .ok (functionTree .absent ['x'] brokenSlots)
      ∧ SpansSource (generated brokenFragment)
          (functionTree (.identifier "tmpl") ['x'] brokenSlots) := by
  have closed : ∀ slot ∈ brokenSlots, slot.IsClosed := by
    intro slot hs
    simp only [brokenSlots, List.mem_cons, List.not_mem_nil, or_false] at hs
    rcases hs with rfl | rfl
    · exact isClosed_pathSlot rfl
    · exact isClosed_quotedSlot _ _
  have split : (ofText brokenFragment.toList).onOneLine = ofSlots ['x'] brokenSlots := by decide
  exact ⟨closed, (compile_uses_whole_source brokenFragment).2 _ _ split closed⟩

/-- Code that closes the parentheses and the body ends the function: the rest of the code, the text
after the hole and the result are left out. Code that closes the parentheses and opens them again is
not noticed either. -/
theorem compile_closingCode :
    (compile "a<%= b)))\x7d; c %>d").toOption.map Tree.code
        = some "function(data) \x7b\n\tvar __t, __p = \"\";\n\t__p += \"a\" + (__t = b);\n\x7d"
      ∧ (compile "<%= a)+(b %>").toOption.map Tree.code
        = some ("function(data) \x7b\n\tvar __t, __p = \"\";\n\t__p += \"\" + "
            ++ "((__t = a + b) == null ? \"\" : __t) + \"\";\n\treturn __p;\n\x7d") := by
  decide +kernel

/-! ## Names and dotted paths -/

/-- A name, or a dotted path of names. -/
inductive DottedName
  | single (root : MemberRoot)
  | member (path : MemberName)
deriving DecidableEq, Repr

namespace DottedName

/-- The text. -/
def dotted : DottedName → String
  | .single root => root.text
  | .member path => path.dotted

/-- The name or the chain of accesses that the text spells. -/
def chain : DottedName → Tree
  | .single root => root.operand
  | .member path => path.chain

/-- Whether all parts are identifier names, and the first one stands for a value. -/
def isLegal : DottedName → Bool
  | .single root => root.isLegal
  | .member path => path.isLegal

/-- The hole for a name, and the text after it. -/
def slot (hole : DottedName × List Char) : Slot :=
  ⟨' ' :: (hole.1.dotted.toList ++ [' ']), hole.1.chain, hole.2⟩

theorem not_mem_dotted {name : DottedName} (h : name.isLegal) {c : Char}
    (hc : Text.isNamePart c = false) (hd : c ≠ '.') : c ∉ name.dotted.toList := by
  cases name with
  | single root =>
    intro hm
    rw [Text.isNamePart_of_mem (MemberRoot.isNameChars_text h) hm] at hc
    cases hc
  | member path => exact MemberName.not_mem_dotted h hc hd

/-- A root alone is a whole expression. -/
theorem isClosed_single {root : MemberRoot} (h : root.isLegal) (text : List Char) :
    (slot (.single root, text)).IsClosed := by
  have name := MemberRoot.isNameChars_text h
  have same : inParentheses root.operand = root.operand := by
    cases root <;> rfl
  refine Slot.isClosed_of_isRead (fun {mode} {n} hm ha more => ?_) ?_ ?_
  · have value {cs more : List Char}
        (hs : skip cs = root.text.toList ++ ([] ++ ' ' :: ')' :: more)) :
        grammar (n + 3) mode .assignment cs = some (root.operand, ' ' :: ')' :: more) := by
      rw [← MemberRoot.reference_eq_operand h]
      exact assignment_root hm ha h hs rfl rfl rfl rfl rfl rfl
    have read := unary_padded hm name same value more
    rw [List.append_nil] at read
    exact read
  · cases root <;> rfl
  · cases root <;> rfl

/-- A dotted name is a whole expression. -/
theorem isClosed_slot {hole : DottedName × List Char} (h : hole.1.isLegal) :
    (slot hole).IsClosed := by
  obtain ⟨name, text⟩ := hole
  cases name with
  | single root => exact isClosed_single h text
  | member path =>
    have closed : (pathSlot (path, text)).IsClosed := isClosed_pathSlot h
    rw [pathSlot, MemberName.reference_eq_chain h] at closed
    exact closed

end DottedName

/-! ## Clean fragments -/

/-- Texts with names in the holes between them. -/
def cleanText (head : List Char) (holes : List (DottedName × List Char)) : List Char :=
  head ++ holes.flatMap fun (name, text) =>
    "<%= ".toList ++ name.dotted.toList ++ " %>".toList ++ text

/-- The template with these slots spells the clean text. -/
theorem spelled_ofSlots (head : List Char) (holes : List (DottedName × List Char)) :
    (ofSlots head (holes.map DottedName.slot)).spelled = cleanText head holes := by
  rw [spelled, cleanText, ofSlots, List.map_map, List.flatMap_map]
  congr 1
  refine List.flatMap_congr fun hole _ => ?_
  simp [Slot.hole, DottedName.slot, spelledHole, openMark, closeMark]

/-- The scan finds exactly the texts and names that were put together. -/
theorem ofText_cleanText {head : List Char} {holes : List (DottedName × List Char)}
    (texts : ∀ text ∈ head :: holes.map Prod.snd, ¬ openMark <:+: text)
    (names : ∀ hole ∈ holes, hole.1.isLegal) :
    ofText (cleanText head holes) = ofSlots head (holes.map DottedName.slot) := by
  have free : (ofSlots head (holes.map DottedName.slot)).IsMarkFree := by
    intro text ht
    simp only [ofSlots, List.map_map] at ht
    exact texts text ht
  refine ofText_eq_iff.mpr ⟨spelled_ofSlots head holes, fun code hc => ?_, free.isSettled⟩
  simp only [codes, ofSlots, List.map_map, List.mem_map] at hc
  obtain ⟨hole, hm, rfl⟩ := hc
  exact isCode_padded (DottedName.not_mem_dotted (names hole hm) rfl (by decide))

/-- Texts without opening marks and names in the holes between them compile to the function that
joins exactly these texts and the values of these names. -/
theorem compile_cleanText {head : List Char} {holes : List (DottedName × List Char)}
    (texts : ∀ text ∈ head :: holes.map Prod.snd, ¬ openMark <:+: text)
    (names : ∀ hole ∈ holes, hole.1.isLegal) :
    compile (String.ofList (cleanText head holes))
      = .ok (functionTree .absent head (holes.map DottedName.slot)) := by
  refine compile_ofSlots_unbroken (fun slot hs => ?_) ?_
  · obtain ⟨hole, hm, rfl⟩ := List.mem_map.mp hs
    refine ⟨DottedName.isClosed_slot (names hole hm), ?_⟩
    -- no name holds a line break
    exact unbroken_padded (DottedName.not_mem_dotted (names hole hm) rfl (by decide))
      (DottedName.not_mem_dotted (names hole hm) rfl (by decide))
  · rw [String.toList_ofList, ofText_cleanText texts names]

/-- Texts with quotes, a backslash, all line ends, a null character and parts of marks. -/
def trickyHead : List Char := "a'\"\\\r\n\u2028\u2029\x00\r%>\n<%".toList

def trickyHoles : List (DottedName × List Char) :=
  [(.single (.name "user"), "= <".toList),
   (.member (.step (.base .this "a") "class"), "%>'".toList),
   (.single .this, "+\n'".toList)]

/-- Quotes, breaks and parts of marks in the texts do no harm. -/
theorem compile_trickyHoles :
    (∀ text ∈ trickyHead :: trickyHoles.map Prod.snd, ¬ openMark <:+: text)
      ∧ (∀ hole ∈ trickyHoles, hole.1.isLegal)
      ∧ compile (String.ofList (cleanText trickyHead trickyHoles))
        = .ok (functionTree .absent trickyHead (trickyHoles.map DottedName.slot)) := by
  have texts : ∀ text ∈ trickyHead :: trickyHoles.map Prod.snd, ¬ openMark <:+: text := by decide
  have names : ∀ hole ∈ trickyHoles, hole.1.isLegal := by decide
  exact ⟨texts, names, compile_cleanText texts names⟩

end JsxLowering.Template
