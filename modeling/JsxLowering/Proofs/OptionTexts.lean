import JsxLowering.Options.Decode
import JsxLowering.Proofs.JsonReading
import Mathlib.Data.List.Nodup

/-!
# Options by their members

`Field.Spells` says which texts are values of a field. The options that an object spells depend on
nothing but its members: each field has the value of its member, or its default, for any order of
the members, any members with other keys, and any layout of the text. A list is read as the object
with the first fields in order, and a field given twice is refused.
-/

namespace JsxLowering

namespace Json

/-- A member of an object as it is written: what its key says, and the texts of its key, which
stands between quotes, and its value. -/
structure Member where
  name : String
  key : List Char
  value : List Char
  key_spells : Spells IsCodeOf name.toList key
  value_isValue : IsValue value

/-- What a member says: its name and the text of its value. -/
def Member.given (member : Member) : String × List Char := (member.name, member.value)

/-- A text of an object with some members, with blanks around it. -/
def IsObjectText (members : List Member) (json : String) : Prop :=
  ∃ text, IsObject (members.map fun m => (m.key, m.value)) text ∧ IsPadded text json.toList

/-- A text of a list with some elements, with blanks around it. -/
def IsListText (elements : List (List Char)) (json : String) : Prop :=
  ∃ text, IsList elements text ∧ IsPadded text json.toList

/-- The parts of a text of an object. -/
theorem IsObjectText.exists_items {members : List Member} {json : String}
    (h : IsObjectText members json) :
    ∃ items before inside after,
      List.Forall₂ (fun (member : Member) => IsMember member.key member.value) members items
        ∧ Items '\x7d' false items inside ∧ AreBlank before ∧ AreBlank after
        ∧ json.toList = before ++ '\x7b' :: (inside ++ after) ∧ items.length < inside.length := by
  obtain ⟨text, ⟨items, inside, written, inBraces, rfl⟩, before, after, hb, ha, padded⟩ := h
  have filled : ∀ item ∈ items, item ≠ [] := by
    refine forall_mem_of_forall₂ (fun member item own => ?_) written
    obtain ⟨more, start⟩ := IsMember.exists_cons own
    exact start ▸ List.cons_ne_nil _ _
  rw [List.forall₂_map_left_iff] at written
  exact ⟨items, before, inside, after, written, inBraces, hb, ha, padded, inBraces.length_lt filled⟩

end Json

namespace Options

open Json

/-! ## Fields -/

/-- A text of a boolean. -/
def SpellsBoolean (value : Bool) (text : List Char) : Prop :=
  text = (if value then "true" else "false").toList

/-- A text of a list of strings. -/
def SpellsTexts (values : List String) (text : List Char) : Prop :=
  ∃ elements, List.Forall₂ SpellsText values elements ∧ IsList elements text

namespace Field

/-- What a field holds. -/
def Value : Field → Type
  | .captureScope => Bool
  | .builtins => Option (List String)
  | .throwOnMissing => Bool
  | .memberPlaceholders => Bool
  | .typescript => Bool

def get : (field : Field) → Options → field.Value
  | .captureScope, o => o.captureScope
  | .builtins, o => o.builtins
  | .throwOnMissing, o => o.throwOnMissing
  | .memberPlaceholders, o => o.memberPlaceholders
  | .typescript, o => o.typescript

def set : (field : Field) → field.Value → Options → Options
  | .captureScope, value, o => { o with captureScope := value }
  | .builtins, value, o => { o with builtins := value }
  | .throwOnMissing, value, o => { o with throwOnMissing := value }
  | .memberPlaceholders, value, o => { o with memberPlaceholders := value }
  | .typescript, value, o => { o with typescript := value }

/-- A text of a value of a field. -/
def Spells : (field : Field) → field.Value → List Char → Prop
  | .captureScope, value, text => SpellsBoolean value text
  | .builtins, none, text => text = "null".toList
  | .builtins, some values, text => SpellsTexts values text
  | .throwOnMissing, value, text => SpellsBoolean value text
  | .memberPlaceholders, value, text => SpellsBoolean value text
  | .typescript, value, text => SpellsBoolean value text

/-- A field holds what it was set to. -/
theorem get_set_self (field : Field) (value : field.Value) (o : Options) :
    field.get (field.set value o) = value := by
  cases field <;> rfl

/-- Setting a field leaves all others as they are. -/
theorem get_set_of_ne {field other : Field} (h : field ≠ other) (value : other.Value)
    (o : Options) : field.get (other.set value o) = field.get o := by
  cases field <;> cases other <;> first | rfl | exact absurd rfl h

/-- Options are the same if they hold the same in every field. -/
theorem ext_get {o o' : Options} (h : ∀ field : Field, field.get o = field.get o') : o = o' := by
  obtain ⟨a, b, c, d, e⟩ := o
  obtain ⟨a', b', c', d', e'⟩ := o'
  have one : a = a' := h .captureScope
  have two : b = b' := h .builtins
  have three : c = c' := h .throwOnMissing
  have four : d = d' := h .memberPlaceholders
  have five : e = e' := h .typescript
  rw [one, two, three, four, five]

/-- A field is found by its own name and by no other text. -/
theorem ofName?_eq_some {name : String} {field : Field} :
    ofName? name = some field ↔ name = field.name := by
  constructor
  · intro h
    have named := List.find?_some h
    exact (of_decide_eq_true named).symm
  · rintro rfl
    cases field <;> decide

/-- No two fields have the same name. -/
theorem name_inj {field other : Field} (h : field.name = other.name) : field = other := by
  have here := ofName?_eq_some.mpr (Eq.refl field.name)
  rw [h, ofName?_eq_some.mpr rfl] at here
  exact (Option.some.inj here).symm

end Field

/-! ## Reading values -/

/-- A boolean is read from its text, and the scan stops right after it. -/
theorem boolean_append {ws text : List Char} {value : Bool} (hw : AreBlank ws)
    (h : SpellsBoolean value text) (rest : List Char) :
    boolean (ws ++ (text ++ rest)) = .ok (value, rest) := by
  rw [h]
  cases value with
  | true =>
    show boolean (ws ++ 't' :: _) = _
    rw [boolean, bind_of_ok (next_append hw rfl _)]
    exact bind_of_ok (letters_append ['t', 'r', 'u', 'e'] rest) _
  | false =>
    show boolean (ws ++ 'f' :: _) = _
    rw [boolean, bind_of_ok (next_append hw rfl _)]
    exact bind_of_ok (letters_append ['f', 'a', 'l', 's', 'e'] rest) _

/-- A string is read from its text up to the closing quote. -/
theorem text_append {ws text : List Char} {value : String} (hw : AreBlank ws)
    (h : SpellsText value text) (rest : List Char) :
    Options.text (ws ++ (text ++ rest)) = .ok (value, rest) := by
  obtain ⟨body, spelled, rfl⟩ := h
  rw [quoted, List.cons_append, List.append_assoc, Options.text, bind_of_ok (next_append hw rfl _)]
  simp only
  rw [bind_of_ok (eat_cons '"' _)]
  exact string_of_spells spelled rest

/-! ## Lists -/

section
variable {ws : List Char} (hw : AreBlank ws)
include hw

/-- A loop over a list ends before its bracket and leaves it. -/
theorem hasElement_close (started : Bool) (rest : List Char) :
    hasElement started (ws ++ ']' :: rest) = .ok (false, ']' :: rest) := by
  rw [hasElement, bind_of_ok (next_append hw rfl rest)]
  rfl

/-- The end of a list takes its bracket. -/
theorem listEnd_append (rest : List Char) : listEnd (ws ++ ']' :: rest) = .ok ((), rest) := by
  rw [listEnd, bind_of_ok (next_append hw rfl rest)]
  rfl

end

/-- A loop over a list goes on with an element that is left, after the blanks before it. -/
theorem hasElement_items {started : Bool} {element text : List Char} {more : List (List Char)}
    (h : Items ']' started (element :: more) text) (hv : IsValue element) :
    ∃ later, Items ']' true more later
      ∧ ∀ rest, hasElement started (text ++ rest) = .ok (true, element ++ (later ++ rest)) := by
  obtain ⟨c, inside, rfl, filled, other, -⟩ := hv.exists_cons
  cases h with
  | @first ws _ later _ hw left =>
    refine ⟨later, left, fun rest => ?_⟩
    simp only [List.append_assoc, List.cons_append]
    rw [hasElement, bind_of_ok (next_append hw filled _)]
    simp only
    rfl
  | @comma ws gap _ later _ hw hg left =>
    refine ⟨later, left, fun rest => ?_⟩
    simp only [List.append_assoc, List.cons_append]
    rw [hasElement, bind_of_ok (next_append hw rfl _)]
    show (eat >>= fun _ => next >>= _) (',' :: _) = _
    rw [bind_of_ok (eat_cons ',' _), bind_of_ok (next_append hg filled _)]
    simp only
    rfl

theorem isValue_of_forall₂ {values : List String} {elements : List (List Char)}
    (h : List.Forall₂ SpellsText values elements) : ∀ element ∈ elements, IsValue element :=
  forall_mem_of_forall₂ (fun _ _ spelled => spelled.isValue) h

/-- The loop over a list of strings reads them in order, given a step for each and one for the
end. -/
theorem textsFrom_append {values : List String} {elements : List (List Char)}
    (hv : List.Forall₂ SpellsText values elements) {started : Bool} {text : List Char}
    (h : Items ']' started elements text) {fuel : Nat} (hf : elements.length < fuel)
    (rest : List Char) : textsFrom fuel started (text ++ rest) = .ok (values, ']' :: rest) := by
  obtain ⟨fuel, rfl⟩ := Nat.exists_eq_add_one_of_ne_zero (Nat.ne_zero_of_lt hf)
  -- the induction is on the values; each takes one step of the loop, and the bracket one more
  induction hv generalizing started text fuel with
  | nil =>
    cases h with
    | close hw =>
      rw [List.append_assoc, textsFrom]
      exact bind_of_ok (hasElement_close hw started rest) _
  | @cons value element values elements spelled _ ih =>
    obtain ⟨later, left, found⟩ := hasElement_items h spelled.isValue
    rw [List.length_cons] at hf
    obtain ⟨fuel, rfl⟩ := Nat.exists_eq_add_one_of_ne_zero (show fuel ≠ 0 by omega)
    have taken : Options.text (element ++ (later ++ rest)) = .ok (value, later ++ rest) :=
      text_append areBlank_nil spelled _
    rw [textsFrom, bind_of_ok (found rest), if_pos rfl, bind_of_ok taken,
      bind_of_ok (ih left fuel (by omega))]
    rfl

/-- A list of strings is read from its text. -/
theorem texts_append {ws text : List Char} {values : List String} (hw : AreBlank ws)
    (h : SpellsTexts values text) (rest : List Char) :
    texts (ws ++ (text ++ rest)) = .ok (values, rest) := by
  obtain ⟨elements, spelled, inside, items, rfl⟩ := h
  have filled : ∀ element ∈ elements, element ≠ [] :=
    fun element known => (isValue_of_forall₂ spelled element known).ne_nil
  have size := items.length_lt filled
  have enough : elements.length < (inside ++ rest).length + 1 := by
    rw [List.length_append]
    omega
  have taken := textsFrom_append spelled items enough rest
  rw [List.cons_append, texts, bind_of_ok (next_append hw rfl _)]
  simp only
  rw [bind_of_ok (eat_cons '[' _),
    bind_of_ok (x := fun cs => textsFrom (cs.length + 1) false cs) taken]
  exact bind_of_ok (listEnd_append areBlank_nil rest) _

/-- The list of builtins may also be `null`, which stands for none. -/
theorem texts?_append {ws text : List Char} {values : Option (List String)} (hw : AreBlank ws)
    (h : Field.builtins.Spells values text) (rest : List Char) :
    texts? (ws ++ (text ++ rest)) = .ok (values, rest) := by
  cases values with
  | none =>
    have null : text = "null".toList := h
    rw [null]
    show texts? (ws ++ 'n' :: _) = _
    rw [texts?, bind_of_ok (next_append hw rfl _)]
    exact bind_of_ok (letters_append ['n', 'u', 'l', 'l'] rest) _
  | some values =>
    have spelled : SpellsTexts values text := h
    have taken := texts_append areBlank_nil spelled rest
    obtain ⟨elements, -, inside, -, rfl⟩ := spelled
    rw [List.cons_append, texts?, bind_of_ok (next_append hw rfl _)]
    exact bind_of_ok taken _

namespace Field

/-- Whatever spells a value of a field is a value, so it can be skipped as well. -/
theorem Spells.isValue {field : Field} {value : field.Value} {text : List Char}
    (h : field.Spells value text) : IsValue text := by
  have boolean {value : Bool} (h : SpellsBoolean value text) : IsValue text := h ▸ .boolean value
  cases field with
  | captureScope => exact boolean h
  | builtins =>
    cases value with
    | none =>
      have null : text = "null".toList := h
      exact null ▸ .null
    | some values =>
      obtain ⟨elements, spelled, written⟩ := h
      exact .list written (isValue_of_forall₂ spelled)
  | throwOnMissing => exact boolean h
  | memberPlaceholders => exact boolean h
  | typescript => exact boolean h

/-- A field is set to the value that is read. -/
theorem read_append {field : Field} {value : field.Value} {ws text : List Char} (hw : AreBlank ws)
    (h : field.Spells value text) (o : Options) (rest : List Char) :
    field.read o (ws ++ (text ++ rest)) = .ok (field.set value o, rest) := by
  cases field with
  | captureScope => exact bind_of_ok (boolean_append hw h rest) _
  | builtins => exact bind_of_ok (texts?_append hw h rest) _
  | throwOnMissing => exact bind_of_ok (boolean_append hw h rest) _
  | memberPlaceholders => exact bind_of_ok (boolean_append hw h rest) _
  | typescript => exact bind_of_ok (boolean_append hw h rest) _

end Field

/-! ## Values of any kind -/

/-- Reading a value of the wrong kind fails, whatever the value is. -/
theorem fails_wrongType {α : Type} (wanted : String) (cs : List Char) :
    Fails (wrongType wanted : Scan α) cs := by
  -- each kind of value is taken up to some point, and then the problem is raised
  refine fails_bind fun found left => ?_
  split
  · exact fails_bind fun _ _ => fails_failHere _ _
  · exact fails_bind fun _ _ => fails_failHere _ _
  · exact fails_bind fun _ _ => fails_failHere _ _
  · exact fails_bind fun _ _ => fails_bind fun _ _ => fails_failHere _ _
  · exact fails_bind fun _ _ => fails_bind fun _ _ => fails_failHere _ _
  · exact fails_failHere _ _
  · exact fails_failHere _ _
  · split
    · exact fails_bind fun _ _ => fails_failHere _ _
    · exact fails_failNext _ _
  · exact fails_failNext _ _

/-- A scan fails if it takes the next character for the start of a value of the wrong kind. -/
theorem fails_of_wrongType {ws : List Char} (hw : AreBlank ws) {c : Char} (hc : isBlank c = false)
    {α : Type} {branch : Option Char → Scan α} (wanted : String)
    (h : branch (some c) = wrongType wanted) (cs : List Char) :
    Fails (next >>= branch) (ws ++ c :: cs) := by
  rw [Fails, bind_of_ok (next_append hw hc cs), h]
  exact fails_wrongType wanted _

section
variable {ws text rest : List Char} (hw : AreBlank ws)
include hw

/-- Where a boolean is read, another value fails, so the scan cannot end elsewhere. -/
theorem boolean_leaves (h : IsValue text) : Leaves boolean (ws ++ (text ++ rest)) rest := by
  obtain ⟨c, more, start, filled, -, -, truth, -, -⟩ := h.exists_cons
  by_cases marked : c = 't' ∨ c = 'f'
  · obtain ⟨value, written⟩ := truth marked
    exact leaves_of_ok (boolean_append hw written rest)
  · obtain ⟨noTrue, noFalse⟩ := not_or.mp marked
    have wrong : Fails boolean (ws ++ c :: (more ++ rest)) :=
      fails_of_wrongType hw filled "a boolean" (by simp only) _
    rw [start]
    exact wrong.leaves rest

/-- Where a string is read, another value fails, so the scan cannot end elsewhere. -/
theorem text_leaves (h : IsValue text) : Leaves Options.text (ws ++ (text ++ rest)) rest := by
  obtain ⟨c, more, start, filled, -, -, -, string, -⟩ := h.exists_cons
  by_cases marked : c = '"'
  · obtain ⟨body, ⟨content, spelled⟩, written⟩ := string marked
    rw [written, quoted, List.cons_append, List.append_assoc, Leaves, Options.text,
      bind_of_ok (next_append hw rfl _)]
    simp only
    rw [bind_of_ok (eat_cons '"' _)]
    exact (stringFrom_leaves spelled _ _ rest).map _
  · have wrong : Fails Options.text (ws ++ c :: (more ++ rest)) :=
      fails_of_wrongType hw filled "a string" (by simp only) _
    rw [start]
    exact wrong.leaves rest

end

/-- Where strings are read, the loop stops at the closing bracket or fails at an element. -/
theorem textsFrom_leaves {elements : List (List Char)} (hv : ∀ element ∈ elements, IsValue element)
    {started : Bool} {text : List Char} (h : Items ']' started elements text) (fuel : Nat)
    (rest : List Char) : Leaves (textsFrom fuel started) (text ++ rest) (']' :: rest) := by
  -- an element may fail, so the loop is followed step by step and not by its result
  induction fuel generalizing elements started text with
  | zero => exact (fails_failNext _ _).leaves _
  | succ fuel ih =>
    cases elements with
    | nil =>
      cases h with
      | close hw =>
        rw [List.append_assoc, List.singleton_append, Leaves, textsFrom,
          bind_of_ok (hasElement_close hw started rest)]
        exact leaves_of_ok rfl
    | cons element more =>
      obtain ⟨value, values⟩ := List.forall_mem_cons.mp hv
      obtain ⟨later, left, found⟩ := hasElement_items h value
      have taken : Leaves Options.text (element ++ (later ++ rest)) (later ++ rest) :=
        text_leaves areBlank_nil value
      rw [Leaves, textsFrom, bind_of_ok (found rest), if_pos rfl]
      exact taken.bind fun _ => (ih values left).bind fun _ => leaves_of_ok rfl

section
variable {ws text rest : List Char} (hw : AreBlank ws)
include hw

/-- Where a list of strings is read, another value fails, so the scan cannot end elsewhere. -/
theorem texts_leaves (h : IsValue text) : Leaves texts (ws ++ (text ++ rest)) rest := by
  obtain ⟨c, more, start, filled, -, -, -, -, list⟩ := h.exists_cons
  by_cases marked : c = '['
  · obtain ⟨elements, ⟨inside, items, written⟩, values⟩ := list marked
    rw [written, List.cons_append, Leaves, texts, bind_of_ok (next_append hw rfl _)]
    simp only
    rw [bind_of_ok (eat_cons '[' _)]
    refine Leaves.bind (textsFrom_leaves values items _ rest) fun _ => ?_
    exact Leaves.bind (leaves_of_ok (listEnd_append areBlank_nil rest)) fun _ => leaves_of_ok rfl
  · have wrong : Fails texts (ws ++ c :: (more ++ rest)) :=
      fails_of_wrongType hw filled "a sequence" (by simp only) _
    rw [start]
    exact wrong.leaves rest

/-- The scan ends after `null` or after a list. -/
theorem texts?_leaves (h : IsValue text) : Leaves texts? (ws ++ (text ++ rest)) rest := by
  obtain ⟨c, more, start, filled, -, null, -, -, -⟩ := h.exists_cons
  by_cases marked : c = 'n'
  · have spelled : Field.builtins.Spells none text := null marked
    exact leaves_of_ok (texts?_append hw spelled rest)
  · -- the blanks are skipped before the list is read
    have taken : Leaves texts (text ++ rest) rest := texts_leaves areBlank_nil h
    rw [start, List.cons_append] at taken ⊢
    rw [Leaves, texts?, bind_of_ok (next_append hw filled _)]
    simp only [Option.some.injEq, marked, imp_self]
    exact taken.bind fun _ => leaves_of_ok rfl

/-- Reading a value as that of a field leaves what follows it, if it succeeds. -/
theorem Field.read_leaves (h : IsValue text) (field : Field) (o : Options) :
    Leaves (field.read o) (ws ++ (text ++ rest)) rest := by
  cases field with
  | captureScope => exact (boolean_leaves hw h).bind fun _ => leaves_of_ok rfl
  | builtins => exact (texts?_leaves hw h).bind fun _ => leaves_of_ok rfl
  | throwOnMissing => exact (boolean_leaves hw h).bind fun _ => leaves_of_ok rfl
  | memberPlaceholders => exact (boolean_leaves hw h).bind fun _ => leaves_of_ok rfl
  | typescript => exact (boolean_leaves hw h).bind fun _ => leaves_of_ok rfl

end

/-! ## What members give -/

/-- A text spells one value of a field at most. -/
theorem Field.Spells.unique {field : Field} {value other : field.Value} {text : List Char}
    (h : field.Spells value text) (ho : field.Spells other text) : value = other := by
  -- the text is read in one way
  have read := Field.read_append areBlank_nil h {} []
  rw [Field.read_append areBlank_nil ho {} []] at read
  have same := congrArg field.get (Prod.mk.inj (Except.ok.inj read)).1
  rw [Field.get_set_self, Field.get_set_self] at same
  exact same.symm

/-- What members give to the options `base`: a field holds what the text that is given for it
spells, and what is not given is kept. A member is its name and the text of its value. -/
def Gives (members : List (String × List Char)) (base o : Options) : Prop :=
  ∀ field : Field,
    (∀ text, (field.name, text) ∈ members → field.Spells (field.get o) text)
      ∧ (field.name ∉ members.map Prod.fst → field.get o = field.get base)

/-- Whether each member that names a field has a value of that field. -/
def AreTyped (members : List (String × List Char)) : Prop :=
  ∀ field : Field, ∀ text, (field.name, text) ∈ members → ∃ value, field.Spells value text

/-- Members are typed if the first one is and the others are. -/
theorem areTyped_cons {name : String} {text : List Char} {members : List (String × List Char)} :
    AreTyped ((name, text) :: members)
      ↔ (∀ field : Field, name = field.name → ∃ value, field.Spells value text)
        ∧ AreTyped members := by
  constructor
  · intro h
    refine ⟨fun field named => h field text ?_, fun field t given => h field t ?_⟩
    · rw [named]
      exact List.mem_cons_self
    · exact List.mem_cons_of_mem _ given
  · rintro ⟨own, others⟩ field t given
    rcases List.mem_cons.mp given with here | later
    · obtain ⟨named, rfl⟩ := Prod.mk.inj here
      exact own field named.symm
    · exact others field t later

namespace Gives

theorem nil (o : Options) : Gives [] o o :=
  fun _ => ⟨fun _ known => absurd known List.not_mem_nil, fun _ => rfl⟩

/-- A member that names a field gives it its value, as long as no later one names the same field. -/
theorem field {field : Field} {value : field.Value} {text : List Char}
    {members : List (String × List Char)} {base o : Options} (hs : field.Spells value text)
    (hn : field.name ∉ members.map Prod.fst) (h : Gives members (field.set value base) o) :
    Gives ((field.name, text) :: members) base o := by
  -- no later member sets the field again
  have held : field.get o = value := by
    rw [(h field).2 hn, Field.get_set_self]
  intro f
  refine ⟨fun t known => ?_, fun absent => ?_⟩
  · rcases List.mem_cons.mp known with here | later
    · obtain ⟨named, rfl⟩ := Prod.mk.inj here
      obtain rfl := Field.name_inj named
      rw [held]
      exact hs
    · exact (h f).1 t later
  · rw [List.map_cons, List.mem_cons, not_or] at absent
    have other : f ≠ field := fun same => absent.1 (congrArg Field.name same)
    rw [(h f).2 absent.2, Field.get_set_of_ne other]

/-- A member that names no field gives nothing. -/
theorem unknown {name : String} {text : List Char} {members : List (String × List Char)}
    {base o : Options} (hn : ∀ field : Field, name ≠ field.name) (h : Gives members base o) :
    Gives ((name, text) :: members) base o := by
  intro f
  refine ⟨fun t known => ?_, fun absent => ?_⟩
  · rcases List.mem_cons.mp known with here | later
    · exact absurd (Prod.mk.inj here).1.symm (hn f)
    · exact (h f).1 t later
  · rw [List.map_cons, List.mem_cons, not_or] at absent
    exact (h f).2 absent.2

/-- Members give one result. -/
theorem unique {members : List (String × List Char)} {base o o' : Options}
    (h : Gives members base o) (h' : Gives members base o') : o = o' := by
  refine Field.ext_get fun f => ?_
  by_cases known : f.name ∈ members.map Prod.fst
  · obtain ⟨⟨name, text⟩, given, named⟩ := List.mem_map.mp known
    obtain rfl : name = f.name := named
    exact ((h f).1 text given).unique ((h' f).1 text given)
  · rw [(h f).2 known, (h' f).2 known]

end Gives

/-! ## Objects -/

section
variable {ws : List Char} (hw : AreBlank ws)
include hw

/-- A loop over an object ends before its brace and leaves it. -/
theorem hasMember_close (started : Bool) (rest : List Char) :
    hasMember started (ws ++ '\x7d' :: rest) = .ok (false, '\x7d' :: rest) := by
  rw [hasMember, bind_of_ok (next_append hw rfl rest)]
  rfl

/-- A colon may have blanks before it. -/
theorem colon_append (cs : List Char) : colon (ws ++ ':' :: cs) = .ok ((), cs) := by
  rw [colon, bind_of_ok (next_append hw rfl cs)]
  rfl

end

/-- A loop over an object goes on with a member that is left, after the blanks before it. -/
theorem hasMember_items {started : Bool} {item text : List Char} {more : List (List Char)}
    (h : Items '\x7d' started (item :: more) text) {key value : List Char}
    (hm : IsMember key value item) :
    ∃ later, Items '\x7d' true more later
      ∧ ∀ rest, hasMember started (text ++ rest) = .ok (true, item ++ (later ++ rest)) := by
  obtain ⟨inside, rfl⟩ := hm.exists_cons
  cases h with
  | @first ws _ later _ hw left =>
    refine ⟨later, left, fun rest => ?_⟩
    simp only [List.append_assoc, List.cons_append]
    rw [hasMember, bind_of_ok (next_append hw rfl _)]
    rfl
  | @comma ws gap _ later _ hw hg left =>
    refine ⟨later, left, fun rest => ?_⟩
    simp only [List.append_assoc, List.cons_append]
    rw [hasMember, bind_of_ok (next_append hw rfl _)]
    show (eat >>= fun _ => next >>= _) (',' :: _) = _
    rw [bind_of_ok (eat_cons ',' _), bind_of_ok (next_append hg rfl _)]
    rfl

/-- Naming a field that was given fails, at the end of the text as anywhere else. -/
theorem fails_duplicate (field : Field) (cs : List Char) :
    Fails (duplicate field : Scan Options) cs := by
  refine fails_bind fun found left => ?_
  split
  · exact fails_bind fun _ _ => fails_failHere _ _
  · exact fails_failHere _ _

/-- What the loop over an object does with a member: a field given before is refused, another field
is read, and what names no field is skipped. -/
theorem membersFrom_step (member : Member) {item : List Char}
    (hm : IsMember member.key member.value item) {started : Bool} {text : List Char}
    {more : List (List Char)} (h : Items '\x7d' started (item :: more) text) :
    ∃ after later, AreBlank after ∧ Items '\x7d' true more later ∧ ∀ fuel seen o rest,
      (∀ field ∈ seen, member.name = field.name →
          Fails (membersFrom (fuel + 1) seen started o) (text ++ rest))
        ∧ (∀ field ∉ seen, member.name = field.name →
          membersFrom (fuel + 1) seen started o (text ++ rest)
            = (field.read o >>= membersFrom fuel (field :: seen) true)
                (after ++ (member.value ++ (later ++ rest))))
        ∧ ((∀ field : Field, member.name ≠ field.name) →
          membersFrom (fuel + 1) seen started o (text ++ rest)
            = membersFrom fuel seen true o (later ++ rest)) := by
  obtain ⟨later, left, found⟩ := hasMember_items h hm
  obtain ⟨before, after, hb, ha, rfl⟩ := hm
  refine ⟨after, later, ha, left, fun fuel seen o rest => ?_⟩
  have key := string_of_spells member.key_spells
    (before ++ ':' :: (after ++ (member.value ++ (later ++ rest))))
  have shown := found rest
  simp only [quoted, List.append_assoc, List.cons_append, List.nil_append] at shown
  -- the key is read first, and it alone decides what is done
  have whole : membersFrom (fuel + 1) seen started o (text ++ rest)
      = (Field.ofName? member.name).elim
          (colon >>= fun _ => ignored >>= fun _ => membersFrom fuel seen true o)
          (fun field =>
            if seen.contains field then duplicate field
            else colon >>= fun _ => field.read o >>= membersFrom fuel (field :: seen) true)
          (before ++ ':' :: (after ++ (member.value ++ (later ++ rest)))) := by
    rw [membersFrom, bind_of_ok shown, if_pos rfl, bind_of_ok (eat_cons '"' _)]
    refine (bind_of_ok key _).trans ?_
    cases Field.ofName? member.name <;> rfl
  refine ⟨fun field given named => ?_, fun field fresh named => ?_, fun unknown => ?_⟩
  · rw [Fails, whole, Field.ofName?_eq_some.mpr named, Option.elim_some,
      if_pos (List.contains_iff_mem.mpr given)]
    exact fails_duplicate field _
  · rw [whole, Field.ofName?_eq_some.mpr named, Option.elim_some,
      if_neg (mt List.contains_iff_mem.mp fresh), bind_of_ok (colon_append hb _)]
  · -- what follows the value is what ends a number, so the value is skipped exactly
    have noField : Field.ofName? member.name = none := by
      rw [Option.eq_none_iff_forall_ne_some]
      exact fun field named => unknown field (Field.ofName?_eq_some.mp named)
    have ends := left.endsValue (by decide) rest
    rw [whole, noField, Option.elim_none, bind_of_ok (colon_append hb _),
      bind_of_ok (ignored_append ha member.value_isValue ends)]

/-- The loop over an object of typed members, none of which is given twice, gives what they give. -/
theorem membersFrom_of_items {members : List Member} {items : List (List Char)}
    (hm : List.Forall₂ (fun (member : Member) => IsMember member.key member.value) members items)
    (distinct : (members.map Member.name).Nodup) (ht : AreTyped (members.map Member.given))
    {started : Bool} {text : List Char} (h : Items '\x7d' started items text) {seen : List Field}
    (fresh : ∀ field ∈ seen, field.name ∉ members.map Member.name) {fuel : Nat}
    (hf : items.length < fuel) (base : Options) (rest : List Char) :
    ∃ o, membersFrom fuel seen started base (text ++ rest) = .ok (o, '\x7d' :: rest)
      ∧ Gives (members.map Member.given) base o := by
  obtain ⟨fuel, rfl⟩ := Nat.exists_eq_add_one_of_ne_zero (Nat.ne_zero_of_lt hf)
  -- the invariant is that no field that was seen is named by a member that is left
  induction hm generalizing started text seen fuel base with
  | nil =>
    cases h with
    | close hw =>
      refine ⟨base, ?_, Gives.nil base⟩
      rw [List.append_assoc, membersFrom]
      exact bind_of_ok (hasMember_close hw started rest) _
  | @cons member item members items written _ ih =>
    obtain ⟨after, later, ha, left, step⟩ := membersFrom_step member written h
    obtain ⟨-, known, unknown⟩ := step fuel seen base rest
    rw [List.map_cons, List.nodup_cons] at distinct
    rw [List.length_cons] at hf
    obtain ⟨fuel, rfl⟩ := Nat.exists_eq_add_one_of_ne_zero (show fuel ≠ 0 by omega)
    obtain ⟨own, typed⟩ := areTyped_cons.mp ht
    -- what was seen stays apart from what is left, so nothing is refused
    have apart : ∀ field ∈ seen,
        member.name ≠ field.name ∧ field.name ∉ members.map Member.name := by
      intro field given
      have absent := fresh field given
      rw [List.map_cons, List.mem_cons, not_or] at absent
      exact ⟨Ne.symm absent.1, absent.2⟩
    by_cases named : ∃ field : Field, member.name = field.name
    · obtain ⟨field, named⟩ := named
      have first : field ∉ seen := fun given => (apart field given).1 named
      obtain ⟨value, spelled⟩ := own field named
      have others : ∀ f ∈ field :: seen, f.name ∉ members.map Member.name :=
        List.forall_mem_cons.mpr ⟨named ▸ distinct.1, fun f given => (apart f given).2⟩
      obtain ⟨o, taken, gives⟩ :=
        ih distinct.2 typed left others (field.set value base) fuel (by omega)
      refine ⟨o, ?_, ?_⟩
      · rw [known field first named, bind_of_ok (Field.read_append ha spelled base _), taken]
      · have names : field.name ∉ (members.map Member.given).map Prod.fst := by
          rw [List.map_map]
          exact others field List.mem_cons_self
        rw [List.map_cons, Member.given, named]
        exact Gives.field spelled names gives
    · have noField : ∀ field : Field, member.name ≠ field.name := not_exists.mp named
      obtain ⟨o, taken, gives⟩ :=
        ih distinct.2 typed left (fun f given => (apart f given).2) base fuel (by omega)
      exact ⟨o, (unknown noField).trans taken, Gives.unknown noField gives⟩

/-- The loop over an object fails if a field is given twice. -/
theorem fails_membersFrom {members : List Member} {items : List (List Char)}
    (hm : List.Forall₂ (fun (member : Member) => IsMember member.key member.value) members items)
    {started : Bool} {text : List Char} (h : Items '\x7d' started items text) {seen : List Field}
    (hs : seen.Nodup) {field : Field}
    (twice : 2 ≤ seen.count field + (members.map Member.name).count field.name) (fuel : Nat)
    (base : Options) (rest : List Char) :
    Fails (membersFrom fuel seen started base) (text ++ rest) := by
  induction hm generalizing started text seen fuel base with
  | nil =>
    -- a field is seen once at most, so the loop fails before the end
    have once := List.nodup_iff_count_le_one.mp hs field
    rw [List.map_nil, List.count_nil] at twice
    omega
  | @cons member item members items own _ ih =>
    cases fuel with
    | zero => exact fails_failNext _ _
    | succ fuel =>
      obtain ⟨after, later, ha, left, step⟩ := membersFrom_step member own h
      obtain ⟨again, known, unknown⟩ := step fuel seen base rest
      rw [List.map_cons, List.count_cons] at twice
      by_cases named : ∃ f : Field, member.name = f.name
      · obtain ⟨f, named⟩ := named
        by_cases given : f ∈ seen
        · exact again f given named
        · -- the member counts as seen from now on
          have later :
              2 ≤ (f :: seen).count field + (members.map Member.name).count field.name := by
            rw [List.count_cons]
            by_cases same : f = field
            · rw [if_pos (by simp [same])]
              rw [if_pos (by simp [named, same])] at twice
              omega
            · have other : f.name ≠ field.name := fun h => same (Field.name_inj h)
              rw [if_neg (by simp [same])]
              rw [if_neg (by simp [named, other])] at twice
              omega
          have ends := left.endsValue (by decide) rest
          rw [Fails, known f given named]
          refine Leaves.bind_fails (Field.read_leaves ha member.value_isValue f base) fun o => ?_
          exact ih left (List.nodup_cons.mpr ⟨given, hs⟩) later fuel o
      · have noField : ∀ f : Field, member.name ≠ f.name := not_exists.mp named
        rw [if_neg (by simp [noField field])] at twice
        rw [Fails, unknown noField]
        exact ih left hs twice fuel base

/-! ## Lists of values -/

/-- What the elements of a list are given for: each for the field at its place. -/
def under (fields : List Field) (elements : List (List Char)) : List (String × List Char) :=
  (fields.zip elements).map fun p => (p.1.name, p.2)

/-- An element is given for one of the fields. -/
theorem mem_fields_of_under {field : Field} {fields : List Field} {elements : List (List Char)}
    (h : field.name ∈ (under fields elements).map Prod.fst) : field ∈ fields := by
  rw [under, List.map_map] at h
  obtain ⟨⟨other, element⟩, given, named⟩ := List.mem_map.mp h
  rw [← Field.name_inj named]
  exact (List.of_mem_zip given).1

/-- Elements are given for different fields. -/
theorem nodup_names_under {fields : List Field} (h : fields.Nodup) {elements : List (List Char)} :
    ((under fields elements).map Prod.fst).Nodup := by
  induction fields generalizing elements with
  | nil => exact List.nodup_nil
  | cons field fields ih =>
    obtain ⟨fresh, others⟩ := List.nodup_cons.mp h
    cases elements with
    | nil => exact List.nodup_nil
    | cons element elements =>
      have absent : field.name ∉ (under fields elements).map Prod.fst :=
        fun given => fresh (mem_fields_of_under given)
      exact List.nodup_cons.mpr ⟨absent, ih others⟩

/-- The loop over a list gives what the elements are given for. It stops at the bracket, or when all
fields are given. -/
theorem elementsFrom_of_items {fields : List Field} (distinct : fields.Nodup)
    {elements : List (List Char)} (hl : elements.length ≤ fields.length)
    (ht : AreTyped (under fields elements)) {started : Bool} {text : List Char}
    (h : Items ']' started elements text) (base : Options) (rest : List Char) :
    ∃ o ws, AreBlank ws
      ∧ elementsFrom started fields base (text ++ rest) = .ok (o, ws ++ ']' :: rest)
      ∧ Gives (under fields elements) base o := by
  induction fields generalizing elements started text base with
  | nil =>
    obtain rfl := List.eq_nil_of_length_eq_zero (Nat.le_zero.mp hl)
    cases h with
    | @close _ ws hw =>
      -- all fields are given: the loop stops before the blanks, which the end of the list takes
      refine ⟨base, ws, hw, ?_, Gives.nil base⟩
      rw [List.append_assoc, List.singleton_append]
      rfl
  | cons field fields ih =>
    cases elements with
    | nil =>
      cases h with
      | close hw =>
        refine ⟨base, [], areBlank_nil, ?_, Gives.nil base⟩
        rw [List.append_assoc, elementsFrom]
        exact bind_of_ok (hasElement_close hw started rest) _
    | cons element elements =>
      obtain ⟨own, typed⟩ := areTyped_cons.mp ht
      obtain ⟨value, spelled⟩ := own field rfl
      obtain ⟨later, left, found⟩ := hasElement_items h spelled.isValue
      obtain ⟨fresh, others⟩ := List.nodup_cons.mp distinct
      obtain ⟨o, ws, hw, taken, gives⟩ :=
        ih others (Nat.le_of_succ_le_succ hl) typed left (field.set value base)
      have read := Field.read_append areBlank_nil spelled base (later ++ rest)
      refine ⟨o, ws, hw, ?_, gives.field spelled fun given => fresh (mem_fields_of_under given)⟩
      rw [elementsFrom, bind_of_ok (found rest), if_pos rfl]
      exact (bind_of_ok read _).trans taken

/-! ## Whole texts -/

/-- Nothing but blanks may follow the options in a text. -/
theorem readAll_of_ok {text after : List Char} {o : Options} (h : read text = .ok (o, after))
    (ha : AreBlank after) : readAll text = .ok (o, []) := by
  rw [readAll, bind_of_ok h, bind_of_ok (next_of_areBlank ha)]
  rfl

/-- Options that are read from a whole text are the result. -/
theorem ofJson_of_read {json : String} {after : List Char} {o : Options}
    (h : read json.toList = .ok (o, after)) (ha : AreBlank after) : ofJson json = .ok o := by
  have taken : ofChars json.toList = .ok o := by rw [ofChars, readAll_of_ok h ha]
  rw [ofJson, taken]

/-- A text whose reading fails is refused with the code for options. -/
theorem ofJson_of_fails {json : String} (h : Fails read json.toList) :
    ∃ d, ofJson json = .error d ∧ d.code = "JSX-ERR-OPTIONS-001" := by
  have fails : Fails readAll json.toList := h.bind
  match found : readAll json.toList with
  | .ok (o, left) => exact absurd found (fails o left)
  | .error mishap =>
    have taken : ofChars json.toList = .error mishap := by rw [ofChars, found]
    rw [ofJson, taken]
    exact ⟨_, rfl, rfl⟩

/-- The loop over an object in a text of one. -/
theorem read_of_members {before : List Char} (hw : AreBlank before) (inside : List Char) :
    read (before ++ '\x7b' :: inside)
      = (membersFrom (inside.length + 1) [] false {} >>= fun o => eat >>= fun _ => pure o)
          inside := by
  rw [read, bind_of_ok (next_append hw rfl inside)]
  rfl

theorem read_of_elements {before : List Char} (hw : AreBlank before) (inside : List Char) :
    read (before ++ '[' :: inside)
      = (elementsFrom false Field.all {} >>= fun o => listEnd >>= fun _ => pure o) inside := by
  rw [read, bind_of_ok (next_append hw rfl inside)]
  rfl

/-- An object of different typed members is read and gives what they give. -/
theorem ofJson_of_members {members : List Member} {json : String} (h : IsObjectText members json)
    (distinct : (members.map Member.name).Nodup) (ht : AreTyped (members.map Member.given)) :
    ∃ o, ofJson json = .ok o ∧ Gives (members.map Member.given) {} o := by
  obtain ⟨items, before, inside, after, written, inBraces, hb, ha, padded, size⟩ := h.exists_items
  have unseen : ∀ field ∈ ([] : List Field), field.name ∉ members.map Member.name :=
    fun _ given => absurd given List.not_mem_nil
  have enough : items.length < (inside ++ after).length + 1 := by
    rw [List.length_append]
    omega
  obtain ⟨o, taken, gives⟩ :=
    membersFrom_of_items written distinct ht inBraces unseen enough {} after
  refine ⟨o, ofJson_of_read ?_ ha, gives⟩
  rw [padded, read_of_members hb, bind_of_ok taken]
  rfl

/-- An object that gives a field twice is refused, whatever its members hold. -/
theorem ofJson_of_twice {members : List Member} {json : String} (h : IsObjectText members json)
    {field : Field} (twice : 2 ≤ (members.map Member.name).count field.name) :
    ∃ d, ofJson json = .error d ∧ d.code = "JSX-ERR-OPTIONS-001" := by
  obtain ⟨items, before, inside, after, written, inBraces, hb, -, padded, -⟩ := h.exists_items
  have count : 2 ≤ [].count field + (members.map Member.name).count field.name := by
    rw [List.count_nil]
    omega
  apply ofJson_of_fails
  rw [padded, Fails, read_of_members hb]
  exact Fails.bind (fails_membersFrom written inBraces List.nodup_nil count _ {} after)

/-- A list of typed values is read and gives what they give to the first fields. -/
theorem ofJson_of_elements {elements : List (List Char)} {json : String}
    (h : IsListText elements json) (hl : elements.length ≤ 5)
    (ht : AreTyped (under Field.all elements)) :
    ∃ o, ofJson json = .ok o ∧ Gives (under Field.all elements) {} o := by
  obtain ⟨text, ⟨inside, inBrackets, rfl⟩, before, after, hb, ha, padded⟩ := h
  obtain ⟨o, ws, hw, taken, gives⟩ :=
    elementsFrom_of_items (by decide : Field.all.Nodup) hl ht inBrackets {} after
  refine ⟨o, ofJson_of_read ?_ ha, gives⟩
  rw [padded, List.cons_append, read_of_elements hb, bind_of_ok taken]
  exact bind_of_ok (listEnd_append hw after) _

/-- A member whose key has an escape in it. -/
def escapedMember : Member where
  name := "captureScope"
  key := "capture\\u0053cope".toList
  value := "true".toList
  key_spells := by
    have capture : "capture".toList.all isPrinted := by decide
    have code : IsCodeOf 'S' "0053".toList := .one (by decide) (by decide)
    have cope : Spells IsCodeOf "cope".toList "cope".toList := .of_plain (by decide)
    exact Spells.plain_append capture (.code code cope)
  value_isValue := .boolean true

/-- A member that names no field. Its value holds the name of one. -/
def nestedMember : Member where
  name := "a"
  key := "a".toList
  value := "[\"typescript\" ,-1.5e+3]".toList
  key_spells := .of_plain (by decide)
  value_isValue := by
    have number : IsValue "-1.5e+3".toList :=
      .number ⟨['-'], ['1'], ['.', '5'], ['e', '+', '3'], by decide,
        .inr ⟨by decide, by decide⟩, .inr ⟨['5'], by decide, rfl⟩,
        .inr ⟨'e', ['+'], ['3'], by decide, by decide, by decide, rfl⟩, rfl⟩
    have string : IsValue (quoted "typescript".toList) := .string ⟨_, .of_plain (by decide)⟩
    exact .list ⟨_, .first areBlank_nil (.comma (by decide : AreBlank [' ']) areBlank_nil
      (.close areBlank_nil)), rfl⟩
      (List.forall_mem_cons.mpr ⟨string, List.forall_mem_cons.mpr ⟨number, by simp⟩⟩)

theorem isMember_escaped : IsMember escapedMember.key escapedMember.value
    "\"capture\\u0053cope\":\ttrue".toList :=
  ⟨[], ['\t'], by decide, by decide, rfl⟩

theorem isMember_nested : IsMember nestedMember.key nestedMember.value
    "\"a\" : [\"typescript\" ,-1.5e+3]".toList :=
  ⟨[' '], [' '], by decide, by decide, rfl⟩

/-- Its name says `captureScope` once the escape is read, and `true` is a boolean. -/
theorem areTyped_escaped : AreTyped [escapedMember.given] := by
  refine areTyped_cons.mpr ⟨fun field named => ?_, fun _ _ given => absurd given List.not_mem_nil⟩
  obtain rfl := Field.name_inj (show Field.captureScope.name = field.name from named)
  exact ⟨true, rfl⟩

/-- Options depend on nothing but the members: an object whose typed members have different names is
read and gives what they give, however it is written; one that gives a field twice is refused; and a
list of at most five typed values gives what the object with the first fields in order does. -/
theorem ofJson_depends_on_members :
    (∀ members json, IsObjectText members json → (members.map Member.name).Nodup →
        AreTyped (members.map Member.given) →
        ∃ o, ofJson json = .ok o ∧ Gives (members.map Member.given) {} o)
      ∧ (∀ members json, IsObjectText members json → ∀ field : Field,
        2 ≤ (members.map Member.name).count field.name →
        ∃ d, ofJson json = .error d ∧ d.code = "JSX-ERR-OPTIONS-001")
      ∧ (∀ elements json, IsListText elements json → elements.length ≤ 5 →
        AreTyped (under Field.all elements) →
        ∃ o, ofJson json = .ok o ∧ Gives (under Field.all elements) {} o
          ∧ ∀ members other, members.map Member.given = under Field.all elements →
            IsObjectText members other → ofJson other = .ok o) := by
  refine ⟨fun members json written distinct typed => ofJson_of_members written distinct typed,
    fun members json written field twice => ofJson_of_twice written twice,
    fun elements json written short typed => ?_⟩
  obtain ⟨o, taken, gives⟩ := ofJson_of_elements written short typed
  refine ⟨o, taken, gives, fun members other same object => ?_⟩
  -- the object gives the same to the same fields, and what is given determines the options
  have names : members.map Member.name = (under Field.all elements).map Prod.fst := by
    rw [← same, List.map_map]
    rfl
  have distinct : (members.map Member.name).Nodup := by
    rw [names]
    exact nodup_names_under (by decide)
  obtain ⟨o', read, gives'⟩ := ofJson_of_members object distinct (same ▸ typed)
  rw [same] at gives'
  rw [read, gives.unique gives']

/-- An object with an unknown member and an escaped key, one that gives a field twice, and a
list. -/
theorem ofJson_sampleTexts :
    (∃ o,
      ofJson " \x7b\"a\" : [\"typescript\" ,-1.5e+3],\n\"capture\\u0053cope\":\ttrue\x7d" = .ok o
        ∧ o.captureScope = true ∧ o.typescript = false)
      ∧ (∃ d,
        ofJson "\x7b\"capture\\u0053cope\":\ttrue,\"capture\\u0053cope\":\ttrue\x7d" = .error d
        ∧ d.code = "JSX-ERR-OPTIONS-001")
      ∧ ∃ o, ofJson "[true ]" = .ok o
        ∧ ofJson "\x7b\"capture\\u0053cope\":\ttrue\x7d" = .ok o := by
  obtain ⟨objects, repeats, lists⟩ := ofJson_depends_on_members
  refine ⟨?_, ?_, ?_⟩
  · have written : IsObjectText [nestedMember, escapedMember]
        " \x7b\"a\" : [\"typescript\" ,-1.5e+3],\n\"capture\\u0053cope\":\ttrue\x7d" :=
      ⟨_, ⟨_, _, .cons isMember_nested (.cons isMember_escaped .nil),
        .first areBlank_nil (.comma areBlank_nil (by decide : AreBlank ['\n'])
          (.close areBlank_nil)), rfl⟩, [' '], [], by decide, areBlank_nil, rfl⟩
    have unknown : ∀ field : Field, nestedMember.name ≠ field.name := by
      intro field
      cases field <;> decide
    have typed : AreTyped ([nestedMember, escapedMember].map Member.given) :=
      areTyped_cons.mpr ⟨fun field named => absurd named (unknown field), areTyped_escaped⟩
    obtain ⟨o, taken, gives⟩ := objects _ _ written (by decide) typed
    have spelled := (gives .captureScope).1 "true".toList
      (List.mem_cons_of_mem _ List.mem_cons_self)
    have captured : SpellsBoolean true "true".toList := rfl
    exact ⟨o, taken, Field.Spells.unique spelled captured, (gives .typescript).2 (by decide)⟩
  · have written : IsObjectText [escapedMember, escapedMember]
        "\x7b\"capture\\u0053cope\":\ttrue,\"capture\\u0053cope\":\ttrue\x7d" :=
      ⟨_, ⟨_, _, .cons isMember_escaped (.cons isMember_escaped .nil),
        .first areBlank_nil (.comma areBlank_nil areBlank_nil (.close areBlank_nil)), rfl⟩,
        [], [], areBlank_nil, areBlank_nil, rfl⟩
    exact repeats _ _ written .captureScope (by decide)
  · have list : IsListText ["true".toList] "[true ]" :=
      ⟨_, ⟨_, .first areBlank_nil (.close (by decide : AreBlank [' '])), rfl⟩,
        [], [], areBlank_nil, areBlank_nil, rfl⟩
    have object : IsObjectText [escapedMember] "\x7b\"capture\\u0053cope\":\ttrue\x7d" :=
      ⟨_, ⟨_, _, .cons isMember_escaped .nil, .first areBlank_nil (.close areBlank_nil), rfl⟩,
        [], [], areBlank_nil, areBlank_nil, rfl⟩
    obtain ⟨o, taken, -, same⟩ := lists _ _ list (by decide) areTyped_escaped
    exact ⟨o, taken, same _ _ rfl object⟩

end Options

end JsxLowering
