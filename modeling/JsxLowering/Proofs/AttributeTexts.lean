import JsxLowering.Proofs.Outlines

/-!
# Reading attribute texts back

The attribute text of an element lists its named properties as `name='text'`, with single spaces
between them. `Property.read?` reads such a list from the left: a name up to a delimiter, `='`, and
the text up to the next quote. It accepts exactly the lists in which no name holds a delimiter and
no text a quote. Quotes in the text of a property are written as entities, so that its properties
are found again in an attribute text, whatever their values are, and each quote of it delimits one
of them.
-/

namespace JsxLowering

/-! ## Attributes as they are written -/

/-- Whether a character delimits attributes: it ends a name or a text, or stands between two
attributes. -/
def Text.isDelimiter (c : Char) : Bool := c = '=' || c = '\'' || c = ' '

/-- Whether no character of a name delimits attributes. -/
def Text.isUndelimited (name : String) : Bool := name.toList.all fun c => !isDelimiter c

namespace Property

/-- The name of a property. A spread has none. -/
def name? : Property → Option String
  | .named name _ _ => some name
  | .spread _ => none

/-- The name of a property and its text as they are written, with the quotes in the text as
entities. -/
def written? (p : Property) : Option (String × String) := do
  some (← p.name?, quote (← p.text?))

/-- What a name and a text have to be like to be told apart from what stands around them. -/
structure IsWritten (item : String × String) : Prop where
  name : Text.isUndelimited item.1
  text : '\'' ∉ item.2.toList

/-- A property is written from its name and the quoted text of its value. -/
theorem attribute?_eq (p : Property) : p.attribute? = p.written?.map writtenAttribute := by
  cases p <;> rfl

/-- Quoting leaves no quote in a text, so only the name can spoil what is written. -/
theorem isWritten_of_written? {p : Property} {item : String × String}
    (h : p.name?.all Text.isUndelimited) (hw : p.written? = some item) : IsWritten item := by
  cases p with
  | named name value placeholder =>
    cases hw
    exact ⟨h, not_mem_quote _⟩
  | spread argument => cases hw

/-! ## The reader -/

/-- The attribute that a text starts with, and what comes after it. The name goes up to the first
delimiter, and the text up to the next quote. -/
def attributeAt? (cs : List Char) : Option ((String × String) × List Char) :=
  match cs.span (!Text.isDelimiter ·) with
  | (name, '=' :: '\'' :: inner) =>
    match inner.span (· ≠ '\'') with
    | (text, '\'' :: rest) => some ((String.ofList name, String.ofList text), rest)
    | _ => none
  | _ => none

/-- An attribute that is read is spelled at the start of the text, and the rest is what follows
it. -/
theorem attributeAt?_sound {cs rest : List Char} {item : String × String}
    (h : attributeAt? cs = some (item, rest)) :
    IsWritten item ∧ cs = (writtenAttribute item).toList ++ rest := by
  unfold attributeAt? at h
  split at h
  · next name inner hn =>
    split at h
    · next text after ht =>
      cases h
      -- each span hands over the characters before a mark, and none of them is that mark
      obtain ⟨named, rfl⟩ := Source.span_split hn
      obtain ⟨unquoted, rfl⟩ := Source.span_split ht
      refine ⟨⟨?_, ?_⟩, ?_⟩
      · simpa [Text.isUndelimited] using named
      · intro quote
        rw [String.toList_ofList] at quote
        exact absurd (unquoted _ quote) (by decide)
      · simp [toList_writtenAttribute]
    · cases h
  · cases h

/-- An attribute that is written is read back in front of any text. -/
theorem attributeAt?_complete {item : String × String} (h : IsWritten item) (rest : List Char) :
    attributeAt? ((writtenAttribute item).toList ++ rest) = some (item, rest) := by
  have name : (item.1.toList ++ '=' :: '\'' :: (item.2.toList ++ '\'' :: rest)).span
      (!Text.isDelimiter ·) = (item.1.toList, '=' :: '\'' :: (item.2.toList ++ '\'' :: rest)) := by
    apply Source.span_append
    · intro c hc
      exact List.all_eq_true.mp h.name c hc
    · intro c hc
      cases hc
      rfl
  have text : (item.2.toList ++ '\'' :: rest).span (· ≠ '\'')
      = (item.2.toList, '\'' :: rest) := by
    apply Source.span_append
    · intro c hc
      exact decide_eq_true fun quote => h.text (quote ▸ hc)
    · intro c hc
      cases hc
      rfl
  rw [toList_writtenAttribute]
  simp only [List.append_assoc, List.cons_append, List.nil_append]
  simp only [attributeAt?, name, text, String.ofList_toList]

/-- Reading an attribute takes at least its mark and quotes, so reading a list of them ends. -/
theorem length_attributeAt? {cs rest : List Char} {item : String × String}
    (h : attributeAt? cs = some (item, rest)) : rest.length < cs.length := by
  rw [(attributeAt?_sound h).2, toList_writtenAttribute]
  simp only [List.length_append, List.length_cons]
  omega

/-- The attributes in a text, each after a space. -/
def spacedFrom? : List Char → Option (List (String × String))
  | [] => some []
  | c :: cs =>
    if c = ' ' then
      match _ : attributeAt? cs with
      | some (item, rest) => (spacedFrom? rest).map (item :: ·)
      | none => none
    else none
termination_by cs => cs.length
decreasing_by
  have shorter : rest.length < cs.length := length_attributeAt? ‹_›
  rw [List.length_cons]
  omega

/-- The attributes that a text lists, with single spaces between them. -/
def read? (text : String) : Option (List (String × String)) :=
  if text = "" then some []
  else do
    let (first, rest) ← attributeAt? text.toList
    let others ← spacedFrom? rest
    some (first :: others)

/-- A list that is read is spelled by the whole text. -/
theorem spacedFrom?_sound {cs : List Char} {items : List (String × String)}
    (h : spacedFrom? cs = some items) :
    (∀ item ∈ items, IsWritten item) ∧ cs = (spaced (items.map writtenAttribute)).toList := by
  fun_induction spacedFrom? cs generalizing items with
  | case1 =>
    cases h
    exact ⟨nofun, rfl⟩
  | case2 cs item rest found ih =>
    obtain ⟨others, ho, rfl⟩ := Option.map_eq_some_iff.mp h
    obtain ⟨own, rfl⟩ := attributeAt?_sound found
    obtain ⟨written, rfl⟩ := ih ho
    refine ⟨List.forall_mem_cons.mpr ⟨own, written⟩, ?_⟩
    rw [List.map_cons, toList_spaced_cons]
  | case3 => cases h
  | case4 => cases h

/-- A list that is written is read back in full. -/
theorem spacedFrom?_complete {items : List (String × String)}
    (h : ∀ item ∈ items, IsWritten item) :
    spacedFrom? (spaced (items.map writtenAttribute)).toList = some items := by
  induction items with
  | nil =>
    show spacedFrom? [] = some []
    rw [spacedFrom?]
  | cons item rest ih =>
    obtain ⟨own, others⟩ := List.forall_mem_cons.mp h
    have found := attributeAt?_complete own (spaced (rest.map writtenAttribute)).toList
    rw [List.map_cons, toList_spaced_cons, spacedFrom?, if_pos rfl]
    -- the match keeps the equation it decreases by, so its scrutinee cannot be rewritten in place
    split
    · next other more ho =>
      rw [found] at ho
      cases ho
      rw [ih others]
      rfl
    · next ho =>
      rw [found] at ho
      cases ho

/-- The reader accepts what is written, and nothing else. -/
theorem read?_eq_some_iff {text : String} {items : List (String × String)} :
    read? text = some items
      ↔ (∀ item ∈ items, IsWritten item) ∧ text = " ".intercalate (items.map writtenAttribute) := by
  constructor
  · intro h
    unfold read? at h
    split at h
    · next empty =>
      cases h
      exact ⟨nofun, empty⟩
    · simp only [Option.bind_eq_bind, Option.bind_eq_some_iff, Option.some.injEq] at h
      obtain ⟨⟨first, rest⟩, hf, others, ho, rfl⟩ := h
      obtain ⟨own, text⟩ := attributeAt?_sound hf
      obtain ⟨written, rfl⟩ := spacedFrom?_sound ho
      refine ⟨List.forall_mem_cons.mpr ⟨own, written⟩, ?_⟩
      rw [List.map_cons, intercalate_eq_spaced, ← String.toList_inj, text, String.toList_append]
  · rintro ⟨written, rfl⟩
    unfold read?
    cases items with
    | nil => rfl
    | cons first rest =>
      obtain ⟨own, others⟩ := List.forall_mem_cons.mp written
      -- a list of attributes is not empty, not even if the first name is
      have filled : writtenAttribute first ++ spaced (rest.map writtenAttribute) ≠ "" := by
        intro empty
        have none := congrArg String.toList empty
        rw [String.toList_append, toList_writtenAttribute] at none
        simp at none
      have read := spacedFrom?_complete others
      rw [List.map_cons, intercalate_eq_spaced, if_neg filled, String.toList_append,
        attributeAt?_complete own]
      simp only [Option.bind_eq_bind, Option.bind_some, read]

/-! ## Quotes -/

/-- Whether a quote after some text opens or closes the text of an attribute. -/
inductive Delimits : List (String × String) → List Char → Prop
  | opens (item : String × String) (rest : List (String × String)) :
    Delimits (item :: rest) (item.1 ++ "=").toList
  | closes (item : String × String) (rest : List (String × String)) :
    Delimits (item :: rest) (item.1 ++ "='" ++ item.2).toList
  /-- The quote is one of a later attribute. -/
  | later (item : String × String) {rest : List (String × String)} {before : List Char}
    (h : Delimits rest before) :
    Delimits (item :: rest) ((writtenAttribute item ++ " ").toList ++ before)

/-- Wherever a text of written attributes is cut at a quote, that quote opens or closes one of
them. -/
theorem delimits_of_quote {items : List (String × String)} (h : ∀ item ∈ items, IsWritten item)
    {before after : List Char}
    (hq : (" ".intercalate (items.map writtenAttribute)).toList = before ++ '\'' :: after) :
    Delimits items before := by
  induction items generalizing before with
  | nil => simp at hq
  | cons item rest ih =>
    obtain ⟨own, others⟩ := List.forall_mem_cons.mp h
    have name : '\'' ∉ item.1.toList ++ ['='] := by
      intro quote
      rcases List.mem_append.mp quote with inside | mark
      · exact absurd (List.all_eq_true.mp own.name _ inside) (by decide)
      · exact absurd mark (by decide)
    have text : (" ".intercalate ((item :: rest).map writtenAttribute)).toList
        = item.1.toList ++ ['='] ++ '\'' :: (item.2.toList
          ++ '\'' :: (spaced (rest.map writtenAttribute)).toList) := by
      rw [List.map_cons, intercalate_eq_spaced, String.toList_append, toList_writtenAttribute]
      simp
    rw [text] at hq
    -- the name and the text hold no quote, so the first two quotes are the ones around the text
    obtain rfl | ⟨inner, rfl, hi⟩ := Source.eq_or_exists_of_not_mem name hq
    · simpa using Delimits.opens item rest
    obtain rfl | ⟨outer, rfl, ho⟩ := Source.eq_or_exists_of_not_mem own.text hi
    · simpa using Delimits.closes item rest
    cases rest with
    | nil => simp [spaced] at ho
    | cons next rest =>
      -- any further quote is one of the attributes after the space
      rw [List.map_cons, toList_spaced_cons, ← String.toList_append, ← intercalate_eq_spaced] at ho
      have space : '\'' ∉ [' '] := by decide
      obtain ⟨between, rfl, hb⟩ := Source.exists_eq_append_of_not_mem space ho
      simpa [toList_writtenAttribute] using Delimits.later item (ih others hb)

end Property

/-! ## Attribute texts -/

/-- The attribute text of an element lists its named properties as they are written. -/
theorem propertyText_eq (properties : List Property) :
    propertyText properties
      = " ".intercalate ((properties.filterMap Property.written?).map writtenAttribute) := by
  unfold propertyText
  rw [List.map_filterMap]
  congr 2
  funext p
  exact p.attribute?_eq

section
variable {properties : List Property} (h : ∀ p ∈ properties, p.name?.all Text.isUndelimited)
include h

/-- Properties with undelimited names are written so that they can be told apart. -/
theorem forall_isWritten : ∀ item ∈ properties.filterMap Property.written?,
    Property.IsWritten item := by
  intro item hi
  obtain ⟨p, hp, hw⟩ := List.mem_filterMap.mp hi
  exact Property.isWritten_of_written? (h p hp) hw

/-- The attribute text is the only text from which its properties are read. -/
theorem read?_eq_written_iff {text : String} :
    Property.read? text = some (properties.filterMap Property.written?)
      ↔ text = propertyText properties := by
  rw [Property.read?_eq_some_iff, propertyText_eq]
  exact and_iff_right (forall_isWritten h)

end

/-- The named properties of an element are read from its attribute text and from no other text, with
their quotes as entities and whatever their values are. Each quote of the attribute text opens or
closes the text of one of them, and properties with the same attribute text have the same names and
texts. -/
theorem propertyText_reads_back {properties : List Property}
    (h : ∀ p ∈ properties, p.name?.all Text.isUndelimited) :
    (∀ text, Property.read? text = some (properties.filterMap Property.written?)
        ↔ text = propertyText properties)
      ∧ (∀ before after, (propertyText properties).toList = before ++ '\'' :: after →
          Property.Delimits (properties.filterMap Property.written?) before)
      ∧ ∀ others : List Property, (∀ p ∈ others, p.name?.all Text.isUndelimited) →
          propertyText others = propertyText properties →
          others.filterMap Property.written? = properties.filterMap Property.written? := by
  refine ⟨fun text => read?_eq_written_iff h, ?_, ?_⟩
  · intro before after hq
    rw [propertyText_eq] at hq
    exact Property.delimits_of_quote (forall_isWritten h) hq
  · intro others ho same
    -- the one text is read both ways
    have read := (read?_eq_written_iff ho).mpr same.symm
    rw [(read?_eq_written_iff h).mpr rfl] at read
    exact (Option.some.inj read).symm

/-- Properties whose texts look like attributes, and a spread between them. -/
def lookalikes : List Property :=
  [.named "a" (.string "x' b='y") none, .spread (.identifier "rest"),
   .named "data-x" (.identifier "x") (some "<%= r.x %>"), .named "n" .null none]

/-- Strings with the same texts. -/
def lookalikeStrings : List Property :=
  [.named "a" (.string "x' b='y") none, .named "data-x" (.string "<%= r.x %>") none,
   .named "n" (.string "null") none]

/-- A text that looks like a second attribute stays inside the first one, and a spread and a
placeholder change nothing about it. -/
theorem read?_lookalikes : (∀ p ∈ lookalikes, p.name?.all Text.isUndelimited)
    ∧ Property.read? "a='x&#39; b=&#39;y' data-x='<%= r.x %>' n='null'"
      = some [("a", "x&#39; b=&#39;y"), ("data-x", "<%= r.x %>"), ("n", "null")]
    ∧ Property.Delimits [("a", "x&#39; b=&#39;y"), ("data-x", "<%= r.x %>"), ("n", "null")]
        "a='x&#39; b=&#39;y".toList
    ∧ lookalikeStrings.filterMap Property.written? = lookalikes.filterMap Property.written? := by
  have legal : ∀ p ∈ lookalikes, p.name?.all Text.isUndelimited := by decide
  have text : propertyText lookalikes = "a='x&#39; b=&#39;y' data-x='<%= r.x %>' n='null'" := by
    decide
  obtain ⟨read, quotes, same⟩ := propertyText_reads_back legal
  refine ⟨legal, (read _).mpr text.symm, ?_, same lookalikeStrings (by decide) (by decide)⟩
  apply quotes _ " data-x='<%= r.x %>' n='null'".toList
  rw [text]
  decide

/-- A name with delimiters can spell other attributes. -/
example : propertyText [.named "a='1' b" (.string "2") none]
    = propertyText [.named "a" (.string "1") none, .named "b" (.string "2") none] := by decide

end JsxLowering
