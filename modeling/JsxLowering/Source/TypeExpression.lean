import JsxLowering.Source.Literal.Numeric
import JsxLowering.Source.TemplateLiteral
import JsxLowering.Source.Word

/-!
# Annotations

Types have no meaning here and are kept as text with the trees between its pieces.
-/

namespace JsxLowering

/-- Text on its own. -/
def Tree.verse (text : String) : Tree := .node (.mixed [text]) []

/-- Trees with a text between each two, and text around them all. -/
def Tree.listing (start separator finish : String) (trees : List Tree) : Tree :=
  match trees with
  | [] => .verse (start ++ finish)
  | _ :: rest => .node (.mixed (start :: rest.map (fun _ => separator) ++ [finish])) trees

namespace Source

/-- A literal number. -/
def numeric : Reader Tree := fun cs =>
  (numericOf (skip cs)).map fun (leaf, rest) => (.leaf leaf, rest)

/-- A literal number as it is written. -/
def rawNumeric : Reader Tree := fun cs =>
  (numericOf (skip cs)).map fun (_, rest) =>
    let text := (skip cs).take ((skip cs).length - rest.length)
    (.leaf (.verbatim (String.ofList text)), rest)

/-- A string literal. -/
def quoted : Reader Tree := fun cs =>
  (quotedOf (skip cs)).map fun (value, rest) => (.string value, rest)

/-- Whether a quote is next. -/
def isQuoteNext : Reader Bool := do
  let cs ← ahead
  pure (cs.head? = some '"' || cs.head? = some '\'')

/-- Whether a digit is next. -/
def isDigitNext : Reader Bool := do
  let cs ← ahead
  pure ((cs.head?.map Char.isDigit).getD false)

/-- Type arguments. -/
def typeArguments (self : Grammar) (mode : Mode) : Reader Tree := do
  mark '<'
  let arguments ← list '>' (self mode .typeExpression)
  pure (.listing "<" ", " ">" arguments)

/-- Takes the words before a type parameter, each with the blank after it. -/
def parameterMarksFrom : Nat → Reader (List String)
  | 0 => pure []
  | fuel + 1 => do
    let found ← attempt (do
      let name ← anyName
      ensure (["const", "in", "out"].contains name)
      ensure ((nameOf (← ahead)).isSome && (← nextName) ≠ some "extends")
      pure name)
    match found with
    | some name => do
      let rest ← parameterMarksFrom fuel
      pure ((name ++ " ") :: rest)
    | none => pure []

/-- A type parameter with its constraint and default. -/
def typeParameter (self : Grammar) (mode : Mode) : Reader Tree := do
  let words ← parameterMarksFrom 3
  let name ← plainName
  let name := String.join words ++ name
  let bound ← if ← takeWord? "extends" then self mode .typeExpression else pure .absent
  let default ← if ← take? '=' then self mode .typeExpression else pure .absent
  match bound, default with
  | .absent, .absent => pure (.verse name)
  | bound, .absent => pure (.node (.mixed [name ++ " extends ", ""]) [bound])
  | .absent, default => pure (.node (.mixed [name ++ " = ", ""]) [default])
  | bound, default => pure (.node (.mixed [name ++ " extends ", " = ", ""]) [bound, default])

/-- Type parameters. -/
def typeParameters (self : Grammar) (mode : Mode) : Reader Tree := do
  mark '<'
  let parameters ← list '>' (typeParameter self mode)
  ensure (!parameters.isEmpty)
  pure (.node .typeParameters parameters)

/-- A dotted name. -/
def dottedFrom : Nat → Reader String
  | 0 => failure
  | fuel + 1 => do
    let name ← anyName
    if ← take? '.' then
      let rest ← dottedFrom fuel
      pure (name ++ "." ++ rest)
    else pure name

/-- A dotted name with type arguments. -/
def typeReference (self : Grammar) (mode : Mode) : Reader Tree := do
  let name ← fun cs => dottedFrom (cs.length + 1) cs
  if (← isNext '<') && !(← onNewLine) then
    let arguments ← typeArguments self mode
    pure (.node (.mixed [name, ""]) [arguments])
  else pure (.verse name)

/-- A parameter of a function type. -/
def typeInput (self : Grammar) (mode : Mode) : Reader Tree := do
  let rest ← takeAll? ['.', '.', '.']
  let lead := if rest then "..." else ""
  let pattern ← if ← takeWord? "this" then pure .this else self mode .binding
  let mark := if ← take? '?' then "?" else ""
  if ← take? ':' then
    let type ← self mode .typeExpression
    pure (.node (.mixed [lead, mark ++ ": ", ""]) [pattern, type])
  else pure (.node (.mixed [lead, mark]) [pattern])

/-- An index with its type in brackets. -/
def indexKey (self : Grammar) (mode : Mode) : Reader Tree := do
  mark '['
  let name ← plainName
  mark ':'
  let type ← self mode .typeExpression
  mark ']'
  pure (.listing ("[" ++ name ++ ": ") "" "]" [type])

/-- The key of a member of an object type in brackets: an index with its type, or an expression. -/
def bracketedKey (self : Grammar) (mode : Mode) : Reader Tree :=
  indexKey self mode <|> (do
    mark '['
    let key ← self mode.inside .assignment
    mark ']'
    pure (.listing "[" "" "]" [key]))

/-- The key of a member of an object type. A call has none. -/
def typeMemberKey (self : Grammar) (mode : Mode) : Reader Tree := do
  if ← isNext '[' then bracketedKey self mode
  else if ← isQuoteNext then quoted
  else if ← isDigitNext then rawNumeric
  else if (← isNext '(') || (← isNext '<') then pure (Tree.verse "")
  else
    let name ← anyName
    pure (Tree.verse name)

/-- Takes a word before a member of an object type, with the blank after it, if a key follows. -/
def memberMark (text : String) : Reader String := do
  let found ← attempt (do
    word text
    let cs ← ahead
    ensure ((cs.head?.map fun c => mayStartName c || c.isDigit || ['[', '"', '\''].contains c).getD
      false))
  pure (if found.isSome then text ++ " " else "")

/-- Takes `new` before the parameters of a member. -/
def constructMark : Reader String := do
  let found ← attempt (do
    word "new"
    ensure ((← isNext '(') || (← isNext '<')))
  pure (if found.isSome then "new " else "")

/-- The end of a member of an object type. -/
def typeMemberEnd : Reader Unit := do
  if ← take? ';' then pure ()
  else if ← take? ',' then pure ()
  else
    let cs ← ahead
    let fresh ← onNewLine
    ensure (fresh || cs.head? = some '\x7d')

/-- A member of an object type. -/
def typeMember (self : Grammar) (mode : Mode) : Reader Tree := do
  let writable ← memberMark "readonly"
  let getter ← memberMark "get"
  let setter ← if getter = "" then memberMark "set" else pure ""
  let constructs ← constructMark
  let lead := writable ++ getter ++ setter ++ constructs
  let key ← typeMemberKey self mode
  let mid := if ← take? '?' then "?" else ""
  let generic ← if ← isNext '<' then typeParameters self mode else pure (Tree.verse "")
  let member ← (do
    if ← take? '(' then
      let inputs ← list ')' (typeInput self mode)
      let result ← if ← take? ':' then self mode .typeExpression else pure .absent
      let inputs := Tree.listing "(" ", " ")" inputs
      match result with
      | .absent => pure (Tree.node (.mixed [lead, mid, "", ""]) [key, generic, inputs])
      | result => pure (Tree.node (.mixed [lead, mid, "", ": ", ""]) [key, generic, inputs, result])
    else if ← take? ':' then
      let type ← self mode .typeExpression
      pure (Tree.node (.mixed [lead, mid ++ ": ", ""]) [key, type])
    else pure (Tree.node (.mixed [lead, mid]) [key]))
  typeMemberEnd
  pure member

/-! ## Mapped types -/

/-- Takes a mark that adds or removes a word, and the word. -/
def signedWord (text : String) : Reader String := do
  let found ← attempt (do
    let sign ← if ← take? '+' then pure "+" else if ← take? '-' then pure "-" else pure ""
    if text = "?" then mark '?' else word text
    pure sign)
  pure (match found with
    | some sign => sign ++ text
    | none => "")

/-- A mapped type. -/
def mappedType (self : Grammar) (mode : Mode) : Reader Tree := do
  mark '\x7b'
  let writable ← signedWord "readonly"
  mark '['
  let name ← plainName
  word "in"
  let range ← self mode .typeExpression
  let renamed ← if ← takeWord? "as" then self mode .typeExpression else pure .absent
  mark ']'
  let optional ← signedWord "?"
  let type ← if ← take? ':' then self mode .typeExpression else pure .absent
  let _ ← take? ';'
  mark '\x7d'
  let lead := "\x7b " ++ (if writable = "" then "" else writable ++ " ") ++ "[" ++ name ++ " in "
  let keys := if renamed.isPresent then Tree.listing lead " as " ("]" ++ optional) [range, renamed]
    else Tree.listing lead "" ("]" ++ optional) [range]
  pure (if type.isPresent then .listing "" ": " " \x7d" [keys, type]
    else .listing "" "" " \x7d" [keys])

/-- The members of an object type. -/
def typeMembers (self : Grammar) (mode : Mode) : Reader Tree := do
  mark '\x7b'
  let members ← items '\x7d' (typeMember self mode)
  match members with
  | [member] => pure (.listing "\x7b " "" " \x7d" [member])
  | members => pure (.node (.fenced ";") members)

/-- A function type. -/
def functionType (self : Grammar) (mode : Mode) : Reader Tree := do
  let isAbstract ← attempt (do word "abstract"; ensure ((← nextName) = some "new"))
  let constructs ← takeWord? "new"
  let lead := (if isAbstract.isSome then "abstract " else "") ++ (if constructs then "new " else "")
  let generic ← if ← isNext '<' then typeParameters self mode else pure (.verse "")
  mark '('
  let inputs ← list ')' (typeInput self mode)
  ensure (← takeAll? ['=', '>'])
  let result ← self mode .typeExpression
  pure (.node (.mixed [lead, "", " => ", ""]) [generic, .listing "(" ", " ")" inputs, result])

/-- An element of a tuple type, which may have a name. -/
def tupleElement (self : Grammar) (mode : Mode) : Reader Tree := do
  let lead := if ← takeAll? ['.', '.', '.'] then "..." else ""
  let named ← attempt (do
    let name ← anyName
    let optional ← take? '?'
    mark ':'
    pure (name ++ (if optional then "?: " else ": ")))
  let type ← self mode .typeExpression
  let optional ← take? '?'
  pure (.listing (lead ++ named.getD "") "" (if optional then "?" else "") [type])

/-- A type that another module exports. -/
def importedType (self : Grammar) (mode : Mode) : Reader Tree := do
  word "import"
  mark '('
  let source ← quoted
  mark ')'
  let path ← if ← take? '.' then (do
      let name ← fun cs => dottedFrom (cs.length + 1) cs
      pure (")." ++ name))
    else pure ")"
  let arguments ← if (← isNext '<') && !(← onNewLine) then typeArguments self mode
    else pure (.verse "")
  pure (.node (.mixed ["import(", path, ""]) [source, arguments])

/-- The bound of an inferred type. One before a question mark belongs to a conditional type, unless
that is the bound of another. -/
def inferredBound (self : Grammar) (mode : Mode) : Reader Tree := do
  let bound ← attempt (do
    word "extends"
    let bound ← self { mode with inExtends := true } .typeExpression
    ensure (mode.inExtends || !(← isNext '?'))
    pure bound)
  pure (bound.getD .absent)

/-- A type that is inferred. -/
def inferredType (self : Grammar) (mode : Mode) : Reader Tree := do
  word "infer"
  let name ← plainName
  let bound ← inferredBound self mode
  pure (if bound.isPresent then .listing ("infer " ++ name ++ " extends ") "" "" [bound]
    else .verse ("infer " ++ name))

/-- A type that starts with a name. -/
def namedType (self : Grammar) (mode : Mode) (name : String) : Reader Tree :=
  match name with
  | "new" => functionType self mode
  | "abstract" => functionType self mode <|> typeReference self mode
  | "import" => importedType self mode
  | "void" | "null" | "true" | "false" | "this" => do
    let name ← anyName
    pure (.verse name)
  | "infer" => inferredType self mode <|> typeReference self mode
  | "typeof" | "keyof" | "unique" | "readonly" | "asserts" => (do
      let name ← anyName
      ensure (!(← onNewLine))
      let type ← self mode .typeOperator
      pure (.listing (name ++ " ") "" "" [type])) <|> typeReference self mode
  | name => do
    ensure (!isReserved name)
    typeReference self mode

/-- A type without what may follow it. -/
def typeOperand (self : Grammar) (mode : Mode) : Reader Tree := do
  let cs ← ahead
  match cs with
  | '(' :: _ => functionType self mode <|> (do
      mark '('
      let type ← self { mode with inExtends := false } .typeExpression
      mark ')'
      pure (.listing "(" "" ")" [type]))
  | '<' :: _ => functionType self mode
  | '[' :: _ => do
      mark '['
      let types ← list ']' (tupleElement self mode)
      pure (.listing "[" ", " "]" types)
  | '\x7b' :: _ => mappedType self mode <|> typeMembers self mode
  | '\x60' :: _ => templateOf (self mode .typeExpression) false
  | '-' :: _ => do
      mark '-'
      let value ← rawNumeric
      pure (.listing "-" "" "" [value])
  | _ =>
    if ← isQuoteNext then quoted
    else if ← isDigitNext then rawNumeric
    else match ← nextName with
      | some name => namedType self mode name
      | none => failure

/-- Index and array marks after a type. -/
def typeSuffixFrom (self : Grammar) (mode : Mode) : Nat → Tree → Reader Tree
  | 0, _ => failure
  | fuel + 1, type => do
    if (← isNext '[') && !(← onNewLine) then
      mark '['
      if ← take? ']' then typeSuffixFrom self mode fuel (.listing "" "" "[]" [type])
      else
        let index ← self mode .typeExpression
        mark ']'
        typeSuffixFrom self mode fuel (.node (.mixed ["", "[", "]"]) [type, index])
    else pure type

/-- A type with the index and array marks after it. -/
def typeOperator (self : Grammar) (mode : Mode) : Reader Tree := do
  let type ← typeOperand self mode
  fun cs => typeSuffixFrom self mode (cs.length + 1) type cs

/-- A type. -/
def typeExpression (self : Grammar) (mode : Mode) : Reader Tree := do
  if !(← areNext ['|', '|']) then let _ ← take? '|'
  if !(← areNext ['&', '&']) then let _ ← take? '&'
  let type ← typeOperator self mode
  let cs ← ahead
  match cs with
  | '|' :: '|' :: _ => pure type
  | '&' :: '&' :: _ => pure type
  | '|' :: rest => do
    set rest
    let other ← self mode .typeExpression
    pure (.listing "" " | " "" [type, other])
  | '&' :: rest => do
    set rest
    let other ← self mode .typeExpression
    pure (.listing "" " & " "" [type, other])
  | _ =>
    if ← onNewLine then pure type
    else if ← takeWordIf (!mode.inExtends) "extends" then
      let bound ← self { mode with inExtends := true } .typeExpression
      mark '?'
      let mode := { mode with inExtends := false }
      let first ← self mode .typeExpression
      mark ':'
      let second ← self mode .typeExpression
      pure (.node (.mixed ["", " extends ", " ? ", " : ", ""]) [type, bound, first, second])
    else if ← takeWord? "is" then
      let other ← self mode .typeExpression
      pure (.listing "" " is " "" [type, other])
    else pure type

/-- A colon and a type, if annotations are read and a colon is next. -/
def typeAfterColon (self : Grammar) (mode : Mode) : Reader Tree := do
  if mode.typescript then
    if ← take? ':' then self mode .typeExpression else pure .absent
  else pure .absent

end Source

end JsxLowering
