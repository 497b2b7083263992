import JsxLowering.Source.TypeExpression
import JsxLowering.Text.Position

/-!
# Elements and fragments

Markup in a source. Text between tags and quoted attribute values are kept as they are written:
backslashes and entities mean nothing in them.
-/

namespace JsxLowering.Source

/-- A name that may hold hyphens. -/
def hyphenName : Reader String := fun cs =>
  match skip cs with
  | c :: rest =>
    if Text.isNameStart c then
      let (more, rest) := rest.span fun d => Text.isNamePart d || d = '-'
      some (String.ofList (c :: more), rest)
    else none
  | [] => none

/-- The tag of a single name. -/
def singleTag (name : String) : TagName :=
  if name = "this" then .this
  else match name.toList with
    | c :: cs => if c.isLower || cs.contains '-' then .plain name else .reference name
    | [] => .plain name

/-- The segments of a dotted tag after the first. -/
def segmentsFrom : Nat → MemberName → Reader MemberName
  | 0, _ => failure
  | fuel + 1, object => do
    if ← take? '.' then
      let name ← anyName
      segmentsFrom fuel (.step object name)
    else pure object

/-- The tag of an element. -/
def tagName : Reader TagName := do
  let first ← hyphenName
  if ← take? ':' then
    let name ← hyphenName
    pure (.namespaced first name)
  else if ← take? '.' then
    let name ← anyName
    let root := if first = "this" then .this else .name first
    let tag ← fun cs => segmentsFrom (cs.length + 1) (.base root name) cs
    pure (.member tag)
  else pure (singleTag first)

/-- The name of an attribute. -/
def attributeName : Reader String := do
  let first ← hyphenName
  if ← take? ':' then
    let name ← hyphenName
    pure (first ++ ":" ++ name)
  else pure first

/-- A quoted attribute value. -/
def attributeText : Reader String := fun cs =>
  match skip cs with
  | quote :: rest =>
    if quote = '"' || quote = '\'' then
      match rest.span (· ≠ quote) with
      | (text, _ :: rest) => some (String.ofList text, rest)
      | (_, []) => none
    else none
  | [] => none

/-- Markup that is a part of markup. -/
def innerMarkup (self : Grammar) (mode : Mode) : Reader Markup := do
  match ← self mode .markup with
  | .markup value => pure value
  | _ => failure

/-- The rest of an attribute after its name. -/
def attributeValue (self : Grammar) (mode : Mode) (name : String) : Reader Attribute := do
  if ← take? '=' then
    if ← take? '\x7b' then
      let value ← self mode .expression
      mark '\x7d'
      pure (.container name value)
    else if ← isNext '<' then
      let value ← innerMarkup self mode
      pure (.markup name value)
    else
      let raw ← attributeText
      pure (.text name raw)
  else pure (.flag name)

/-- An attribute. -/
def attributeOf (self : Grammar) (mode : Mode) : Reader Attribute := do
  if ← take? '\x7b' then
    ensure (← takeAll? ['.', '.', '.'])
    let argument ← self mode .expression
    mark '\x7d'
    pure (.spread argument)
  else
    let name ← attributeName
    attributeValue self mode name

/-- The attributes up to the end of a tag. -/
def attributesFrom (self : Grammar) (mode : Mode) : Nat → Reader (List Attribute)
  | 0 => failure
  | fuel + 1 => do
    if (← isNext '>') || (← isNext '/') then pure []
    else
      let first ← attributeOf self mode
      let rest ← attributesFrom self mode fuel
      pure (first :: rest)

/-- A child in braces after the opening one. -/
def containerChild (self : Grammar) (mode : Mode) : Reader Child := do
  if ← take? '\x7d' then pure .empty
  else if ← takeAll? ['.', '.', '.'] then
    let argument ← self mode .expression
    mark '\x7d'
    pure (.spread argument)
  else
    let value ← self mode .expression
    mark '\x7d'
    pure (.container value)

/-- Whether `c` is text between tags. -/
def isMarkupText (c : Char) : Bool := c ≠ '<' && c ≠ '>' && c ≠ '\x7b' && c ≠ '\x7d'

/-- The children up to a closing tag, which is left. -/
def childrenFrom (self : Grammar) (mode : Mode) : Nat → Reader (List Child)
  | 0 => failure
  | fuel + 1 => do
    let cs ← get
    match cs.span isMarkupText with
    | (c :: text, rest) => do
      set rest
      let others ← childrenFrom self mode fuel
      pure (.text (String.ofList (c :: text)) :: others)
    | ([], '\x7b' :: rest) => do
      set rest
      let first ← containerChild self mode
      let others ← childrenFrom self mode fuel
      pure (first :: others)
    | ([], '<' :: rest) =>
      if (skip rest).head? = some '/' then pure []
      else do
        let first ← innerMarkup self mode
        let others ← childrenFrom self mode fuel
        pure (.markup first :: others)
    | _ => failure

/-- Children and the beginning of the closing tag. -/
def childrenOf (self : Grammar) (mode : Mode) : Reader (List Child) := do
  let children ← fun cs => childrenFrom self mode (cs.length + 1) cs
  mark '<'
  mark '/'
  pure children

/-- An element after its opening angle. -/
def elementFrom (self : Grammar) (mode : Mode) (start : Nat) : Reader Markup := do
  let tag ← tagName
  if mode.typescript && (← isNext '<') then let _ ← typeArguments self mode
  let attributes ← fun cs => attributesFrom self mode (cs.length + 1) cs
  if ← take? '/' then
    mark '>'
    pure (.element start tag attributes [])
  else
    mark '>'
    let children ← childrenOf self mode
    let closing ← tagName
    ensure (closing = tag)
    mark '>'
    pure (.element start tag attributes children)

/-- An element or a fragment. -/
def markup (self : Grammar) (mode : Mode) : Reader Tree := do
  let start := mode.size - Text.byteSize (← ahead)
  let mode := mode.inside
  mark '<'
  if ← take? '>' then
    let children ← childrenOf self mode
    mark '>'
    pure (.markup (.fragment start children))
  else
    let value ← elementFrom self mode start
    pure (.markup value)

end JsxLowering.Source
