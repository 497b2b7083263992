import JsxLowering.Source.Reader

/-!
# Words of the language

Which names may stand for a value, and which are reserved.
-/

namespace JsxLowering.Source

/-- Words that are never names of values. -/
def reservedWords : List String :=
  ["break", "case", "catch", "class", "const", "continue", "debugger", "default", "delete", "do",
   "else", "enum", "export", "extends", "false", "finally", "for", "function", "if", "import", "in",
   "instanceof", "new", "null", "return", "super", "switch", "this", "throw", "true", "try",
   "typeof", "var", "void", "while", "with"]

def isReserved (name : String) : Bool := reservedWords.contains name

/-- Takes a name that is not reserved. -/
def plainName : Reader String := do
  let name ← anyName
  ensure (!isReserved name)
  pure name

/-- Whether a name that is not reserved comes next. -/
def isPlainNameNext : Reader Bool := do
  match anyNameOf (← ahead) with
  | some (name, _) => pure (!isReserved name)
  | none => pure false

end JsxLowering.Source
