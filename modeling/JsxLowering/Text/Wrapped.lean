import JsxLowering.Text.Blank

/-!
# Hand-wrapped lines

A line feed and the blanks after it, such as the indentation of a wrapped attribute value, become
one space. A line feed with no blank after it is kept.
-/

namespace JsxLowering.Text

/-- Collapses wrapped lines; `inRun` says that the blanks after a line feed are being dropped. -/
def collapseFrom (inRun : Bool) : List Char → List Char
  | [] => []
  | [c] => if inRun && isBlank c then [] else [c]
  | c :: d :: cs =>
    if inRun && isBlank c then collapseFrom true (d :: cs)
    else if c = '\n' && isBlank d then ' ' :: collapseFrom true (d :: cs)
    else c :: collapseFrom false (d :: cs)

/-- Every line feed that blanks follow becomes, with them, a single space. -/
def collapseWrapped (text : String) : String :=
  String.ofList (collapseFrom false text.toList)

end JsxLowering.Text
