import JsxLowering.Template.Basic
import JsxLowering.Text.Quoted

/-!
# The source of a template function

A template is written as the source of a function that joins its texts and the values of its holes.
-/

namespace JsxLowering.Template

/-- The source that joins the value of a hole, and the text after it, to what stands before. -/
def holeSource (code text : List Char) : List Char :=
  "'+\n((__t=(".toList ++ code ++ "))==null?'':__t)+\n'".toList ++ Text.escapeChars text

/-- The source of the expression that joins all parts. It starts and ends inside quotes. -/
def joinSource (t : Template) : List Char :=
  Text.escapeChars t.head ++ t.holes.flatMap fun (code, text) => holeSource code text

/-- The source of a function of one variable. -/
def functionSource (name parameter : List Char) (t : Template) : List Char :=
  "function".toList ++ name ++ "(".toList ++ parameter ++ ")\x7b\nvar __t,__p='';\n__p+='".toList
    ++ t.joinSource ++ "';\nreturn __p;\n\x7d".toList

/-- The text without its line breaks. -/
def unbroken (text : List Char) : List Char := text.filter fun c => c ≠ '\n' && c ≠ '\r'

/-- The source of a function without a name for the template that a fragment spells. -/
def source (fragment parameter : String) : String :=
  String.ofList (functionSource [] parameter.toList (ofText fragment.toList))

/-- The variable of compiled templates. -/
def dataName : String := "data"

/-- The source that is compiled for a fragment: on one line, and with a name. -/
def generated (fragment : String) : String :=
  String.ofList
    (unbroken (functionSource " tmpl".toList dataName.toList (ofText fragment.toList)))

end JsxLowering.Template
