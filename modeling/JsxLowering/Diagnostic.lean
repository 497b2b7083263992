import JsxLowering.Text.Position

/-!
# Diagnostics

A unit either compiles or yields one diagnostic. `Fault` says what went wrong, `Failure` where, and
`Diagnostic` is what is reported.
-/

namespace JsxLowering

/-- What can go wrong with a unit. -/
inductive Fault
  /-- The source of the unit cannot be read. -/
  | unreadable
  /-- A tag is neither built in nor bound. -/
  | unresolvedTag (tag : String)
  /-- The source generated for a template cannot be read. -/
  | unreadableTemplate (generated : String)
  /-- The source generated for a template is some other expression than a function. -/
  | notAFunction (generated : String)
  /-- The options cannot be read. -/
  | badOptions (problem : String)
deriving DecidableEq, Repr

namespace Fault

def code : Fault → String
  | .unreadable => "JSX-ERR-SYNTAX-001"
  | .unresolvedTag _ => "JSX-ERR-SCOPE-001"
  | .unreadableTemplate _ => "JSX-ERR-TEMPLATE-001"
  | .notAFunction _ => "JSX-ERR-TEMPLATE-001"
  | .badOptions _ => "JSX-ERR-OPTIONS-001"

def message (file : String) : Fault → String
  | .unreadable => "Failed to parse " ++ file ++ ": "
  | .unresolvedTag tag => "Tag <" ++ tag ++ "> is not a built-in and is missed from the scope."
  | .unreadableTemplate _ => "Generated template source could not be parsed: "
  | .notAFunction _ => "Generated template source is not a function expression."
  | .badOptions problem => "Invalid compile options: " ++ problem

/-- The generated source, for faults found in one. -/
def context? : Fault → Option String
  | .unreadableTemplate generated => some generated
  | .notAFunction generated => some generated
  | _ => none

def hints : Fault → List String
  | .unresolvedTag tag => ["Import or declare `" ++ tag ++ "`, or list it in `builtins`."]
  | .unreadableTemplate _ => ["Check `<%= %>` interpolations in attribute values and text."]
  | _ => []

end Fault

/-- A report on one unit. -/
structure Diagnostic where
  code : String
  message : String
  file : String
  line : Nat
  column : Nat
  context : Option String := none
  hints : List String := []
deriving DecidableEq, Repr

namespace Diagnostic

/-- The class of errors a code belongs to. -/
def errorType (d : Diagnostic) : String :=
  if d.code = "JSX-ERR-SYNTAX-001" then "SYNTAX_ERROR"
  else if d.code = "JSX-ERR-SCOPE-001" then "UNRESOLVED_TAG"
  else if d.code = "JSX-ERR-TEMPLATE-001" then "GENERATED_SOURCE_ERROR"
  else if d.code = "JSX-ERR-OPTIONS-001" then "INVALID_OPTIONS"
  else "COMPILER_ERROR"

/-- One line for people to read. -/
def display (d : Diagnostic) : String :=
  "[" ++ d.code ++ "] " ++ d.message ++ " (" ++ d.file ++ ":" ++ toString d.line ++ ":"
    ++ toString d.column ++ ")"

def withContext (d : Diagnostic) (context : String) : Diagnostic :=
  { d with context := some context }

def withHint (d : Diagnostic) (hint : String) : Diagnostic :=
  { d with hints := d.hints ++ [hint] }

/-- A report with no context and no hints, at a byte offset of a source. -/
def located (code message file source : String) (start : Nat) : Diagnostic :=
  let position := Text.locate source start
  { code, message, file, line := position.line, column := position.column }

/-- The report of a fault at a position. -/
def ofFault (fault : Fault) (file : String) (position : Text.Position) : Diagnostic :=
  { code := fault.code, message := fault.message file, file
    line := position.line, column := position.column
    context := fault.context?, hints := fault.hints }

end Diagnostic

/-- A fault and the byte offset of the markup it was found in. -/
structure Failure where
  fault : Fault
  start : Nat
deriving DecidableEq, Repr

/-- The report of a failure in a source. -/
def Failure.diagnose (failure : Failure) (file source : String) : Diagnostic :=
  .ofFault failure.fault file (Text.locate source failure.start)

end JsxLowering
