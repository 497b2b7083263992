import JsxLowering.Source.Element
import JsxLowering.Source.Exported
import JsxLowering.Source.Item

/-!
# The grammar

All goals tied together. A goal may refer to goals at the same place in the text only a few times
before a character is taken, so the recursion is bounded by a multiple of the length of the text.
-/

namespace JsxLowering.Source

/-- The reader of each goal, given readers of the goals it refers to. -/
def goalReader (self : Grammar) (mode : Mode) : Goal → Reader Tree
  | .expression => expression self mode
  | .assignment => assignment self mode
  | .operand level => operand self mode level
  | .unary => unary self mode
  | .callee => leftHand self mode false
  | .classLiteral => classFrom self mode false false []
  | .statement nested => statement self mode nested
  | .item => item self mode
  | .binding => binding self mode
  | .typeExpression => typeExpression self mode
  | .typeOperator => typeOperator self mode
  | .markup => markup self mode

/-- The grammar down to a depth of goals. -/
def grammar : Nat → Grammar
  | 0 => fun _ _ => failure
  | depth + 1 => fun mode goal => goalReader (grammar depth) mode goal

theorem grammar_zero (mode : Mode) (goal : Goal) : grammar 0 mode goal = failure := rfl

theorem grammar_succ (depth : Nat) (mode : Mode) (goal : Goal) :
    grammar (depth + 1) mode goal = goalReader (grammar depth) mode goal := rfl

-- the depth of a text is many goals even if the text is not known
attribute [irreducible] grammar

/-- A depth that no reading of the text exceeds. -/
def depthOf (cs : List Char) : Nat := 16 * (cs.length + 4)

/-- Whether the end of the text is reached. -/
def atEnd : Reader Bool := do pure (← ahead).isEmpty

/-- The items of a module up to the end of the text. -/
def moduleItems (mode : Mode) : Reader (List Tree) := fun cs =>
  statementsFrom atEnd (grammar (depthOf cs) mode .item) true (cs.length + 1) cs

/-- The text of a first line that says what runs the module, and the text after it. -/
def launcherOf (cs : List Char) : Option String × List Char :=
  match cs with
  | '#' :: '!' :: rest =>
    let (line, rest) := rest.span (!isLineEnd ·)
    (some (String.ofList line), rest)
  | cs => (none, cs)

/-- The module that a source spells. Where annotations are read, a name may be exported twice, since
a declaration may be written in several parts. -/
def module? (typescript : Bool) (source : String) : Option Tree := do
  let cs := source.toList
  let (launcher, rest) := launcherOf cs
  let (statements, _) ← moduleItems { typescript, size := Text.byteSize cs } rest
  let tree := Tree.node (.program launcher) statements
  if tree.isComplete && (typescript || Tree.exportsDistinct statements) then some tree else none

/-- Characters that a lexeme without a name, digits or quotes may start with. -/
def marks : List Char := "\x7b\x7d()[];,<>=!~?:+-*/%&|^@.".toList

/-- Whether a text starts with a lexeme after its gap, or has nothing but the gap. -/
def startsLexeme (cs : List Char) : Bool :=
  let cs := skip cs
  match cs with
  | [] => true
  | '#' :: rest => (anyNameOf rest).isSome
  | '.' :: rest => !(rest.head?.map Char.isDigit).getD false || (numericOf cs).isSome
  | c :: _ =>
    if c = '"' || c = '\'' then (quotedOf cs).isSome
    else if c.isDigit then (numericOf cs).isSome
    else if mayStartName c then (anyNameOf cs).isSome
    else marks.contains c

/-- The expression that a text starts with. A lexeme may follow it, and what comes after that is not
looked at. -/
def expression? (source : String) : Option Tree := do
  let cs := source.toList
  let (tree, rest) ← grammar (depthOf cs) { size := Text.byteSize cs } .expression cs
  if tree.isComplete && startsLexeme rest then some tree else none

end JsxLowering.Source
