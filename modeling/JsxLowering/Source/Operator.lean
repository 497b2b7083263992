import JsxLowering.Source.Reader

/-!
# Operators

The operators between two operands with their levels, and the assignment operators. Of several that
a text starts with, the longest counts.
-/

namespace JsxLowering.Source

/-- Operators of punctuation and their levels, longer ones before their beginnings. -/
def binaryMarks : List (List Char × Nat) :=
  [(['>', '>', '>'], 9), (['=', '=', '='], 7), (['!', '=', '='], 7), (['*', '*'], 12),
   (['?', '?'], 1), (['|', '|'], 2), (['&', '&'], 3), (['=', '='], 7), (['!', '='], 7),
   (['<', '='], 8), (['>', '='], 8), (['<', '<'], 9), (['>', '>'], 9), (['<'], 8), (['>'], 8),
   (['|'], 4), (['^'], 5), (['&'], 6), (['+'], 10), (['-'], 10), (['*'], 11), (['/'], 11),
   (['%'], 11)]

/-- Assignment operators, longer ones before their beginnings. -/
def assignMarks : List (List Char) :=
  [['>', '>', '>', '='], ['<', '<', '='], ['>', '>', '='], ['*', '*', '='], ['&', '&', '='],
   ['|', '|', '='], ['?', '?', '='], ['+', '='], ['-', '='], ['*', '='], ['/', '='], ['%', '='],
   ['&', '='], ['|', '='], ['^', '='], ['=']]

/-- Marks that begin with an equals sign and assign nothing. -/
def otherMarks : List (List Char) := [['=', '>'], ['=', '=']]

/-- The assignment operator that a text starts with. -/
def assignOf (cs : List Char) : Option (String × List Char) :=
  if otherMarks.any fun marks => (after? marks cs).isSome then none
  else assignMarks.findSome? fun marks =>
    (after? marks cs).map fun rest => (String.ofList marks, rest)

/-- `++` or `--`. -/
def updateOf (cs : List Char) : Option (String × List Char) :=
  match cs with
  | '+' :: '+' :: rest => some ("++", rest)
  | '-' :: '-' :: rest => some ("--", rest)
  | _ => none

/-- The operator of punctuation that a text starts with, and its level. -/
def binaryMarkOf (cs : List Char) : Option (String × Nat × List Char) :=
  if (assignOf cs).isSome || (updateOf cs).isSome then none
  else binaryMarks.findSome? fun (marks, level) =>
    (after? marks cs).map fun rest => (String.ofList marks, level, rest)

/-- The operator between two operands that a text starts with, and its level. -/
def binaryOf (inOperator : Bool) (cs : List Char) : Option (String × Nat × List Char) :=
  match nameOf cs with
  | some (name, rest) =>
    if name = "instanceof" || (name = "in" && inOperator) then some (name, 8, rest) else none
  | none => binaryMarkOf cs

/-- Whether an operator groups from the right. -/
def isRightAssociative (op : String) : Bool := op = "**"

/-- The operator before one operand that a text starts with. -/
def unaryOf (cs : List Char) : Option (String × List Char) :=
  match nameOf cs with
  | some (name, rest) =>
    if ["delete", "void", "typeof"].contains name then some (name, rest) else none
  | none =>
    match cs with
    | c :: rest => if ['+', '-', '~', '!'].contains c then some (String.singleton c, rest) else none
    | [] => none

end JsxLowering.Source
