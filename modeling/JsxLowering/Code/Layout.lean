import JsxLowering.Tree.Basic

/-!
# Layout of printed code

A node is printed in a layout: how deep it is indented, how tightly what surrounds it binds, and
what stands directly before it.
-/

namespace JsxLowering.Code

/-- How tightly an operator binds, from the loosest. -/
inductive Level
  | lowest
  | comma
  | spread
  | yields
  | assign
  | conditional
  | coalesce
  | or
  | and
  | bitOr
  | bitXor
  | bitAnd
  | equals
  | compare
  | shift
  | add
  | multiply
  | exponent
  | unary
  | postfixed
  | new
  | call
  | member
deriving DecidableEq, Repr

namespace Level

/-- The levels, from the loosest. -/
def all : List Level :=
  [.lowest, .comma, .spread, .yields, .assign, .conditional, .coalesce, .or, .and, .bitOr, .bitXor,
   .bitAnd, .equals, .compare, .shift, .add, .multiply, .exponent, .unary, .postfixed, .new, .call,
   .member]

def rank (level : Level) : Nat := level.ctorIdx

/-- Whether a level binds as tightly as another, or more tightly. -/
def reaches (level other : Level) : Bool := other.rank ≤ level.rank

/-- The next looser level. -/
def lower (level : Level) : Level := all.getD (level.rank - 1) .lowest

end Level

/-- What an expression is the beginning of. -/
inductive Beginning
  | nothing
  | statement
  | exportDefault
  | arrowBody
  | loopHead
deriving DecidableEq, Repr

/-- Where a node is printed. -/
structure Layout where
  indent : Nat := 0
  level : Level := .lowest
  beginning : Beginning := .nothing
  /-- A call has to be parenthesized. -/
  forbidCall : Bool := false
  /-- The operator `in` has to be parenthesized. -/
  forbidIn : Bool := false
  /-- The source may hold markup, so that a comma follows a single type parameter. -/
  besideMarkup : Bool := false
deriving DecidableEq, Repr

namespace Layout

/-- The layout of an expression inside brackets, where nothing is forbidden. -/
def inner (layout : Layout) (level : Level) : Layout :=
  { indent := layout.indent, level, besideMarkup := layout.besideMarkup }

/-- The layout of an expression that begins what `layout` begins, and where nothing is
forbidden. -/
def front (layout : Layout) (level : Level) : Layout :=
  { layout.inner level with beginning := layout.beginning }

/-- The layout of a leftmost operand. -/
def left (layout : Layout) (level : Level) : Layout := { layout with level }

/-- The layout of an operand that is not leftmost. -/
def right (layout : Layout) (level : Level) : Layout :=
  { layout with level, beginning := .nothing }

/-- The layout of a statement or a part of a function: what is forbidden stays so. -/
def within (layout : Layout) : Layout := layout.right .lowest

/-- One step deeper. -/
def deeper (layout : Layout) : Layout := { layout.within with indent := layout.indent + 1 }

/-- A new line at the indentation of the layout. -/
def newLine (layout : Layout) : String := String.ofList ('\n' :: List.replicate layout.indent '\t')

/-- Parenthesizes what `print` gives if `wrapped` is set. -/
def wrap (layout : Layout) (wrapped : Bool) (print : Layout → String) : String :=
  if wrapped then "(" ++ print { layout with beginning := .nothing } ++ ")" else print layout

end Layout

/-- A child of a node, and how it is printed. -/
structure Part where
  tree : Tree
  print : Layout → String

/-- A part that is not there. -/
def Part.absent : Part := ⟨.absent, fun _ => ""⟩

instance : Inhabited Part := ⟨.absent⟩

def Part.isPresent (part : Part) : Bool := part.tree.isPresent

/-- Texts on lines of their own, one step deeper than the brackets around them. -/
def Layout.lines (layout : Layout) (opening closing separator : String) (texts : List String) :
    String :=
  let line := layout.deeper.newLine
  opening ++ line ++ (separator ++ line).intercalate texts ++ layout.newLine ++ closing

/-- Statements in braces. -/
def Layout.braces (layout : Layout) (statements : List Part) : String :=
  match statements with
  | [] => "\x7b\x7d"
  | statements =>
    layout.lines "\x7b" "\x7d" "" (statements.map fun part => part.print layout.deeper)

end JsxLowering.Code
