import JsxLowering.Source.Reader
import JsxLowering.Tree.Basic

/-!
# Goals

A goal names a part of the grammar that other parts refer to. Each part is read by a function that
is given a reader for all goals, so that the grammar is tied into one recursion at a single place.
-/

namespace JsxLowering.Source

/-- What a source may hold and what surrounds a place in it. -/
structure Mode where
  /-- Annotations are read. -/
  typescript : Bool := false
  /-- Number of bytes of the whole source. -/
  size : Nat := 0
  /-- `in` is an operator. It is none in the head of a loop. -/
  inOperator : Bool := true
  /-- `await` is an operator. -/
  awaits : Bool := true
  /-- `yield` is an operator. -/
  yields : Bool := false
  /-- A function surrounds the place. -/
  returns : Bool := false
  /-- Declarations need no values. -/
  ambient : Bool := false
  /-- A bound of a conditional type is read, which is no conditional type itself. -/
  inExtends : Bool := false
  /-- The first branch of a conditional expression is read. A colon ends it, so an arrow function in
  it has a result type only if another colon comes after it. -/
  inBranch : Bool := false
deriving DecidableEq, Repr

/-- The mode inside a function. -/
def Mode.inFunction (mode : Mode) (async generator : Bool) : Mode :=
  { mode with
    inOperator := true, awaits := async, yields := generator, returns := true, inBranch := false }

/-- The mode inside brackets. -/
def Mode.inside (mode : Mode) : Mode := { mode with inOperator := true, inBranch := false }

/-- Parts of the grammar. -/
inductive Goal
  | expression
  | assignment
  /-- An expression whose operators bind more tightly than a level. -/
  | operand (level : Nat)
  | unary
  /-- What `new` is applied to. -/
  | callee
  /-- A class from the word `class` on. -/
  | classLiteral
  /-- A statement; a `nested` one is not in a list, and is no declaration. -/
  | statement (nested : Bool)
  /-- An item of a module or a namespace. -/
  | item
  /-- What a declaration binds. -/
  | binding
  | typeExpression
  /-- A type without operators between types. -/
  | typeOperator
  | markup
deriving DecidableEq, Repr

/-- A reader for every goal. -/
abbrev Grammar := Mode → Goal → Reader Tree

end JsxLowering.Source
