import JsxLowering.Code.Printer
import JsxLowering.Lowering.Pass
import JsxLowering.Options.Decode

/-!
# Compilation

A unit is a source with its file name. It is read, lowered and printed.
-/

namespace JsxLowering

/-- A source to compile. -/
structure SourceUnit where
  file : String
  source : String
deriving DecidableEq, Repr

/-- The result of a compilation. -/
structure Output where
  code : String
  /-- Number of templates in the code. -/
  boundaries : Nat
deriving DecidableEq, Repr

namespace SourceUnit

/-- The module that the source of a unit spells. -/
def read? (sourceUnit : SourceUnit) (options : Options) : Option Tree :=
  Source.module? options.typescript sourceUnit.source

/-- Lowers a module read from the unit; `bindings` are scopes around it. -/
def lower (sourceUnit : SourceUnit) (options : Options) (bindings : Scopes) (program : Tree) :
    Except Diagnostic Lowered :=
  match lowerProgram options.settings bindings program with
  | .ok lowered => .ok lowered
  | .error failure => .error (failure.diagnose sourceUnit.file sourceUnit.source)

/-- The report on a source that cannot be read. It is placed at the beginning. -/
def unreadable (sourceUnit : SourceUnit) : Diagnostic :=
  .ofFault .unreadable sourceUnit.file ⟨1, 1⟩

/-- Compiles a unit. -/
def compile (sourceUnit : SourceUnit) (options : Options) : Except Diagnostic Output :=
  match sourceUnit.read? options with
  | none => .error sourceUnit.unreadable
  | some program =>
    match sourceUnit.lower options [] program with
    | .ok lowered => .ok { code := lowered.program.moduleCode, boundaries := lowered.boundaries }
    | .error report => .error report

/-- Compiles units, each on its own. -/
def compileAll (units : List SourceUnit) (options : Options) : List (Except Diagnostic Output) :=
  units.map fun sourceUnit => sourceUnit.compile options

end SourceUnit

end JsxLowering
