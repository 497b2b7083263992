import JsxLowering.Source.Goal
import JsxLowering.Source.Literal.Pattern

/-!
# Template literals

The pieces of a template literal, with expressions or types between them.
-/

namespace JsxLowering.Source

/-- The pieces of a template literal after its opening mark, with what stands between. -/
def templateFrom (between : Reader Tree) : Nat → Reader (List String × List Tree)
  | 0 => failure
  | fuel + 1 => do
    let cs ← get
    match pieceFrom false cs with
    | some (text, .literal, rest) => do
      set rest
      pure ([String.ofList text], [])
    | some (text, .expression, rest) => do
      set rest
      let value ← between
      mark '\x7d'
      let (pieces, values) ← templateFrom between fuel
      pure (String.ofList text :: pieces, value :: values)
    | none => failure

/-- A template literal. One with a tag may hold escapes that stand for nothing. -/
def templateOf (between : Reader Tree) (tagged : Bool) : Reader Tree := do
  mark '\x60'
  let (pieces, values) ← fun cs => templateFrom between (cs.length + 1) cs
  ensure (tagged || pieces.all fun piece => escapesAreValid {} piece.toList)
  pure (.node (.template pieces) values)

end JsxLowering.Source
