import JsxLowering.Source.Reader

/-!
# String literals

A string literal is read one character at a time. The state between two characters says how far an
escape sequence has been read.
-/

namespace JsxLowering.Source

/-- How far an escape sequence has been read. -/
inductive EscapePart
  | outside
  /-- After the backslash. -/
  | started
  /-- After `\u`. -/
  | unicode
  /-- Some hexadecimal digits are still to come. -/
  | fixed (left value : Nat)
  /-- Inside `\u{…}`. -/
  | braced (value : Nat)
  /-- Up to so many octal digits may still come. -/
  | octal (left value : Nat)
  /-- Between the two characters of an escaped line end. -/
  | lineEnd
deriving DecidableEq, Repr

/-- A place in a string literal: how far an escape has been read, and the first half of a surrogate
pair whose second half comes next. -/
structure EscapeState where
  part : EscapePart := .outside
  high : Option Nat := none
deriving DecidableEq, Repr

/-- The effect of one character of a string literal. -/
inductive QuotedStep
  | next (out : List Char) (state : EscapeState)
  | close
  | fail

def isOctalDigit (c : Char) : Bool := '0' ≤ c && c ≤ '7'

/-- The character with a code point; the replacement character for half a surrogate pair. -/
def ofCodePoint (code : Nat) : Char :=
  if 0xD800 ≤ code && code ≤ 0xDFFF then '\uFFFD' else Char.ofNat code

/-- Ends an escape with a code. The first half of a surrogate pair is kept for the second. -/
def endEscape (high : Option Nat) (code : Nat) (rest : List Char) : QuotedStep :=
  match high with
  | some h =>
    if 0xDC00 ≤ code && code ≤ 0xDFFF then
      .next [Char.ofNat (0x10000 + (h - 0xD800) * 0x400 + (code - 0xDC00))] {}
    else .next ['\uFFFD', ofCodePoint code] {}
  | none =>
    match rest with
    | '\\' :: 'u' :: _ =>
      if 0xD800 ≤ code && code ≤ 0xDBFF then .next [] { high := some code }
      else .next [ofCodePoint code] {}
    | _ => .next [ofCodePoint code] {}

/-- Reads an octal digit, and ends the escape if the next character cannot belong to it. -/
def octalStep (left value : Nat) (rest : List Char) : QuotedStep :=
  match rest with
  | c :: _ =>
    if 0 < left && isOctalDigit c && value * 8 + Number.digitValue c < 256 then
      .next [] { part := .octal left value }
    else .next [Char.ofNat value] {}
  | [] => .fail

/-- The effect of the character after a backslash. -/
def startEscape (high : Option Nat) (c : Char) (rest : List Char) : QuotedStep :=
  if c = 'u' then .next [] { part := .unicode, high }
  else if c = 'x' then .next [] { part := .fixed 2 0 }
  else if c = 'n' then .next ['\n'] {}
  else if c = 'r' then .next ['\r'] {}
  else if c = 't' then .next ['\t'] {}
  else if c = 'b' then .next ['\x08'] {}
  else if c = 'v' then .next ['\x0B'] {}
  else if c = 'f' then .next ['\x0C'] {}
  else if c = '\r' && rest.head? = some '\n' then .next [] { part := .lineEnd }
  else if isLineEnd c then .next [] {}
  else if isOctalDigit c then octalStep (if c ≤ '3' then 2 else 1) (Number.digitValue c) rest
  else .next [c] {}

/-- The effect of one character. -/
def quotedStep (quote : Char) (state : EscapeState) (c : Char) (rest : List Char) : QuotedStep :=
  match state.part with
  | .outside =>
    if c = quote then .close
    else if c = '\\' then .next [] { state with part := .started }
    else if c = '\n' || c = '\r' then .fail
    else .next [c] {}
  | .started => startEscape state.high c rest
  | .unicode =>
    if c = '\x7b' then .next [] { state with part := .braced 0 }
    else if isHexDigit c then .next [] { state with part := .fixed 3 (Number.digitValue c) }
    else .fail
  | .fixed left value =>
    if !isHexDigit c then .fail
    else
      let value := value * 16 + Number.digitValue c
      if left ≤ 1 then endEscape state.high value rest
      else .next [] { state with part := .fixed (left - 1) value }
  | .braced value =>
    if c = '\x7d' then endEscape state.high value rest
    else
      let value := value * 16 + Number.digitValue c
      if isHexDigit c && value ≤ 0x10FFFF then .next [] { state with part := .braced value }
      else .fail
  | .octal left value =>
    octalStep (left - 1) (value * 8 + Number.digitValue c) rest
  | .lineEnd => .next [] {}

/-- The value of a string literal and the text after its closing quote. -/
def quotedFrom (quote : Char) (state : EscapeState) : List Char → Option (List Char × List Char)
  | [] => none
  | c :: cs =>
    match quotedStep quote state c cs with
    | .next out state => (quotedFrom quote state cs).map fun (value, rest) => (out ++ value, rest)
    | .close => some ([], cs)
    | .fail => none

/-- The string literal that a text starts with. -/
def quotedOf : List Char → Option (String × List Char)
  | c :: cs =>
    if c = '"' || c = '\'' then
      (quotedFrom c {} cs).map fun (value, rest) => (String.ofList value, rest)
    else none
  | [] => none

end JsxLowering.Source
