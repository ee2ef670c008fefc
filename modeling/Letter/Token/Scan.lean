import Letter.Token.Rule

namespace Letter

/-- All tokens of a source in order, up to its end or to the first character at which no token
can begin. -/
structure Scan where
  tokens : List Token
  /-- The character at which scanning stopped before the end. -/
  stuck? : Option Char
  /-- The offset at which scanning stopped. -/
  stop : Nat
deriving DecidableEq, Repr

namespace Scan

/-- The tokens among some pieces of which the first stands at `offset`. -/
def tokensAt : Nat → List Piece → List Token
  | _, [] => []
  | offset, piece :: pieces =>
    match piece.kind? with
    | none => tokensAt (offset + piece.size) pieces
    | some kind =>
      ⟨⟨kind, String.ofList piece.text⟩, offset⟩ :: tokensAt (offset + piece.size) pieces

def ofText (cs : List Char) : Scan :=
  let (pieces, stuck) := Piece.cut cs
  ⟨tokensAt 0 pieces, stuck.head?, Text.size (pieces.flatMap Piece.text)⟩

def ofSource (source : String) : Scan :=
  ofText source.toList

def terminals (scan : Scan) : List Terminal :=
  scan.tokens.map (·.toTerminal)

/-- The token behind which `unread - 1` more follow, or the end of input if `unread` is zero. -/
def tokenBefore (scan : Scan) (unread : Nat) : Token :=
  (scan.tokens.drop (scan.tokens.length - unread)).headD (.endOfInput scan.stop)

end Scan

end Letter
