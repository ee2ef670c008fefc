import Letter.Token.Kind

namespace Letter

/-- What the grammar sees of a token: its kind and its spelling, and not where it stands. -/
structure Terminal where
  kind : TokenKind
  lexeme : String
deriving DecidableEq, Repr

namespace Terminal

/-- Stands for whatever follows the last token. -/
def endOfInput : Terminal := ⟨.endOfInput, ""⟩

def isEnd (t : Terminal) : Bool :=
  t.kind == .endOfInput

end Terminal

/-- A terminal at a byte offset of a source. -/
structure Token extends Terminal where
  offset : Nat
deriving DecidableEq, Repr

namespace Token

def endOfInput (offset : Nat) : Token := ⟨.endOfInput, offset⟩

end Token

end Letter
