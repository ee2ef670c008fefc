import Letter.Text.Position
import Letter.Token.Basic

namespace Letter

/-- What can be wrong with a source. -/
inductive Fault where
  /-- No lexical rule matches the text that this character begins. -/
  | lexical (character : Char)
  | unexpectedToken (found expected : String)
  | unexpectedEndOfInput (expected : String)
  /-- The left side of an assignment is neither a name nor a member. -/
  | invalidAssignmentTarget
  /-- No alternative of the production begins with the token found. -/
  | unexpectedProduction (production found : String)
  | nestingTooDeep (limit : Nat)
deriving DecidableEq, Repr

structure SourceError where
  fault : Fault
  position : Position
deriving DecidableEq, Repr

namespace Fault

def isLexical : Fault → Bool
  | lexical _ => true
  | _ => false

/-- The wording of a fault, without its position. -/
def wording : Fault → String
  | lexical character => "Unexpected token: \"" ++ character.toString ++ "\""
  | unexpectedToken found expected =>
    "Unexpected token: \"" ++ found ++ "\", expected: \"" ++ expected ++ "\""
  | unexpectedEndOfInput expected => "Unexpected end of input, expected: \"" ++ expected ++ "\""
  | invalidAssignmentTarget => "Invalid left-hand side in assignment expression"
  | unexpectedProduction production found =>
    production ++ ": unexpected token \"" ++ found ++ "\""
  | nestingTooDeep limit => "Nesting is too deep (maximum " ++ toString limit ++ " levels)"

end Fault

namespace SourceError

def message (e : SourceError) : String :=
  e.fault.wording ++ " at " ++ toString e.position

def isLexical (e : SourceError) : Bool :=
  e.fault.isLexical

/-- A character at which no token can begin. -/
def lexical (source : String) (offset : Nat) (character : Char) : SourceError :=
  ⟨.lexical character, .ofOffset source offset⟩

/-- A token that stands where another was expected; in place of a token, the end of input. -/
def unexpectedToken (source : String) (found : Token) (expected : String) : SourceError :=
  ⟨if found.isEnd then .unexpectedEndOfInput expected else .unexpectedToken found.lexeme expected,
    .ofOffset source found.offset⟩

def unexpectedEndOfInput (source : String) (expected : String) : SourceError :=
  ⟨.unexpectedEndOfInput expected, .ofOffset source source.utf8ByteSize⟩

def invalidAssignmentTarget (source : String) (operator : Token) : SourceError :=
  ⟨.invalidAssignmentTarget, .ofOffset source operator.offset⟩

/-- A token with which no alternative of a production begins. -/
def unexpectedProduction (source : String) (found : Token) (production : String) : SourceError :=
  if found.isEnd then unexpectedEndOfInput source production
  else ⟨.unexpectedProduction production found.lexeme, .ofOffset source found.offset⟩

/-- Nesting past the limit, at the token that would open the next level. -/
def nestingTooDeep (source : String) (found : Token) (limit : Nat) : SourceError :=
  ⟨.nestingTooDeep limit, .ofOffset source found.offset⟩

end SourceError

end Letter
