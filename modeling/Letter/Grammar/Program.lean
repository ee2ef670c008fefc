import Letter.Grammar.Statement
import Letter.Token.Scan

namespace Letter

namespace Nested

/-- No further level may be opened. -/
def tooDeep (limit : Nat) : Nested where
  statement := .object (.nesting limit)
  expression := .object (.nesting limit)
  operation := .object (.nesting limit)
  construction := .object (.nesting limit)

/-- The productions that open a level where `depth` more levels may be opened. -/
def within (limit : Nat) : (depth : Nat) → Nested
  | 0 => tooDeep limit
  | depth + 1 =>
    { statement := fun stuck? unread => Grammar.statement (within limit depth) stuck? unread
      expression := fun stuck? unread => Grammar.assignment (within limit depth) stuck? unread
      operation := fun stuck? unread => Grammar.operation (within limit depth) stuck? unread
      construction := fun stuck? unread =>
        Grammar.construction (within limit depth) stuck? unread }

end Nested

def Grammar.program (limit : Nat) : Production Program := do
  return ⟨← statements (.within limit limit) .endOfInput⟩

namespace Program

/-- Blocks, statement bodies, assignments, prefix operators and `new` each open a level, and this
many may be open at a time unless another limit is set. -/
def defaultLimit : Nat := 100

/-- The program that some terminals form. To read any, the first has to be looked at. -/
def ofTerminals (limit : Nat) (stuck? : Option Char) (terminals : List Terminal) :
    Except Failure Program :=
  match terminals, stuck? with
  | [], some character => .error ⟨.lexical character, []⟩
  | _, _ => (Grammar.program limit stuck? terminals).map (·.1)

def parseWithin (limit : Nat) (source : String) : Except SourceError Program :=
  let scan := Scan.ofSource source
  (ofTerminals limit scan.stuck? scan.terminals).mapError fun failure =>
    failure.objection.report source (scan.tokenBefore failure.unread.length)

def parse (source : String) : Except SourceError Program :=
  parseWithin defaultLimit source

end Program

end Letter
