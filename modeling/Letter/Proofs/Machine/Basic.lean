import Letter.Grammar.Production
import Letter.Proofs.Machine.Checked
import Letter.Token.Tokenizer

/-!
A machine that reads a source with a cursor, one token ahead, and counts how many levels are open.
Every step that is not possible in each state is checked, and a run that would take one where it is
not possible ends in a breach.
-/

namespace Letter

namespace Machine

/-- What does not change while a source is read. -/
structure Setting where
  source : String
  limit : Nat
  /-- The largest number that the counter of levels can hold. -/
  capacity : Nat

structure State where
  cursor : Nat
  lookahead : Token
  depth : Nat

/-- The cursor is at the front of the source and no level is open. -/
def State.start : State := ⟨0, .endOfInput 0, 0⟩

inductive Outcome (α : Type) where
  | value (a : α)
  | error (e : SourceError)
  /-- A step was to be taken that is not possible. -/
  | breach

def Outcome.ofExcept {α : Type} : Except SourceError α → Outcome α
  | .ok a => value a
  | .error e => error e

end Machine

/-- The state is kept also by what fails. -/
def Machine (α : Type) : Type :=
  Machine.Setting → Machine.State → Machine.Outcome α × Machine.State

namespace Machine

variable {α β : Type}

instance : Monad Machine where
  pure a := fun _ s => (.value a, s)
  bind m f := fun setting s =>
    match m setting s with
    | (.value a, s') => f a setting s'
    | (.error e, s') => (.error e, s')
    | (.breach, s') => (.breach, s')

def breach : Machine α := fun _ s => (.breach, s)

def fail (e : SourceError) : Machine α := fun _ s => (.error e, s)

def setting : Machine Setting := fun setting s => (.value setting, s)

def state : Machine State := fun _ s => (.value s, s)

def lookahead : Machine Token := fun _ s => (.value s.lookahead, s)

/-- A value that has to exist. -/
def require (value? : Option α) : Machine α :=
  match value? with
  | some a => pure a
  | none => breach

section Errors

/-- The position of an offset, counted in 32 bits. -/
def locate (offset : Nat) : Machine Position := do
  require (Position.locate? (← setting).source offset)

def unexpectedToken (found : Token) (expected : String) : Machine α := do
  let position ← locate found.offset
  if found.isEnd then fail ⟨.unexpectedEndOfInput expected, position⟩
  else fail ⟨.unexpectedToken found.lexeme expected, position⟩

def unexpectedProduction (found : Token) (production : String) : Machine α := do
  if found.isEnd then
    let position ← locate (← setting).source.utf8ByteSize
    fail ⟨.unexpectedEndOfInput production, position⟩
  else
    let position ← locate found.offset
    fail ⟨.unexpectedProduction production found.lexeme, position⟩

def invalidAssignmentTarget (operator : Token) : Machine α := do
  fail ⟨.invalidAssignmentTarget, ← locate operator.offset⟩

def nestingTooDeep (found : Token) : Machine α := do
  fail ⟨.nestingTooDeep (← setting).limit, ← locate found.offset⟩

end Errors

/-- The operator that a token spells. -/
def operatorOf [Spelled α] (token : Token) (what : String) : Machine α :=
  match (Spelled.ofSpelling? token.lexeme : Option α) with
  | some operator => pure operator
  | none => unexpectedToken token what

section Tokens

/-- Moves the cursor, which must not pass the end. -/
def moveTo (cursor : Nat) : Machine Unit := fun setting s =>
  if cursor ≤ setting.source.utf8ByteSize then (.value (), { s with cursor := cursor })
  else (.breach, s)

/-- The next token, in at most `bound` rounds, of which each passes a piece of the source. -/
def nextTokenWithin : (bound : Nat) → Machine Token
  | 0 => breach
  | bound + 1 => do
    let start := (← state).cursor
    if (← setting).source.utf8ByteSize ≤ start then return .endOfInput start
    let rest ← require (Text.from? start (← setting).source.toList)
    match Piece.first? rest with
    | none => fail ⟨.lexical (rest.headD default), ← locate start⟩
    | some (piece, _) =>
      moveTo (start + piece.size)
      match piece.kind? with
      | none => nextTokenWithin bound
      | some kind => return ⟨⟨kind, .ofList piece.text⟩, start⟩

def nextToken : Machine Token := do
  nextTokenWithin ((← setting).source.length + 1)

/-- Looks at the next token. -/
def look : Machine Unit := do
  let next ← nextToken
  fun _ s => (.value (), { s with lookahead := next })

/-- Reads the token looked at, whatever it is, and looks at the one behind it. -/
def advance : Machine Token := do
  let token ← lookahead
  look
  return token

/-- Reads a token for which nothing is left to be checked. -/
def next : Machine Unit := do
  let _ ← advance

/-- Reads a token of a given kind. -/
def expect (kind : TokenKind) : Machine Token := do
  let found ← lookahead
  if found.kind = kind then advance else unexpectedToken found kind.label

def skip (kind : TokenKind) : Machine Unit := do
  let _ ← expect kind

end Tokens

section Levels

/-- Opens a level. -/
def enter : Machine Unit := fun setting s =>
  if s.depth + 1 ≤ setting.capacity ∧ s.depth + 1 ≤ setting.limit then
    (.value (), { s with depth := s.depth + 1 })
  else (.breach, s)

/-- Closes a level. -/
def leave : Machine Unit := fun _ s =>
  if 1 ≤ s.depth then (.value (), { s with depth := s.depth - 1 }) else (.breach, s)

/-- A level is closed whether or not what is read in it fails. -/
def leaving (m : Machine α) : Machine α := fun setting s =>
  let (outcome, s') := m setting s
  match leave setting s' with
  | (.value _, s'') => (outcome, s'')
  | (_, s'') => (.breach, s'')

def nested (m : Machine α) : Machine α := do
  if (← setting).limit ≤ (← state).depth then nestingTooDeep (← lookahead)
  else
    enter
    leaving m

end Levels

section Loops

/-- Reads items as long as the token looked at is one with which they start, less than `bound`
times. -/
def manyWithin (starts : TokenKind → Bool) (item : Machine α) :
    (bound : Nat) → List α → Machine (List α)
  | 0, _ => breach
  | bound + 1, items => do
    if starts (← lookahead).kind then manyWithin starts item bound (items ++ [← item])
    else return items

/-- No loop goes round more often than the source has characters. -/
def many (starts : TokenKind → Bool) (item : Machine α) : Machine (List α) := do
  manyWithin starts item ((← setting).source.length + 1) []

/-- One or more items with commas between them. -/
def commaSeparated (item : Machine α) : Machine (List α) := do
  let first ← item
  let others ← many (· == Punctuator.comma) do
    next
    item
  return first :: others

end Loops

end Machine

end Letter
