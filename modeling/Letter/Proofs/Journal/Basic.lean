import Letter.Proofs.Descent.Procedure
import Letter.Proofs.Machine.Basic

/-!
Reading with a journal. A reader has a tokenizer that it is one token ahead of, and counts the
levels that are open. Its journal has every token that it has consumed, and says of everything that
came to a value how far the reader had come before and after.
-/

namespace Letter

namespace Journal

/-- How far a reader has come: how many tokens it has consumed, and how many levels are open. -/
structure Mark where
  consumed : Nat
  depth : Nat
deriving DecidableEq, Repr

inductive Activity where
  | procedure (q : Procedure)
  /-- A single round of a loop. -/
  | round

/-- Whether it is a list of statements that is read, which can be empty. -/
def Activity.isList : Activity → Bool
  | procedure q => q.isList
  | round => false

/-- Something that came to a value. -/
structure Entry where
  activity : Activity
  before : Mark
  after : Mark

structure State where
  tokenizer : Tokenizer
  lookahead : Token
  depth : Nat
  limit : Nat
  /-- The tokens that have been consumed, in order. -/
  consumed : List Token
  entries : List Entry

/-- No token has been looked at yet. -/
def State.start (limit : Nat) (source : String) : State :=
  ⟨.ofSource source, .endOfInput 0, 0, limit, [], []⟩

def State.mark (s : State) : Mark := ⟨s.consumed.length, s.depth⟩

end Journal

/-- What is written down stays so when reading fails. -/
def Journal (α : Type) : Type :=
  Journal.State → Machine.Outcome α × Journal.State

namespace Journal

open Machine (Outcome)

variable {α : Type}

instance : Monad Journal where
  pure a := fun s => (.value a, s)
  bind m f := fun s =>
    match m s with
    | (.value a, s') => f a s'
    | (.error e, s') => (.error e, s')
    | (.breach, s') => (.breach, s')

/-- Less was allowed than is needed. -/
def breach : Journal α := fun s => (.breach, s)

/-- Writes down what comes to a value. -/
def noting (activity : Activity) (m : Journal α) : Journal α := fun s =>
  match m s with
  | (.value a, s') =>
    (.value a, { s' with entries := s'.entries ++ [⟨activity, s.mark, s'.mark⟩] })
  | result => result

theorem getLast?_entries_of_noting {activity : Activity} {m : Journal α} {s s' : State} {a : α}
    (h : noting activity m s = (.value a, s')) :
    s'.entries.getLast? = some ⟨activity, s.mark, s'.mark⟩ := by
  rw [noting] at h
  generalize m s = result at h
  obtain ⟨_ | _ | _, s''⟩ := result <;> cases h
  exact List.getLast?_concat

section Tokens

def lookahead : Journal Token := fun s => (.value s.lookahead, s)

def object (found : Token) (objection : Objection) : Journal α := fun s =>
  (.error (objection.report s.tokenizer.source found), s)

/-- Looks at the next token. -/
def look : Journal Unit := fun s =>
  match s.tokenizer.nextToken with
  | (.ok next, tokenizer) => (.value (), { s with tokenizer := tokenizer, lookahead := next })
  | (.error e, tokenizer) => (.error e, { s with tokenizer := tokenizer })

/-- Consumes the token looked at, whatever it is, and looks at the one behind it. -/
def advance : Journal Token := do
  let token ← lookahead
  fun s => (.value (), { s with consumed := s.consumed ++ [token] })
  look
  return token

def next : Journal Unit := do
  let _ ← advance

def expect (kind : TokenKind) : Journal Token := do
  let found ← lookahead
  if found.kind = kind then advance else object found (.expected kind.label)

def skip (kind : TokenKind) : Journal Unit := do
  let _ ← expect kind

/-- Judges a token that has been consumed. -/
def judge (check : Terminal → Except Objection α) (token : Token) : Journal α :=
  match check token.toTerminal with
  | .ok a => pure a
  | .error objection => object token objection

end Tokens

/-- Opens a level, which is closed whether or not what is read in it fails. -/
def nested (m : Journal α) : Journal α := fun s =>
  if s.limit ≤ s.depth then object s.lookahead (.nesting s.limit) s
  else
    let (outcome, s') := m { s with depth := s.depth + 1 }
    (outcome, { s' with depth := s'.depth - 1 })

section Loops

/-- Reads items as long as the token looked at is one with which they start, less than `bound`
times. -/
def manyWithin (starts : TokenKind → Bool) (item : Journal α) :
    (bound : Nat) → List α → Journal (List α)
  | 0, _ => breach
  | bound + 1, items => do
    if starts (← lookahead).kind then
      manyWithin starts item bound (items ++ [← noting .round item])
    else return items

/-- No loop goes round more often than the source has characters. -/
def many (starts : TokenKind → Bool) (item : Journal α) : Journal (List α) := fun s =>
  manyWithin starts item (s.tokenizer.source.length + 1) [] s

/-- One more item and, if there is one, the comma behind it, which another item has to follow. -/
def listOne (item : Journal α) (items : List α) : Journal (List α × Bool) := do
  let items := items ++ [← item]
  if (← lookahead).kind = Punctuator.comma then
    next
    return (items, true)
  else return (items, false)

def listWithin (item : Journal α) : (bound : Nat) → List α → Journal (List α)
  | 0, _ => breach
  | bound + 1, items => do
    let (items, more) ← noting .round (listOne item items)
    if more then listWithin item bound items else return items

/-- One or more items with commas between them. -/
def list (item : Journal α) : Journal (List α) := fun s =>
  listWithin item (s.tokenizer.source.length + 1) [] s

end Loops

end Journal

end Letter
