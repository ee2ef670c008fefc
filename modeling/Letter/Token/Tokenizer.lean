import Letter.Error
import Letter.Token.Rule

namespace Letter

/-- Reads a source one token at a time. -/
structure Tokenizer where
  source : String
  /-- The text from the cursor on. -/
  rest : List Char
  /-- The offset up to which the source has been read. -/
  cursor : Nat
  /-- Whether a lexical error has been met since the source was bound. -/
  failed : Bool
deriving DecidableEq, Repr

namespace Tokenizer

def ofSource (source : String) : Tokenizer :=
  ⟨source, source.toList, 0, false⟩

instance : Inhabited Tokenizer := ⟨ofSource ""⟩

/-- Binds to another source and goes back to its beginning. -/
def rebind (t : Tokenizer) (source : String) : Tokenizer :=
  { t with source := source, rest := source.toList, cursor := 0, failed := false }

def isAtEnd (t : Tokenizer) : Bool :=
  t.cursor == t.source.utf8ByteSize

/-- Whether any text remains, be it only blanks. -/
def hasMore (t : Tokenizer) : Bool :=
  t.cursor < t.source.utf8ByteSize

/-- Moves the cursor behind a piece. -/
def past (t : Tokenizer) (piece : Piece) (rest : List Char) : Tokenizer :=
  { t with rest := rest, cursor := t.cursor + piece.size }

/-- Reads on to the next token, over at most as many separating pieces as `bound` has
characters. -/
def nextTokenWithin : (bound : List Char) → Tokenizer → Except SourceError Token × Tokenizer
  | [], t => (.ok (.endOfInput t.cursor), t)
  | _ :: bound, t =>
    match t.rest with
    | [] => (.ok (.endOfInput t.cursor), t)
    | c :: _ =>
      match Piece.first? t.rest with
      | none => (.error (.lexical t.source t.cursor c), { t with failed := true })
      | some (piece, rest) =>
        match piece.kind? with
        | none => nextTokenWithin bound (t.past piece rest)
        | some kind => (.ok ⟨⟨kind, String.ofList piece.text⟩, t.cursor⟩, t.past piece rest)

/-- The next token, or the end of input, which may be read again and again. A lexical error leaves
the cursor where it is. -/
def nextToken (t : Tokenizer) : Except SourceError Token × Tokenizer :=
  nextTokenWithin t.rest t

/-- The next token as an element of a sequence, which is over at the end of input and behind a
lexical error. -/
def next? (t : Tokenizer) : Option (Except SourceError Token) × Tokenizer :=
  if t.failed then (none, t)
  else
    match t.nextToken with
    | (.ok token, t') => (if token.isEnd then none else some (.ok token), t')
    | (.error e, t') => (some (.error e), t')

/-- At most as many elements of the sequence as `bound` has characters. -/
def toListWithin : (bound : List Char) → Tokenizer → List (Except SourceError Token) × Tokenizer
  | [], t => ([], t)
  | _ :: bound, t =>
    match t.next? with
    | (none, t') => ([], t')
    | (some item, t') =>
      let (items, last) := toListWithin bound t'
      (item :: items, last)

/-- The whole sequence from the cursor on. Each element takes at least one character. -/
def toList (t : Tokenizer) : List (Except SourceError Token) × Tokenizer :=
  toListWithin t.rest t

end Tokenizer

end Letter
