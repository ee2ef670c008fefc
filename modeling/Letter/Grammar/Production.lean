import Letter.Error

namespace Letter

/-- What a production has against the next terminal. -/
inductive Objection where
  /-- In place of a terminal there is a character at which none can begin. -/
  | lexical (character : Char)
  | expected (what : String)
  | noAlternative (production : String)
  | assignmentTarget
  | nesting (limit : Nat)
deriving DecidableEq, Repr

/-- The error of an objection to a token of `source`. -/
def Objection.report (source : String) (found : Token) : Objection → SourceError
  | lexical character => .lexical source found.offset character
  | expected what => .unexpectedToken source found what
  | noAlternative production => .unexpectedProduction source found production
  | assignmentTarget => .invalidAssignmentTarget source found
  | nesting limit => .nestingTooDeep source found limit

/-- An objection and the input from the terminal on to which it is made. -/
structure Failure where
  objection : Objection
  unread : List Terminal
deriving DecidableEq, Repr

/-- Reads from the front of the unread terminals. The character is the one at which they break
off, if they do not reach the end of the source; it is an error to read the last of them then. -/
def Production (α : Type) : Type :=
  Option Char → List Terminal → Except Failure (α × List Terminal)

namespace Production

variable {α β : Type}

instance : Monad Production where
  pure a := fun _ unread => .ok (a, unread)
  bind p f := fun stuck? unread =>
    match p stuck? unread with
    | .ok (a, rest) => f a stuck? rest
    | .error failure => .error failure

theorem pure_eq_ok {a b : α} {stuck? : Option Char} {unread rest : List Terminal} :
    (pure a : Production α) stuck? unread = .ok (b, rest) ↔ a = b ∧ unread = rest := by
  simp [pure]

theorem bind_eq_ok {p : Production α} {f : α → Production β} {stuck? : Option Char}
    {unread rest : List Terminal} {b : β} :
    (p >>= f) stuck? unread = .ok (b, rest) ↔
      ∃ a middle, p stuck? unread = .ok (a, middle) ∧ f a stuck? middle = .ok (b, rest) := by
  simp only [bind]
  cases p stuck? unread with
  | error failure => simp
  | ok result =>
      obtain ⟨a, middle⟩ := result
      simp [and_assoc]

theorem bind_eq_error {p : Production α} {f : α → Production β} {stuck? : Option Char}
    {unread : List Terminal} {failure : Failure} :
    (p >>= f) stuck? unread = .error failure ↔
      p stuck? unread = .error failure ∨
        ∃ a middle, p stuck? unread = .ok (a, middle) ∧ f a stuck? middle = .error failure := by
  simp only [bind]
  cases p stuck? unread with
  | error failure' => simp
  | ok result =>
      obtain ⟨a, middle⟩ := result
      simp [and_assoc]

instance : LawfulMonad Production :=
  .mk' Production
    (by
      intro α p
      funext stuck? unread
      show (p >>= pure) stuck? unread = p stuck? unread
      simp only [bind, pure]
      cases p stuck? unread <;> rfl)
    (by intros; rfl)
    (by
      intro α β γ p f g
      funext stuck? unread
      simp only [bind]
      cases p stuck? unread <;> rfl)

/-- The terminals not yet read. -/
def unread : Production (List Terminal) :=
  fun _ unread => .ok (unread, unread)

def lookahead : Production Terminal :=
  fun _ unread => .ok (unread.headD .endOfInput, unread)

/-- Fails with an objection to the first of some terminals. -/
def objectAt (unread : List Terminal) (objection : Objection) : Production α :=
  fun _ _ => .error ⟨objection, unread⟩

def object (objection : Objection) : Production α :=
  fun _ unread => .error ⟨objection, unread⟩

/-- A value that has to exist, or else an objection to the first of some terminals. -/
def require (value? : Option α) (unread : List Terminal) (objection : Objection) : Production α :=
  match value? with
  | some a => pure a
  | none => objectAt unread objection

/-- Reads a terminal, which means to look at the one behind it. -/
def advance : Production Terminal := fun stuck? unread =>
  match unread, stuck? with
  | [], _ => .ok (.endOfInput, [])
  | [_], some character => .error ⟨.lexical character, []⟩
  | t :: rest, _ => .ok (t, rest)

/-- Reads a terminal of a given kind. -/
def expect (kind : TokenKind) : Production Terminal := do
  if (← lookahead).kind = kind then advance else object (.expected kind.label)

/-- Reads a terminal of a given kind for its kind alone. -/
def skip (kind : TokenKind) : Production Unit := do
  let _ ← expect kind

/-- Reads at most as many items as `bound` has terminals. -/
def manyWithin (starts : TokenKind → Bool) (item : Production α) :
    (bound : List Terminal) → Production (List α)
  | [] => pure []
  | _ :: bound => do
    if starts (← lookahead).kind then
      let first ← item
      let others ← manyWithin starts item bound
      return first :: others
    else return []

/-- Reads items as long as the next terminal is one with which they start. An item that reads at
least one terminal does not occur more often than there are terminals. -/
def many (starts : TokenKind → Bool) (item : Production α) : Production (List α) := do
  manyWithin starts item (← unread)

/-- Every success reads at least one terminal. -/
def Progresses (p : Production α) : Prop :=
  ∀ stuck? unread a rest, p stuck? unread = .ok (a, rest) → rest.length < unread.length

theorem manyWithin_cons {starts : TokenKind → Bool} {item : Production α} {t : Terminal}
    {bound unread : List Terminal} {stuck? : Option Char} :
    manyWithin starts item (t :: bound) stuck? unread =
      if starts (unread.headD .endOfInput).kind then
        (do
          let first ← item
          let others ← manyWithin starts item bound
          return first :: others : Production (List α)) stuck? unread
      else .ok ([], unread) := by
  show (if starts (unread.headD .endOfInput).kind then _ else _ : Production (List α)) stuck? unread
    = _
  split <;> rfl

theorem manyWithin_eq_manyWithin {starts : TokenKind → Bool} {item : Production α}
    (hitem : item.Progresses) (hend : starts .endOfInput = false)
    {bound bound' unread : List Terminal} {stuck? : Option Char}
    (h : unread.length ≤ bound.length) (h' : unread.length ≤ bound'.length) :
    manyWithin starts item bound stuck? unread = manyWithin starts item bound' stuck? unread := by
  induction bound generalizing bound' unread with
  | nil =>
      obtain rfl := List.length_eq_zero_iff.mp (Nat.le_zero.mp h)
      cases bound' with
      | nil => rfl
      | cons t bound' => rw [manyWithin_cons]; simp [hend, Terminal.endOfInput, manyWithin, pure]
  | cons t bound ih =>
      cases bound' with
      | nil =>
          obtain rfl := List.length_eq_zero_iff.mp (Nat.le_zero.mp h')
          rw [manyWithin_cons]; simp [hend, Terminal.endOfInput, manyWithin, pure]
      | cons t' bound' =>
          rw [manyWithin_cons, manyWithin_cons]
          split
          · simp only [bind]
            cases hfirst : item stuck? unread with
            | error failure => rfl
            | ok result =>
                obtain ⟨first, rest⟩ := result
                have hlt := hitem _ _ _ _ hfirst
                simp only [List.length_cons] at h h'
                have heq : manyWithin starts item bound stuck? rest =
                    manyWithin starts item bound' stuck? rest := ih (by omega) (by omega)
                simp only [heq]
          · rfl

theorem many_eq {starts : TokenKind → Bool} {item : Production α} (hitem : item.Progresses)
    (hend : starts .endOfInput = false) :
    many starts item = do
      if starts (← lookahead).kind then
        let first ← item
        let others ← many starts item
        return first :: others
      else return [] := by
  funext stuck? unread
  show manyWithin starts item unread stuck? unread =
    (if starts (unread.headD .endOfInput).kind then _ else _ : Production (List α)) stuck? unread
  cases unread with
  | nil => simp [hend, Terminal.endOfInput, manyWithin]
  | cons t unread =>
      rw [manyWithin_cons]
      split
      · simp only [bind]
        cases hfirst : item stuck? (t :: unread) with
        | error failure => rfl
        | ok result =>
            obtain ⟨first, rest⟩ := result
            have hlt := hitem _ _ _ _ hfirst
            have heq : manyWithin starts item unread stuck? rest = many starts item stuck? rest :=
              manyWithin_eq_manyWithin hitem hend (Nat.le_of_lt_succ hlt) (Nat.le_refl rest.length)
            simp only [heq]
      · rfl

/-- One or more items with commas between them. -/
def commaSeparated (item : Production α) : Production (List α) := do
  let first ← item
  let others ← many (· == Punctuator.comma) do
    skip Punctuator.comma
    item
  return first :: others

end Production

end Letter
