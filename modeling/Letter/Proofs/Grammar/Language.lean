import Letter.Proofs.Token.Genuine

/-!
Sentences with their values. A language says which lists of terminals are sentences of a kind,
what each denotes, and how deeply a derivation of it nests.
-/

namespace Letter

/-- A list begins with a terminal of one of certain kinds. -/
def Begins (starts : TokenKind → Bool) (ts : List Terminal) : Prop :=
  ∃ t rest, ts = t :: rest ∧ starts t.kind

namespace Begins

variable {starts starts' : TokenKind → Bool} {ts : List Terminal}

theorem cons {t : Terminal} (ht : starts t.kind) : Begins starts (t :: ts) :=
  ⟨t, ts, rfl, ht⟩

theorem append {ts' : List Terminal} (hts : Begins starts ts) : Begins starts (ts ++ ts') := by
  obtain ⟨t, rest, rfl, ht⟩ := hts
  exact .cons ht

theorem mono (hts : Begins starts ts) (hstarts : ∀ kind, starts kind → starts' kind) :
    Begins starts' ts := by
  obtain ⟨t, rest, rfl, ht⟩ := hts
  exact .cons (hstarts _ ht)

end Begins

/-- The sentences of a kind, each with the height of a derivation and the value derived. -/
def Language (α : Type) : Type := Nat → List Terminal → α → Prop

namespace Language

variable {α β : Type}

/-- A sentence, or nothing. -/
def optional (L : Language α) : Language (Option α)
  | h, ts, none => h = 0 ∧ ts = []
  | h, ts, some a => L h ts a

/-- Any number of sentences, one behind the other. -/
def many (L : Language α) : Language (List α)
  | h, ts, [] => h = 0 ∧ ts = []
  | h, ts, a :: as =>
    ∃ h₁ h₂ ts₁ ts₂, h = max h₁ h₂ ∧ ts = ts₁ ++ ts₂ ∧ L h₁ ts₁ a ∧ many L h₂ ts₂ as

/-- One or more sentences with commas between them. -/
def commaSeparated (L : Language α) : Language (List α)
  | _, _, [] => False
  | h, ts, [a] => L h ts a
  | h, ts, a :: a' :: as =>
    ∃ h₁ h₂ ts₁ ts₂, h = max h₁ h₂ ∧ ts = ts₁ ++ Punctuator.comma.terminal :: ts₂ ∧ L h₁ ts₁ a ∧
      commaSeparated L h₂ ts₂ (a' :: as)

/-- The empty sentence. -/
def pure (a : α) : Language α :=
  fun h ts b => h = 0 ∧ ts = [] ∧ b = a

/-- A sentence and one that depends on the value of the first. -/
def bind (L : Language α) (F : α → Language β) : Language β :=
  fun h ts b => ∃ h₁ h₂ ts₁ ts₂ a, h = max h₁ h₂ ∧ ts = ts₁ ++ ts₂ ∧ L h₁ ts₁ a ∧ F a h₂ ts₂ b

/-- The sentences with their values converted. -/
def map (f : α → β) (L : Language α) : Language β :=
  fun h ts b => ∃ a, b = f a ∧ L h ts a

/-- A fixed terminal before the sentences. -/
def after (t : Terminal) (L : Language α) : Language α :=
  fun h ts a => ∃ ts', ts = t :: ts' ∧ L h ts' a

/-- The sentences as parts of others that nest one level more. -/
def raised (L : Language α) : Language α :=
  fun h => L (h + 1)

/-- What can be continued to a sentence. -/
def Viable (L : Language α) (ts : List Terminal) : Prop :=
  ∃ h more a, L h (ts ++ more) a

theorem commaSeparated_cons {L : Language α} {h h' : Nat} {ts ts' : List Terminal} {a : α}
    {as : List α} (ha : L h ts a) (has : L.commaSeparated h' ts' as) :
    L.commaSeparated (max h h') (ts ++ Punctuator.comma.terminal :: ts') (a :: as) := by
  cases as with
  | nil => exact absurd has id
  | cons a' as => exact ⟨h, h', ts, ts', rfl, rfl, ha, has⟩

theorem foldl_of_many {A : Language α} {L : Language β} {f : α → β → α}
    (step : ∀ {h ts a h' ts' b}, A h ts a → L h' ts' b → A (max h h') (ts ++ ts') (f a b))
    {h h' : Nat} {ts ts' : List Terminal} {a : α} {bs : List β} (ha : A h ts a)
    (hbs : L.many h' ts' bs) : A (max h h') (ts ++ ts') (bs.foldl f a) := by
  induction bs generalizing h h' ts ts' a with
  | nil =>
      obtain ⟨rfl, rfl⟩ := hbs
      rwa [Nat.max_zero, List.append_nil]
  | cons b bs ih =>
      obtain ⟨h₁, h₂, ts₁, ts₂, rfl, rfl, hb, hbs⟩ := hbs
      rw [← Nat.max_assoc, ← List.append_assoc]
      exact ih (step ha hb) hbs

end Language

end Letter
