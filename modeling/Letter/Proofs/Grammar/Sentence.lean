import Letter.Grammar.Statement
import Letter.Proofs.Grammar.Derivation

namespace Letter

namespace Symbol

/-- Whether the empty sentence can be derived. -/
def nullable : Symbol → Bool
  | optional _ | many _ => true
  | commaSeparated s => s.nullable
  | _ => false

/-- The kinds with which an operand can begin that has no prefix operator. -/
def startsPrimary : TokenKind → Bool
  | .number | .identifier | .string | .punctuator .leftParen => true
  | .keyword k => k ∈ [.true_, .false_, .null_, .this_, .super_, .new_]
  | _ => false

def startsExpression (kind : TokenKind) : Bool :=
  Grammar.startsOperation kind || startsPrimary kind

def startsStatement : TokenKind → Bool
  | .punctuator .semicolon | .punctuator .leftBrace => true
  | .keyword k =>
    startsPrimary k || k ∈ [.let_, .if_, .while_, .do_, .for_, .def_, .return_, .class_]
  | kind => startsExpression kind

/-- Whether a sentence with terminals can begin with one of a kind. -/
def starts : Symbol → TokenKind → Bool
  | expression .leftHandSide, kind | expression .member, kind | expression .primary, kind =>
    startsPrimary kind
  | expression _, kind => startsExpression kind
  | identifier, kind | declaration, kind => kind == .identifier
  | arguments, kind => kind == Punctuator.leftParen
  | initializer, kind => kind == .simpleAssign
  | forInit, kind => kind == Keyword.let_ || startsExpression kind
  | superclass, kind => kind == Keyword.extends_
  | block, kind => kind == Punctuator.leftBrace
  | statement, kind => startsStatement kind
  | optional s, kind | many s, kind | commaSeparated s, kind => s.starts kind

theorem startsStatement_of_startsExpression :
    ∀ {kind : TokenKind}, startsExpression kind → startsStatement kind := by
  decide

theorem startsOperation_of_startsPrimary :
    ∀ {kind : TokenKind}, startsPrimary kind → Grammar.startsOperation kind = false := by
  decide

/-- Levels that a sentence has fewer of than terminals. -/
def slack : Symbol → Nat
  | expression .assignment => 0
  | expression _ | identifier | arguments | block => 1
  | _ => 0

end Symbol

theorem Phrase.Joins.slack_eq {phrase tighter : Phrase} {kind : TokenKind}
    (hjoins : Phrase.Joins phrase kind tighter) :
    (Symbol.expression phrase).slack = 1 ∧ (Symbol.expression tighter).slack = 1 := by
  cases hjoins <;> exact ⟨rfl, rfl⟩

theorem Phrase.Joins.startsExpression_of_starts {phrase tighter : Phrase} {kind kind' : TokenKind}
    (hjoins : Phrase.Joins phrase kind tighter)
    (h : (Symbol.expression tighter).starts kind') : Symbol.startsExpression kind' := by
  cases hjoins <;> exact h

namespace Derives

variable {s : Symbol} {h : Nat} {ts : List Terminal} {v : s.Value}

theorem genuine (hd : Derives s h ts v) : ∀ t ∈ ts, t.Genuine := by
  induction hd with
  | number hne hdigits => simpa using Terminal.Genuine.number hne hdigits
  | string hquote htext => simpa using Terminal.Genuine.string hquote htext
  | identifier hid => simpa using Terminal.Genuine.identifier hid
  | _ =>
      simp_all [or_imp, Terminal.Genuine.punctuator, Terminal.Genuine.keyword,
        Terminal.Genuine.assignment, Terminal.Genuine.connective, Terminal.Genuine.prefixed]

/-- Every level but that of an assignment has a terminal of its own. -/
theorem height_add_slack_le (hd : Derives s h ts v) : h + s.slack ≤ ts.length := by
  induction hd with
  | operand hjoins he ih =>
      rw [hjoins.slack_eq.2] at ih
      rw [hjoins.slack_eq.1]
      exact ih
  | joined connective hjoins hleft hright ihleft ihright =>
      rw [hjoins.slack_eq.1] at ihleft
      rw [hjoins.slack_eq.2] at ihright
      rw [hjoins.slack_eq.1, List.length_append, List.length_cons]
      omega
  | _ =>
      simp only [Symbol.slack, List.length_append, List.length_cons, List.length_nil] at *
      omega

theorem height_le (hd : Derives s h ts v) : h ≤ ts.length :=
  Nat.le_trans (Nat.le_add_right _ _) hd.height_add_slack_le

theorem begins (hd : Derives s h ts v) (hs : s.nullable = false) : Begins s.starts ts := by
  induction hd with
  | simple he ih | bare he ih | uncalled he ih => exact ih rfl
  | assigned operator htarget hvalue ihtarget => exact (ihtarget rfl).append
  | operand hjoins he ih =>
      have hbegins := ih rfl
      cases hjoins <;> exact hbegins
  | joined connective hjoins hleft hright ihleft => exact (ihleft rfl).append
  | unprefixed he ih =>
      exact (ih rfl).mono fun kind hkind => Bool.or_eq_true_iff.mpr (.inr hkind)
  | prefixed operator => cases operator <;> exact .cons rfl
  | call hcallee harguments ihcallee => exact (ihcallee rfl).append
  | dotted hobject hid ihobject => exact (ihobject rfl).append
  | computed hobject hproperty ihobject => exact (ihobject rfl).append
  | named hid ih =>
      refine (ih rfl).mono fun kind hkind => ?_
      rw [eq_of_beq hkind]
      rfl
  | declaration hid hinit ihid => exact (ihid rfl).append
  | forExpression he ih =>
      exact (ih rfl).mono fun kind hkind => Bool.or_eq_true_iff.mpr (.inr hkind)
  | blockStatement hbody ih =>
      refine (ih rfl).mono fun kind hkind => ?_
      rw [eq_of_beq hkind]
      rfl
  | expressionStatement he ih =>
      exact ((ih rfl).mono fun _ => Symbol.startsStatement_of_startsExpression).append
  | single hv ih => exact ih hs
  | more hv hvs ihv => exact (ihv hs).append
  | absent | present | nil | cons => cases hs
  | _ => exact .cons rfl

end Derives

/-- Behind every operator that multiplies or divides there begins an operand. -/
def OperandsFollow : List Terminal → Prop
  | [] => True
  | t :: ts =>
    (t.kind = .multiplicativeOperator → Begins Symbol.startsExpression ts) ∧ OperandsFollow ts

namespace OperandsFollow

variable {t : Terminal} {ts ts' : List Terminal}

theorem cons (ht : t.kind ≠ .multiplicativeOperator) (h : OperandsFollow ts) :
    OperandsFollow (t :: ts) :=
  ⟨fun hkind => absurd hkind ht, h⟩

theorem append (h : OperandsFollow ts) (h' : OperandsFollow ts') : OperandsFollow (ts ++ ts') := by
  induction ts with
  | nil => exact h'
  | cons t ts ih => exact ⟨fun hkind => (h.1 hkind).append, ih h.2⟩

end OperandsFollow

theorem Derives.operandsFollow {s : Symbol} {h : Nat} {ts : List Terminal} {v : s.Value}
    (hd : Derives s h ts v) : OperandsFollow ts := by
  induction hd with
  | assigned operator htarget hvalue ihtarget ihvalue =>
      exact ihtarget.append (ihvalue.cons (by cases operator <;> nofun))
  | joined connective hjoins hleft hright ihleft ihright =>
      refine ihleft.append ⟨fun _ => ?_, ihright⟩
      exact (hright.begins rfl).mono fun kind hkind => hjoins.startsExpression_of_starts hkind
  | prefixed operator hargument ih => exact ih.cons (by cases operator <;> nofun)
  | initializer he ih => exact ih.cons nofun
  | _ =>
      grind [OperandsFollow, OperandsFollow.append, Punctuator.terminal, Keyword.terminal,
        Identifier.terminal, Terminal.ofDigits, Terminal.quoted]

end Letter
