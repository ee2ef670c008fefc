import Letter.Proofs.Tree.WellFormed
import Letter.Token.Basic

namespace Letter

def Punctuator.terminal (p : Punctuator) : Terminal := ⟨p, p.spelling⟩

def Keyword.terminal (k : Keyword) : Terminal := ⟨k, k.spelling⟩

def Identifier.terminal (id : Identifier) : Terminal := ⟨.identifier, id.name⟩

/-- The kind of token as which an operator between two operands is read. -/
def Connective.kind : Connective → TokenKind
  | binary .add | binary .subtract => .additiveOperator
  | binary .multiply | binary .divide => .multiplicativeOperator
  | binary .greater | binary .greaterOrEqual | binary .less | binary .lessOrEqual =>
    .relationalOperator
  | binary .equal | binary .notEqual => .equalityOperator
  | logical .and => .logicalAnd
  | logical .or => .logicalOr

def Connective.terminal (c : Connective) : Terminal := ⟨c.kind, c.spelling⟩

def AssignmentOperator.kind : AssignmentOperator → TokenKind
  | assign => .simpleAssign
  | addAssign | subtractAssign | multiplyAssign | divideAssign => .complexAssign

def AssignmentOperator.terminal (o : AssignmentOperator) : Terminal := ⟨o.kind, o.spelling⟩

def UnaryOperator.kind : UnaryOperator → TokenKind
  | plus | minus => .additiveOperator
  | not => .logicalNot

def UnaryOperator.terminal (o : UnaryOperator) : Terminal := ⟨o.kind, o.spelling⟩

namespace Terminal

def ofDigits (digits : List Char) : Terminal := ⟨.number, .ofList digits⟩

/-- A string literal: a text between two equal quotes. -/
def quoted (quote : Char) (text : List Char) : Terminal :=
  ⟨.string, .ofList (quote :: (text ++ [quote]))⟩

/-- Terminals as they occur in sources. Signs are both connectives and prefix operators. -/
inductive Genuine : Terminal → Prop
  | punctuator (p : Punctuator) : Genuine p.terminal
  | keyword (k : Keyword) : Genuine k.terminal
  | number {digits : List Char} (hne : digits ≠ []) (hdigits : ∀ c ∈ digits, c.isDigit) :
      Genuine (ofDigits digits)
  | identifier {id : Identifier} (hid : id.WellFormed) : Genuine id.terminal
  | string {quote : Char} {text : List Char} (hquote : quote = '"' ∨ quote = '\'')
      (htext : quote ∉ text) : Genuine (quoted quote text)
  | assignment (o : AssignmentOperator) : Genuine o.terminal
  | connective (c : Connective) : Genuine c.terminal
  | prefixed (o : UnaryOperator) : Genuine o.terminal

namespace Genuine

variable {t : Terminal}

theorem kind_ne_endOfInput (h : t.Genuine) : t.kind ≠ .endOfInput := by
  cases h with
  | assignment o | prefixed o => cases o <;> decide
  | connective c => rcases c with o | o <;> cases o <;> decide
  | _ => nofun

theorem form (h : t.Genuine) :
    match t.kind with
    | .punctuator p => t = p.terminal
    | .keyword k => t = k.terminal
    | .number => ∃ digits, digits ≠ [] ∧ (∀ c ∈ digits, c.isDigit) ∧ t = ofDigits digits
    | .identifier => ∃ id : Identifier, id.WellFormed ∧ t = id.terminal
    | .string => ∃ quote text, (quote = '"' ∨ quote = '\'') ∧ quote ∉ text ∧ t = quoted quote text
    | .simpleAssign | .complexAssign => ∃ o : AssignmentOperator, t = o.terminal
    | .additiveOperator =>
      (∃ c : Connective, t = c.terminal) ∧ ∃ o : UnaryOperator, t = o.terminal
    | .multiplicativeOperator | .relationalOperator | .equalityOperator | .logicalAnd
    | .logicalOr => ∃ c : Connective, t = c.terminal
    | .logicalNot => ∃ o : UnaryOperator, t = o.terminal
    | .endOfInput => False := by
  cases h with
  | punctuator p | keyword k => rfl
  | number hne hdigits => exact ⟨_, hne, hdigits, rfl⟩
  | identifier hid => exact ⟨_, hid, rfl⟩
  | string hquote htext => exact ⟨_, _, hquote, htext, rfl⟩
  | assignment o => cases o <;> exact ⟨_, rfl⟩
  | connective c =>
      rcases c with o | o <;> cases o
      case binary.add => exact ⟨⟨_, rfl⟩, .plus, rfl⟩
      case binary.subtract => exact ⟨⟨_, rfl⟩, .minus, rfl⟩
      all_goals exact ⟨_, rfl⟩
  | prefixed o =>
      cases o
      case plus => exact ⟨⟨.binary .add, rfl⟩, _, rfl⟩
      case minus => exact ⟨⟨.binary .subtract, rfl⟩, _, rfl⟩
      case not => exact ⟨_, rfl⟩

end Genuine

/-- Terminals as the rules make them. Where a text breaks off behind a word, what is taken for a
name can spell a keyword. -/
def Lexed (t : Terminal) : Prop :=
  t.Genuine ∨ t.kind = .identifier

namespace Lexed

variable {t : Terminal}

theorem genuine (h : t.Lexed) (hkind : t.kind ≠ .identifier) : t.Genuine :=
  h.resolve_right hkind

theorem kind_ne_endOfInput (h : t.Lexed) : t.kind ≠ .endOfInput := by
  rcases h with h | h
  · exact h.kind_ne_endOfInput
  · rw [h]
    nofun

end Lexed

/-- A terminal that is the only one of its kind. -/
structure Sole (t : Terminal) : Prop where
  genuine : t.Genuine
  eq_of_kind_eq : ∀ {t'}, t'.Genuine → t'.kind = t.kind → t' = t

end Terminal

theorem Punctuator.sole_terminal (p : Punctuator) : p.terminal.Sole where
  genuine := .punctuator p
  eq_of_kind_eq h hkind := by
    have hform := h.form
    rwa [hkind] at hform

theorem Keyword.sole_terminal (k : Keyword) : k.terminal.Sole where
  genuine := .keyword k
  eq_of_kind_eq h hkind := by
    have hform := h.form
    rwa [hkind] at hform

theorem AssignmentOperator.sole_terminal_assign : assign.terminal.Sole where
  genuine := .assignment _
  eq_of_kind_eq {t} h hkind := by
    have hform := h.form
    rw [hkind] at hform
    obtain ⟨o, rfl⟩ := hform
    cases o <;> first | rfl | cases hkind

end Letter
