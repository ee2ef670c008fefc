import Letter.Proofs.Grammar.Printing
import Letter.Proofs.Tree.Height
import Mathlib.Logic.Function.Iterate

/-!
What the limit on nesting says of the height of a program. Each level is good for eight nodes of a
path, chains apart: there is no level in another operator, member or call behind what is already
there, so a chain may be as high as its source is long.
-/

namespace Letter

/-- How many nodes high a phrase may be beyond the eight for each of its levels. -/
def Phrase.surplus : Phrase → Nat
  | assignment | primary => 1
  | member | leftHandSide | unary => 2
  | multiplicative => 3
  | additive => 4
  | relational => 5
  | equality => 6
  | logicalAnd => 7
  | logicalOr => 8

def Symbol.surplus : Symbol → Nat
  | expression phrase => phrase.surplus
  | identifier | arguments | initializer | superclass | block | statement => 1
  | declaration => 2
  | forInit => 3
  | optional s | many s | commaSeparated s => s.surplus

/-- The height of what a nonterminal denotes, with no step along a chain counted. -/
def Symbol.height : (s : Symbol) → s.Value → Nat
  | .expression _, e | .initializer, e => Expression.heightBy 0 e
  | .identifier, _ | .superclass, _ => 1
  | .arguments, es => Expression.listHeightBy 0 es
  | .declaration, d => VariableDeclaration.heightBy 0 d
  | .forInit, i => ForInit.heightBy 0 i
  | .block, body => Statement.listHeightBy 0 body
  | .statement, s => Statement.heightBy 0 s
  | .optional s, v? => Option.elim v? 0 s.height
  | .many s, vs | .commaSeparated s, vs => highest s.height vs

theorem Phrase.Joins.surplus_eq {phrase tighter : Phrase} {kind : TokenKind}
    (h : Joins phrase kind tighter) : phrase.surplus = tighter.surplus + 1 := by
  cases h <;> rfl

theorem Phrase.Joins.ne_assignment {phrase tighter : Phrase} {kind : TokenKind}
    (h : Joins phrase kind tighter) : phrase ≠ .assignment ∧ tighter ≠ .assignment := by
  cases h <;> exact ⟨nofun, nofun⟩

theorem Connective.heightBy_join (link : Nat) (connective : Connective) (left right : Expression) :
    (connective.join left right).heightBy link =
      max (left.heightBy link + link) (right.heightBy link + 1) := by
  cases connective <;> rfl

theorem AssignmentTarget.heightBy_toExpression (link : Nat) (target : AssignmentTarget) :
    target.toExpression.heightBy link = target.heightBy link := by
  cases target <;> rfl

theorem Symbol.listHeightBy_getD_le {items? : Option (List Expression)} {bound : Nat}
    (h : (Symbol.optional (.commaSeparated (.expression .assignment))).height items? ≤ bound) :
    Expression.listHeightBy 0 (items?.getD []) ≤ bound := by
  cases items? with
  | none => exact Nat.zero_le _
  | some items =>
      rw [Option.getD_some, Expression.listHeightBy_eq]
      exact h

/-- A level of a derivation makes for at most eight nodes on a path, chains apart. -/
theorem Derives.height_le_levels {s : Symbol} {h : Nat} {ts : List Terminal} {v : s.Value}
    (hv : Derives s h ts v) : s.height v ≤ 8 * h + s.surplus := by
  induction hv with
  /- What has no parts, or none that is counted -/
  | number | string | true_ | false_ | null | this | super | identifier => exact Nat.le_refl _
  | empty | named | absent | nil =>
      simp only [Symbol.height, Symbol.surplus, Phrase.surplus, Expression.heightBy,
        Statement.heightBy, Option.elim, highest]
      omega
  /- What has one part -/
  | simple _ ih | unprefixed _ ih | uncalled _ ih | bare _ ih | prefixed _ _ ih | parenthesized _ ih
  | initializer _ ih | superclass _ ih | forExpression _ ih | blockStatement _ ih
  | expressionStatement _ ih | functionDeclaration _ _ _ _ _ ih | classDeclaration _ _ _ _ _ ih
  | present _ ih | single _ ih =>
      simp only [Symbol.height, Symbol.surplus, Phrase.surplus, Expression.heightBy,
        ForInit.heightBy, Statement.heightBy, Option.elim, highest] at ih ⊢
      omega
  | operand hjoins _ ih =>
      simp only [Symbol.height, Symbol.surplus, hjoins.surplus_eq] at ih ⊢
      omega
  | arguments _ ih => exact Symbol.listHeightBy_getD_le ih
  | block _ ih => exact Nat.le_trans (Nat.le_of_eq (Statement.listHeightBy_eq 0 _)) ih
  | @forVariables h _ declarations _ ih | @«variables» h _ declarations _ ih =>
      have hdeclarations : highest (VariableDeclaration.heightBy 0) declarations ≤ 8 * h + 2 := ih
      simp only [Symbol.height, Symbol.surplus, ForInit.heightBy, Statement.heightBy]
      omega
  | @returnStatement h _ argument _ ih =>
      have hargument : Expression.optionHeightBy 0 argument ≤ 8 * h + 1 := ih
      simp only [Symbol.height, Symbol.surplus, Statement.heightBy]
      omega
  /- What has more parts, of which all but the first of a chain are one node further down -/
  | joined _ hjoins _ _ ih ih' =>
      simp only [Symbol.height, Symbol.surplus, hjoins.surplus_eq,
        Connective.heightBy_join] at ih ih' ⊢
      omega
  | assigned _ _ _ ih ih' | call _ _ ih ih' | new _ _ ih ih' | dotted _ _ ih ih'
  | computed _ _ ih ih' | conditional _ _ ih ih' | whileLoop _ _ ih ih' | doWhileLoop _ _ ih ih'
  | cons _ _ ih ih' | more _ _ ih ih' =>
      simp only [Symbol.height, Symbol.surplus, Phrase.surplus, Expression.heightBy,
        AssignmentTarget.heightBy_toExpression, Statement.heightBy, Statement.optionHeightBy,
        highest] at ih ih' ⊢
      omega
  | @declaration _ h' _ _ _ init _ _ _ ih =>
      have hinit : Expression.optionHeightBy 0 init ≤ 8 * h' + 1 := ih
      simp only [Symbol.height, Symbol.surplus, VariableDeclaration.heightBy]
      omega
  | conditionalElse _ _ _ _ ihtest ihconsequent ihalternate =>
      simp only [Symbol.height, Symbol.surplus, Phrase.surplus, Statement.heightBy,
        Statement.optionHeightBy] at ihtest ihconsequent ihalternate ⊢
      omega
  | @forLoop h₁ h₂ h₃ _ _ _ _ _ init test update _ _ _ _ _ ihinit ihtest ihupdate ihbody =>
      have hinit : Option.elim (α := ForInit) init 0 (ForInit.heightBy 0) ≤ 8 * h₁ + 3 := ihinit
      have htest : Expression.optionHeightBy 0 test ≤ 8 * h₂ + 1 := ihtest
      have hupdate : Expression.optionHeightBy 0 update ≤ 8 * h₃ + 1 := ihupdate
      simp only [Symbol.height, Symbol.surplus, Statement.heightBy] at ihbody ⊢
      omega

namespace Derives

variable {phrase : Phrase} {h : Nat} {ts : List Terminal} {e : Expression}

theorem looser (he : Derives (.expression phrase) h ts e)
    (hphrase : phrase.looser ≠ .assignment) : Derives (.expression phrase.looser) h ts e := by
  cases phrase with
  | primary => exact .bare he
  | member => exact .uncalled he
  | leftHandSide => exact .unprefixed he
  | unary => exact .operand .multiplicative he
  | multiplicative => exact .operand .additive he
  | additive => exact .operand .relational he
  | relational => exact .operand .equality he
  | equality => exact .operand .logicalAnd he
  | logicalAnd => exact .operand .logicalOr he
  | logicalOr | assignment => exact absurd rfl hphrase

theorem iterate_looser (he : Derives (.expression phrase) h ts e) (n : Nat)
    (hphrase : Phrase.looser^[n] phrase ≠ .assignment) :
    Derives (.expression (Phrase.looser^[n] phrase)) h ts e := by
  induction n with
  | zero => exact he
  | succ n ih =>
      rw [Function.iterate_succ_apply'] at hphrase ⊢
      refine (ih fun heq => hphrase ?_).looser hphrase
      rw [heq]
      rfl

theorem simple_of_ne_assignment (he : Derives (.expression phrase) h ts e)
    (hphrase : phrase ≠ .assignment) : Derives (.expression .assignment) (h + 1) ts e := by
  obtain ⟨n, hn⟩ : ∃ n, Phrase.looser^[n] phrase = .logicalOr := by
    cases phrase with
    | primary => exact ⟨9, rfl⟩
    | member => exact ⟨8, rfl⟩
    | leftHandSide => exact ⟨7, rfl⟩
    | unary => exact ⟨6, rfl⟩
    | multiplicative => exact ⟨5, rfl⟩
    | additive => exact ⟨4, rfl⟩
    | relational => exact ⟨3, rfl⟩
    | equality => exact ⟨2, rfl⟩
    | logicalAnd => exact ⟨1, rfl⟩
    | logicalOr => exact ⟨0, rfl⟩
    | assignment => exact absurd rfl hphrase
  have hlogicalOr := he.iterate_looser n (by rw [hn]; nofun)
  rw [hn] at hlogicalOr
  exact .simple hlogicalOr

end Derives

namespace Program

variable {limit : Nat} {source : String} {p : Program}

/-- The limit bounds the nodes on a path, chains apart. -/
theorem heightBy_zero_le_of_parseWithin_eq_ok (h : parseWithin limit source = .ok p) :
    p.heightBy 0 ≤ 8 * limit + 2 := by
  obtain ⟨height, hle, hbody⟩ := derives_of_parseWithin_eq_ok h
  have hheight : highest (Statement.heightBy 0) p.body ≤ 8 * height + 1 := hbody.height_le_levels
  rw [heightBy, Statement.listHeightBy_eq]
  omega

theorem heightBy_zero_le_of_members :
    let e : Expression := .member false (.member false (.member false (.member false
      (.member false (.identifier ⟨"a"⟩) (.identifier ⟨"b"⟩)) (.identifier ⟨"c"⟩))
      (.identifier ⟨"d"⟩)) (.identifier ⟨"e"⟩)) (.identifier ⟨"f"⟩)
    let p : Program := ⟨[.expression e]⟩
    parseWithin 2 "a.b.c.d.e.f;" = .ok p ∧ p.height = 8 ∧ p.heightBy 0 = 4 ∧
      p.heightBy 0 ≤ 8 * 2 + 2 := by
  intro e p
  have hparse : parseWithin 2 "a.b.c.d.e.f;" = .ok p := by decide +kernel
  exact ⟨hparse, rfl, rfl, heightBy_zero_le_of_parseWithin_eq_ok hparse⟩

end Program

/-- The phrase that a connective makes of its operands. -/
def Connective.phrase (connective : Connective) : Phrase :=
  match connective.kind with
  | .logicalOr => .logicalOr
  | .logicalAnd => .logicalAnd
  | .equalityOperator => .equality
  | .relationalOperator => .relational
  | .additiveOperator => .additive
  | _ => .multiplicative

theorem Connective.exists_joins (connective : Connective) :
    ∃ tighter, Phrase.Joins connective.phrase connective.kind tighter := by
  rcases connective with o | o <;> cases o <;> exact ⟨_, by constructor⟩

/-- The ways to build on an expression without opening a level. -/
inductive Chain where
  /-- Members of members. -/
  | members
  /-- Calls of calls. -/
  | calls
  /-- Operands joined to what is joined already. -/
  | operands (connective : Connective)

namespace Chain

open Grammar

def x : Identifier := ⟨"x"⟩

def phrase : Chain → Phrase
  | members => .member
  | calls => .leftHandSide
  | operands connective => connective.phrase

/-- What stands behind an expression that is built on. -/
def behind : Chain → List Terminal
  | members => [Punctuator.dot.terminal, x.terminal]
  | calls => [Punctuator.leftParen.terminal, Punctuator.rightParen.terminal]
  | operands connective => [connective.terminal, x.terminal]

def link : Chain → Expression → Expression
  | members, e => .member false e (.identifier x)
  | calls, e => .call e []
  | operands connective, e => connective.join e (.identifier x)

variable (chain : Chain)

theorem phrase_ne_assignment : chain.phrase ≠ .assignment := by
  cases chain with
  | members | calls => nofun
  | operands connective =>
      obtain ⟨tighter, hjoins⟩ := connective.exists_joins
      exact hjoins.ne_assignment.1

theorem derives_x {phrase : Phrase} (hphrase : phrase ≠ .assignment) :
    Derives (.expression phrase) 0 [x.terminal] (.identifier x) := by
  have hx : Derives (.expression .primary) 0 [x.terminal] (.identifier x) :=
    .named (.identifier wellFormed_x)
  obtain ⟨n, rfl⟩ := phrase.exists_iterate_looser
  exact hx.iterate_looser n hphrase

theorem derives_link {ts : List Terminal} {e : Expression}
    (he : Derives (.expression chain.phrase) 0 ts e) :
    Derives (.expression chain.phrase) 0 (ts ++ chain.behind) (chain.link e) := by
  cases chain with
  | members => exact .dotted he (.identifier wellFormed_x)
  | calls => exact .call he (.arguments .absent)
  | operands connective =>
      obtain ⟨tighter, hjoins⟩ := connective.exists_joins
      exact .joined connective hjoins he (derives_x hjoins.ne_assignment.2)

theorem heightBy_lt_link (e : Expression) : e.heightBy 1 < (chain.link e).heightBy 1 := by
  cases chain with
  | members | calls =>
      rw [link, Expression.heightBy]
      omega
  | operands connective =>
      rw [link, Connective.heightBy_join]
      omega

variable (n : Nat)

def terminals : List Terminal :=
  x.terminal :: (List.replicate n chain.behind).flatten

def expression : Expression :=
  chain.link^[n] (.identifier x)

theorem derives_expression :
    Derives (.expression chain.phrase) 0 (chain.terminals n) (chain.expression n) := by
  induction n with
  | zero => exact derives_x chain.phrase_ne_assignment
  | succ n ih =>
      have hlink := chain.derives_link ih
      rw [expression, Function.iterate_succ_apply', terminals, List.replicate_succ',
        List.flatten_append, List.flatten_singleton]
      exact hlink

theorem lt_heightBy_expression : n < (chain.expression n).heightBy 1 := by
  induction n with
  | zero => exact Nat.one_pos
  | succ n ih =>
      have hhigher := chain.heightBy_lt_link (chain.expression n)
      rw [expression, Function.iterate_succ_apply']
      exact Nat.lt_of_le_of_lt ih hhigher

def program : Program :=
  ⟨[.expression (chain.expression n)]⟩

/-- A chain in a source of its own. -/
def source : String :=
  .ofList (Terminal.spaced (chain.terminals n ++ [Punctuator.semicolon.terminal]))

theorem parseWithin_source {limit : Nat} (hlimit : 2 ≤ limit) :
    Program.parseWithin limit (chain.source n) = .ok (chain.program n) := by
  have hexpression : Derives (.expression .assignment) 1 (chain.terminals n) (chain.expression n) :=
    (chain.derives_expression n).simple_of_ne_assignment chain.phrase_ne_assignment
  have hbody : Derives (.many .statement) 2
      ((chain.terminals n ++ [Punctuator.semicolon.terminal]) ++ []) (chain.program n).body :=
    .cons (.expressionStatement hexpression) .nil
  rw [List.append_nil] at hbody
  exact Program.parseWithin_spaced hbody hlimit

theorem lt_height_program : n < (chain.program n).height := by
  have hexpression := chain.lt_heightBy_expression n
  simp only [program, Program.height, Program.heightBy, Statement.listHeightBy, Statement.heightBy]
  omega

end Chain

/-- No bound holds of the heights of all programs that are read within a limit of two levels. -/
theorem Program.not_height_bounded :
    ¬ ∀ limit, ∃ bound, ∀ source p, parseWithin limit source = .ok p → p.height ≤ bound := by
  intro h
  obtain ⟨bound, hbound⟩ := h 2
  have hle : (Chain.members.program bound).height ≤ bound :=
    hbound _ _ (Chain.members.parseWithin_source bound (Nat.le_refl 2))
  exact absurd (Chain.members.lt_height_program bound) (Nat.not_lt.mpr hle)

end Letter
