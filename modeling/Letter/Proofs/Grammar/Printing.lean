import Letter.Proofs.Grammar.Acceptance
import Letter.Proofs.Number.Whole

namespace Letter

namespace Terminal

def parenthesized (ts : List Terminal) : List Terminal :=
  Punctuator.leftParen.terminal :: (ts ++ [Punctuator.rightParen.terminal])

def commaSeparated : List (List Terminal) → List Terminal
  | [] => []
  | [ts] => ts
  | ts :: ts' :: others => ts ++ Punctuator.comma.terminal :: commaSeparated (ts' :: others)

/-- A property in brackets, or behind a dot. -/
def access (computed : Bool) (object property : List Terminal) : List Terminal :=
  parenthesized object ++
    if computed then
      Punctuator.leftBracket.terminal :: (property ++ [Punctuator.rightBracket.terminal])
    else Punctuator.dot.terminal :: property

end Terminal

/-- Double quotes, unless there are some in the text between them. -/
def Expression.quoteOf (value : String) : Char :=
  if '"' ∈ value.toList then '\'' else '"'

mutual

def Expression.terminals : Expression → List Terminal
  | .identifier id => [id.terminal]
  | .number value => [.ofDigits value.wholeDigits]
  | .string value => [.quoted (Expression.quoteOf value) value.toList]
  | .boolean true => [Keyword.true_.terminal]
  | .boolean false => [Keyword.false_.terminal]
  | .null => [Keyword.null_.terminal]
  | .this => [Keyword.this_.terminal]
  | .super => [Keyword.super_.terminal]
  | .assignment operator target value =>
    Terminal.parenthesized target.terminals ++ operator.terminal :: value.terminals
  | .binary operator left right =>
    Terminal.parenthesized left.terminals ++
      (Connective.binary operator).terminal :: Terminal.parenthesized right.terminals
  | .logical operator left right =>
    Terminal.parenthesized left.terminals ++
      (Connective.logical operator).terminal :: Terminal.parenthesized right.terminals
  | .unary operator argument => operator.terminal :: Terminal.parenthesized argument.terminals
  | .member computed object property =>
    Terminal.access computed object.terminals property.terminals
  | .call callee arguments =>
    Terminal.parenthesized callee.terminals ++
      Terminal.parenthesized (Terminal.commaSeparated (Expression.listTerminals arguments))
  | .new callee arguments =>
    Keyword.new_.terminal :: (Terminal.parenthesized callee.terminals ++
      Terminal.parenthesized (Terminal.commaSeparated (Expression.listTerminals arguments)))

def AssignmentTarget.terminals : AssignmentTarget → List Terminal
  | .identifier id => [id.terminal]
  | .member computed object property =>
    Terminal.access computed object.terminals property.terminals

def Expression.listTerminals : List Expression → List (List Terminal)
  | [] => []
  | e :: es => e.terminals :: Expression.listTerminals es

end

def VariableDeclaration.terminals (declaration : VariableDeclaration) : List Terminal :=
  [declaration.id.terminal] ++
    declaration.init.elim [] fun e => AssignmentOperator.assign.terminal :: e.terminals

def VariableDeclaration.listTerminals (declarations : List VariableDeclaration) : List Terminal :=
  Terminal.commaSeparated (declarations.map VariableDeclaration.terminals)

def ForInit.terminals : ForInit → List Terminal
  | .variables declarations =>
    Keyword.let_.terminal :: VariableDeclaration.listTerminals declarations
  | .expression e => e.terminals

mutual

def Statement.terminals : Statement → List Terminal
  | .expression e => e.terminals ++ [Punctuator.semicolon.terminal]
  | .block body =>
    Punctuator.leftBrace.terminal ::
      (Statement.listTerminals body ++ [Punctuator.rightBrace.terminal])
  | .empty => [Punctuator.semicolon.terminal]
  | .variables declarations =>
    Keyword.let_.terminal ::
      (VariableDeclaration.listTerminals declarations ++ [Punctuator.semicolon.terminal])
  | .conditional test consequent none =>
    Keyword.if_.terminal :: Punctuator.leftParen.terminal ::
      (test.terminals ++ Punctuator.rightParen.terminal :: consequent.terminals)
  | .conditional test consequent (some alternate) =>
    Keyword.if_.terminal :: Punctuator.leftParen.terminal ::
      (test.terminals ++ Punctuator.rightParen.terminal ::
        (consequent.terminals ++ Keyword.else_.terminal :: alternate.terminals))
  | .whileLoop test body =>
    Keyword.while_.terminal :: Punctuator.leftParen.terminal ::
      (test.terminals ++ Punctuator.rightParen.terminal :: body.terminals)
  | .doWhileLoop body test =>
    Keyword.do_.terminal :: (body.terminals ++
      Keyword.while_.terminal :: Punctuator.leftParen.terminal ::
        (test.terminals ++ [Punctuator.rightParen.terminal, Punctuator.semicolon.terminal]))
  | .forLoop init test update body =>
    Keyword.for_.terminal :: Punctuator.leftParen.terminal ::
      (init.elim [] ForInit.terminals ++ Punctuator.semicolon.terminal ::
        (test.elim [] Expression.terminals ++ Punctuator.semicolon.terminal ::
          (update.elim [] Expression.terminals ++
            Punctuator.rightParen.terminal :: body.terminals)))
  | .functionDeclaration name parameters body =>
    Keyword.def_.terminal :: ([name.terminal] ++ Punctuator.leftParen.terminal ::
      (Terminal.commaSeparated (parameters.map fun id => [id.terminal]) ++
        Punctuator.rightParen.terminal :: Punctuator.leftBrace.terminal ::
          (Statement.listTerminals body ++ [Punctuator.rightBrace.terminal])))
  | .return_ argument =>
    Keyword.return_.terminal ::
      (argument.elim [] Expression.terminals ++ [Punctuator.semicolon.terminal])
  | .classDeclaration id superclass body =>
    Keyword.class_.terminal :: ([id.terminal] ++
      (superclass.elim [] (fun id => [Keyword.extends_.terminal, id.terminal]) ++
        Punctuator.leftBrace.terminal ::
          (Statement.listTerminals body ++ [Punctuator.rightBrace.terminal])))

def Statement.listTerminals : List Statement → List Terminal
  | [] => []
  | s :: ss => s.terminals ++ Statement.listTerminals ss

end

def Program.terminals (p : Program) : List Terminal :=
  Statement.listTerminals p.body

def Program.print (p : Program) : String :=
  .ofList (Terminal.spaced p.terminals)

/-- What the sentences of a nonterminal denote, however deeply they nest. -/
def Symbol.Denotes (s : Symbol) (ts : List Terminal) (v : s.Value) : Prop :=
  ∃ h, Derives s h ts v

/-- The nonterminal that stands above another in the hierarchy of expressions. -/
def Phrase.looser : Phrase → Phrase
  | primary => member
  | member => leftHandSide
  | leftHandSide => unary
  | unary => multiplicative
  | multiplicative => additive
  | additive => relational
  | relational => equality
  | equality => logicalAnd
  | logicalAnd => logicalOr
  | logicalOr | assignment => assignment

theorem Phrase.exists_iterate_looser (phrase : Phrase) : ∃ n, looser^[n] primary = phrase := by
  cases phrase with
  | primary => exact ⟨0, rfl⟩
  | member => exact ⟨1, rfl⟩
  | leftHandSide => exact ⟨2, rfl⟩
  | unary => exact ⟨3, rfl⟩
  | multiplicative => exact ⟨4, rfl⟩
  | additive => exact ⟨5, rfl⟩
  | relational => exact ⟨6, rfl⟩
  | equality => exact ⟨7, rfl⟩
  | logicalAnd => exact ⟨8, rfl⟩
  | logicalOr => exact ⟨9, rfl⟩
  | assignment => exact ⟨10, rfl⟩

namespace Symbol.Denotes

variable {s : Symbol} {phrase : Phrase} {ts ts' : List Terminal} {e left right : Expression}

theorem looser (he : Denotes (.expression phrase) ts e) :
    Denotes (.expression phrase.looser) ts e := by
  obtain ⟨h, hd⟩ := he
  cases phrase with
  | primary => exact ⟨h, .bare hd⟩
  | member => exact ⟨h, .uncalled hd⟩
  | leftHandSide => exact ⟨h, .unprefixed hd⟩
  | unary => exact ⟨h, .operand .multiplicative hd⟩
  | multiplicative => exact ⟨h, .operand .additive hd⟩
  | additive => exact ⟨h, .operand .relational hd⟩
  | relational => exact ⟨h, .operand .equality hd⟩
  | equality => exact ⟨h, .operand .logicalAnd hd⟩
  | logicalAnd => exact ⟨h, .operand .logicalOr hd⟩
  | logicalOr => exact ⟨h + 1, .simple hd⟩
  | assignment => exact ⟨h, hd⟩

theorem iterate_looser (he : Denotes (.expression phrase) ts e) (n : Nat) :
    Denotes (.expression (Phrase.looser^[n] phrase)) ts e := by
  induction n generalizing phrase with
  | zero => exact he
  | succ n ih => exact ih he.looser

theorem assignment (he : Denotes (.expression phrase) ts e) :
    Denotes (.expression .assignment) ts e := by
  have hloosest : Phrase.looser^[10] phrase = .assignment := by cases phrase <;> rfl
  exact hloosest ▸ he.iterate_looser 10

theorem of_primary (he : Denotes (.expression .primary) ts e) (phrase : Phrase) :
    Denotes (.expression phrase) ts e := by
  obtain ⟨n, rfl⟩ := phrase.exists_iterate_looser
  exact he.iterate_looser n

theorem parenthesized (he : Denotes (.expression .assignment) ts e) (phrase : Phrase) :
    Denotes (.expression phrase) (Terminal.parenthesized ts) e := by
  obtain ⟨h, hd⟩ := he
  exact of_primary ⟨h, .parenthesized hd⟩ phrase

theorem join (connective : Connective) (hleft : Denotes (.expression .assignment) ts left)
    (hright : Denotes (.expression .assignment) ts' right) :
    Denotes (.expression .assignment)
      (Terminal.parenthesized ts ++ connective.terminal :: Terminal.parenthesized ts')
      (connective.join left right) := by
  obtain ⟨phrase, tighter, hjoins⟩ :
      ∃ phrase tighter, Phrase.Joins phrase connective.kind tighter := by
    rcases connective with operator | operator <;> cases operator <;> exact ⟨_, _, by constructor⟩
  obtain ⟨h, hd⟩ := hleft.parenthesized phrase
  obtain ⟨h', hd'⟩ := hright.parenthesized tighter
  exact assignment ⟨_, .joined connective hjoins hd hd'⟩

theorem optional {f : s.Value → List Terminal} {v? : Option s.Value}
    (hv : ∀ v ∈ v?, s.Denotes (f v) v) : (Symbol.optional s).Denotes (v?.elim [] f) v? := by
  cases v? with
  | none => exact ⟨0, .absent⟩
  | some v =>
      obtain ⟨h, hd⟩ := hv v rfl
      exact ⟨h, .present hd⟩

theorem commaSeparated {f : s.Value → List Terminal} {vs : List s.Value} (hne : vs ≠ [])
    (hvs : ∀ v ∈ vs, s.Denotes (f v) v) :
    (Symbol.commaSeparated s).Denotes (Terminal.commaSeparated (vs.map f)) vs := by
  induction vs with
  | nil => exact absurd rfl hne
  | cons v vs ih =>
      obtain ⟨h, hd⟩ := hvs v List.mem_cons_self
      cases vs with
      | nil => exact ⟨h, .single hd⟩
      | cons v' vs =>
          obtain ⟨h', hd'⟩ := ih (List.cons_ne_nil _ _)
            fun w hw => hvs w (List.mem_cons_of_mem _ hw)
          exact ⟨max h h', .more hd hd'⟩

theorem items {f : s.Value → List Terminal} {vs : List s.Value}
    (hvs : ∀ v ∈ vs, s.Denotes (f v) v) :
    ∃ vs? : Option (List s.Value), vs?.getD [] = vs ∧
      (Symbol.optional (.commaSeparated s)).Denotes (Terminal.commaSeparated (vs.map f)) vs? := by
  by_cases hne : vs = []
  · subst hne
    exact ⟨none, rfl, 0, .absent⟩
  · obtain ⟨h, hd⟩ := commaSeparated hne hvs
    exact ⟨some vs, rfl, h, .present hd⟩

end Symbol.Denotes

theorem Expression.notMem_quoteOf {value : String}
    (h : ¬('"' ∈ value.toList ∧ '\'' ∈ value.toList)) : quoteOf value ∉ value.toList := by
  unfold quoteOf
  split
  · rename_i hdouble
    exact fun hsingle => h ⟨hdouble, hsingle⟩
  · assumption

theorem Expression.listTerminals_eq_map (es : List Expression) :
    Expression.listTerminals es = es.map Expression.terminals := by
  induction es with
  | nil => rfl
  | cons e es ih => rw [Expression.listTerminals, ih, List.map_cons]

theorem Identifier.denotes_terminal {id : Identifier} (h : id.WellFormed) :
    Symbol.Denotes .identifier [id.terminal] id :=
  ⟨0, .identifier h⟩

theorem Expression.denotes_access {computed : Bool} {object property : Expression}
    (hproperty : property.WellFormed)
    (hname : computed = false → ∃ id, property = .identifier id)
    (hobject' : Symbol.Denotes (.expression .assignment) object.terminals object)
    (hproperty' : Symbol.Denotes (.expression .assignment) property.terminals property) :
    Symbol.Denotes (.expression .assignment)
      (Terminal.access computed object.terminals property.terminals)
      (.member computed object property) := by
  obtain ⟨h, hd⟩ := hobject'.parenthesized .member
  cases computed with
  | false =>
      obtain ⟨id, rfl⟩ := hname rfl
      exact Symbol.Denotes.assignment ⟨_, .dotted hd (.identifier hproperty)⟩
  | true =>
      obtain ⟨h', hd'⟩ := hproperty'
      exact Symbol.Denotes.assignment ⟨_, .computed hd hd'⟩

theorem Expression.denotes_arguments {es : List Expression}
    (h : ∀ e ∈ es, Symbol.Denotes (.expression .assignment) e.terminals e) :
    Symbol.Denotes .arguments
      (Terminal.parenthesized (Terminal.commaSeparated (Expression.listTerminals es))) es := by
  rw [Expression.listTerminals_eq_map]
  obtain ⟨items?, rfl, height, hitems⟩ :=
    Symbol.Denotes.items (s := .expression .assignment) (f := Expression.terminals) h
  exact ⟨height, .arguments hitems⟩

mutual

theorem Expression.denotes_terminals : ∀ e : Expression, e.WellFormed →
    Symbol.Denotes (.expression .assignment) e.terminals e
  | .identifier _, he => Symbol.Denotes.of_primary ⟨0, .named (.identifier he)⟩ _
  | .number value, he => by
    have hd := Derives.number value.wholeDigits_ne_nil
      fun _ hc => Double.isDigit_of_mem_wholeDigits hc
    rw [Double.ofNat_decimalValue_wholeDigits he] at hd
    exact Symbol.Denotes.of_primary ⟨0, hd⟩ _
  | .string value, he => by
    have hquote : Expression.quoteOf value = '"' ∨ Expression.quoteOf value = '\'' := by
      unfold Expression.quoteOf
      split <;> simp
    have hd := Derives.string hquote (Expression.notMem_quoteOf he)
    rw [String.ofList_toList] at hd
    exact Symbol.Denotes.of_primary ⟨0, hd⟩ _
  | .boolean true, _ => Symbol.Denotes.of_primary ⟨0, .true_⟩ _
  | .boolean false, _ => Symbol.Denotes.of_primary ⟨0, .false_⟩ _
  | .null, _ => Symbol.Denotes.of_primary ⟨0, .null⟩ _
  | .this, _ => Symbol.Denotes.of_primary ⟨0, .this⟩ _
  | .super, _ => Symbol.Denotes.of_primary ⟨0, .super⟩ _
  | .assignment operator target value, ⟨htarget, hvalue⟩ => by
    obtain ⟨h, hd⟩ := (target.denotes_terminals htarget).parenthesized .logicalOr
    obtain ⟨h', hd'⟩ := value.denotes_terminals hvalue
    exact ⟨_, .assigned operator hd hd'⟩
  | .binary operator left right, ⟨hleft, hright⟩ =>
    .join (.binary operator) (left.denotes_terminals hleft) (right.denotes_terminals hright)
  | .logical operator left right, ⟨hleft, hright⟩ =>
    .join (.logical operator) (left.denotes_terminals hleft) (right.denotes_terminals hright)
  | .unary operator argument, hargument => by
    obtain ⟨h, hd⟩ := (argument.denotes_terminals hargument).parenthesized .unary
    exact Symbol.Denotes.assignment ⟨_, .prefixed operator hd⟩
  | .member _ object property, ⟨hobject, hproperty, hname⟩ =>
    Expression.denotes_access hproperty hname (object.denotes_terminals hobject)
      (property.denotes_terminals hproperty)
  | .call callee arguments, ⟨hcallee, harguments⟩ => by
    obtain ⟨h, hd⟩ := (callee.denotes_terminals hcallee).parenthesized .leftHandSide
    obtain ⟨h', hd'⟩ :=
      Expression.denotes_arguments (Expression.denotes_listTerminals arguments harguments)
    exact Symbol.Denotes.assignment ⟨_, .call hd hd'⟩
  | .new callee arguments, ⟨hcallee, harguments⟩ => by
    obtain ⟨h, hd⟩ := (callee.denotes_terminals hcallee).parenthesized .member
    obtain ⟨h', hd'⟩ :=
      Expression.denotes_arguments (Expression.denotes_listTerminals arguments harguments)
    exact Symbol.Denotes.of_primary ⟨_, .new hd hd'⟩ _

theorem AssignmentTarget.denotes_terminals : ∀ target : AssignmentTarget, target.WellFormed →
    Symbol.Denotes (.expression .assignment) target.terminals target.toExpression
  | .identifier _, hid => Symbol.Denotes.of_primary ⟨0, .named (.identifier hid)⟩ _
  | .member _ object property, ⟨hobject, hproperty, hname⟩ =>
    Expression.denotes_access hproperty hname (object.denotes_terminals hobject)
      (property.denotes_terminals hproperty)

theorem Expression.denotes_listTerminals : ∀ es : List Expression, Expression.AllWellFormed es →
    ∀ e ∈ es, Symbol.Denotes (.expression .assignment) e.terminals e
  | [], _ => nofun
  | e :: es, ⟨he, hes⟩ => List.forall_mem_cons.mpr
    ⟨e.denotes_terminals he, Expression.denotes_listTerminals es hes⟩

end

theorem Expression.denotes_optional {e? : Option Expression} (h : ∀ e ∈ e?, e.WellFormed) :
    Symbol.Denotes (.optional (.expression .assignment)) (e?.elim [] Expression.terminals) e? :=
  Symbol.Denotes.optional (s := .expression .assignment) fun e he => e.denotes_terminals (h e he)

theorem VariableDeclaration.denotes_terminals {declaration : VariableDeclaration}
    (h : declaration.WellFormed) :
    Symbol.Denotes .declaration declaration.terminals declaration := by
  obtain ⟨id, init⟩ := declaration
  obtain ⟨hid, hinit⟩ := h
  have hinitializer : Symbol.Denotes (.optional .initializer)
      (init.elim [] fun e => AssignmentOperator.assign.terminal :: e.terminals) init := by
    refine Symbol.Denotes.optional (s := .initializer) fun e he => ?_
    obtain ⟨height, hd⟩ := e.denotes_terminals (hinit e he)
    exact ⟨height, .initializer hd⟩
  obtain ⟨height, hd⟩ := hinitializer
  exact ⟨_, .declaration (.identifier hid) hd⟩

theorem VariableDeclaration.denotes_listTerminals {declarations : List VariableDeclaration}
    (hne : declarations ≠ []) (h : ∀ d ∈ declarations, d.WellFormed) :
    Symbol.Denotes (.commaSeparated .declaration)
      (VariableDeclaration.listTerminals declarations) declarations :=
  Symbol.Denotes.commaSeparated (s := .declaration) hne fun d hd =>
    VariableDeclaration.denotes_terminals (h d hd)

theorem ForInit.denotes_terminals {init : ForInit} (h : init.WellFormed) :
    Symbol.Denotes .forInit init.terminals init := by
  cases init with
  | «variables» declarations =>
      obtain ⟨height, hd⟩ := VariableDeclaration.denotes_listTerminals h.1 h.2
      exact ⟨height, .forVariables hd⟩
  | expression e =>
      obtain ⟨height, hd⟩ := e.denotes_terminals h
      exact ⟨height, .forExpression hd⟩

mutual

theorem Statement.denotes_terminals : ∀ s : Statement, s.WellFormed →
    Symbol.Denotes .statement s.terminals s
  | .expression e, he => by
    obtain ⟨h, hd⟩ := e.denotes_terminals he
    exact ⟨h + 1, .expressionStatement hd⟩
  | .block body, hbody => by
    obtain ⟨h, hd⟩ := Statement.denotes_listTerminals body hbody
    exact ⟨h + 1, .blockStatement (.block hd)⟩
  | .empty, _ => ⟨1, .empty⟩
  | .variables declarations, ⟨hne, hdeclarations⟩ => by
    obtain ⟨h, hd⟩ := VariableDeclaration.denotes_listTerminals hne hdeclarations
    exact ⟨h + 1, .variables hd⟩
  | .conditional test consequent none, ⟨htest, hconsequent⟩ => by
    obtain ⟨h, hd⟩ := test.denotes_terminals htest
    obtain ⟨h', hd'⟩ := consequent.denotes_terminals hconsequent
    exact ⟨_, .conditional hd hd'⟩
  | .conditional test consequent (some alternate),
      ⟨htest, hconsequent, hclosed, halternate⟩ => by
    obtain ⟨h, hd⟩ := test.denotes_terminals htest
    obtain ⟨h', hd'⟩ := consequent.denotes_terminals hconsequent
    obtain ⟨h'', hd''⟩ := alternate.denotes_terminals halternate
    exact ⟨_, .conditionalElse hd hd' hclosed hd''⟩
  | .whileLoop test body, ⟨htest, hbody⟩ => by
    obtain ⟨h, hd⟩ := test.denotes_terminals htest
    obtain ⟨h', hd'⟩ := body.denotes_terminals hbody
    exact ⟨_, .whileLoop hd hd'⟩
  | .doWhileLoop body test, ⟨htest, hbody⟩ => by
    obtain ⟨h, hd⟩ := body.denotes_terminals hbody
    obtain ⟨h', hd'⟩ := test.denotes_terminals htest
    exact ⟨_, .doWhileLoop hd hd'⟩
  | .forLoop init test update body, ⟨hinit, htest, hupdate, hbody⟩ => by
    obtain ⟨h₁, hd₁⟩ := Symbol.Denotes.optional (s := .forInit) (f := ForInit.terminals)
      fun i hi => ForInit.denotes_terminals (hinit i hi)
    obtain ⟨h₂, hd₂⟩ := Expression.denotes_optional htest
    obtain ⟨h₃, hd₃⟩ := Expression.denotes_optional hupdate
    obtain ⟨h₄, hd₄⟩ := body.denotes_terminals hbody
    exact ⟨_, .forLoop hd₁ hd₂ hd₃ hd₄⟩
  | .functionDeclaration name parameters body, ⟨hname, hparameters, hbody⟩ => by
    obtain ⟨parameters?, rfl, h, hd⟩ := Symbol.Denotes.items (s := .identifier)
      (f := fun id : Identifier => [id.terminal])
      fun id hid => Identifier.denotes_terminal (hparameters id hid)
    obtain ⟨h', hd'⟩ := Statement.denotes_listTerminals body hbody
    exact ⟨_, .functionDeclaration (.identifier hname) hd (.block hd')⟩
  | .return_ argument, hargument => by
    obtain ⟨h, hd⟩ := Expression.denotes_optional hargument
    exact ⟨h + 1, .returnStatement hd⟩
  | .classDeclaration id superclass body, ⟨hid, hsuperclass, hbody⟩ => by
    obtain ⟨h, hd⟩ := Symbol.Denotes.optional (s := .superclass)
      (f := fun id : Identifier => [Keyword.extends_.terminal, id.terminal])
      fun id hid => ⟨0, .superclass (.identifier (hsuperclass id hid))⟩
    obtain ⟨h', hd'⟩ := Statement.denotes_listTerminals body hbody
    exact ⟨_, .classDeclaration (.identifier hid) hd (.block hd')⟩

theorem Statement.denotes_listTerminals : ∀ ss : List Statement, Statement.AllWellFormed ss →
    Symbol.Denotes (.many .statement) (Statement.listTerminals ss) ss
  | [], _ => ⟨0, .nil⟩
  | s :: ss, ⟨hs, hss⟩ => by
    obtain ⟨h, hd⟩ := s.denotes_terminals hs
    obtain ⟨h', hd'⟩ := Statement.denotes_listTerminals ss hss
    exact ⟨max h h', .cons hd hd'⟩

end

namespace Program

variable {limit : Nat} {p : Program}

/-- What is printed of a well-formed program is read as that program. A limit for which there is
a terminal in the text for every level is enough. -/
theorem parseWithin_print (hp : p.WellFormed) (hlimit : p.terminals.length ≤ limit) :
    parseWithin limit p.print = .ok p := by
  obtain ⟨height, hd⟩ :=
    Statement.denotes_listTerminals p.body (Statement.allWellFormed_iff.mpr hp)
  exact parseWithin_spaced hd (Nat.le_trans hd.height_le hlimit)

theorem parseWithin_print_dangling :
    let p : Program := ⟨[.conditional (.identifier ⟨"a"⟩) (.block [.conditional .this .empty none])
      (some (.expression (.unary .minus (.string "it's"))))]⟩
    p.WellFormed ∧ parseWithin 18 p.print = .ok p := by
  intro p
  have hid : Identifier.WellFormed ⟨"a"⟩ :=
    ⟨⟨'a', [], by decide, by decide, nofun⟩, fun k => by cases k <;> decide⟩
  have hstring : Expression.WellFormed (.string "it's") :=
    show ¬('"' ∈ "it's".toList ∧ '\'' ∈ "it's".toList) by decide
  have hp : p.WellFormed :=
    List.forall_mem_singleton.mpr ⟨hid, ⟨⟨trivial, trivial⟩, trivial⟩, rfl, hstring⟩
  exact ⟨hp, parseWithin_print hp (by decide)⟩

end Program

end Letter
