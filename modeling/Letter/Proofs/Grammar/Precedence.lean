import Letter.Proofs.Grammar.Concatenation
import Letter.Proofs.Grammar.Wrapping
import Letter.Proofs.Tree.Precedence

namespace Letter

/-- The text of an operand, and what it denotes. -/
structure Operand where
  text : String
  value : Expression

namespace Operand

def terminals (x : Operand) : List Terminal :=
  (Scan.ofSource x.text).terminals

/-- An operand without connectives of its own, other than between brackets, that is accepted as a
statement within a limit. -/
structure Within (limit : Nat) (x : Operand) : Prop where
  stuck?_eq_none : (Scan.ofSource x.text).stuck? = none
  derives : ∃ h, Derives (.expression .unary) h x.terminals x.value
  accepted : ∃ p, Program.parseWithin limit (x.text ++ "\n;") = .ok p

variable {limit : Nat} {x : Operand}

theorem Within.exists_derives (hx : x.Within limit) :
    ∃ h, h + 2 ≤ limit ∧ Derives (.expression .unary) h x.terminals x.value := by
  obtain ⟨hstuck, ⟨h, hd⟩, p, hp⟩ := hx
  have hvalue : Derives (.expression .assignment) (h + 1) x.terminals x.value :=
    hd.simple_of_ne_assignment nofun
  -- with enough levels for the derivation the statement is this expression
  have hwide : Program.parseWithin (limit + (h + 2)) (x.text ++ "\n;") =
      .ok ⟨[.expression x.value]⟩ :=
    Program.parseWithin_semicolon_iff.mpr
      ⟨hstuck, h + 1, Nat.lt_add_left limit (Nat.lt_succ_self _), hvalue⟩
  have hwide' := Program.parseWithin_eq_ok_of_le (Nat.le_add_right limit (h + 2)) hp
  obtain rfl := Except.ok.inj (hwide'.symm.trans hwide)
  obtain ⟨-, h', hlt, hvalue'⟩ := Program.parseWithin_semicolon_iff.mp hp
  obtain ⟨h'', hlt', hd''⟩ := hd.exists_unary_lt hvalue'
  exact ⟨h'', Nat.succ_le_of_lt (Nat.lt_of_le_of_lt hlt' hlt), hd''⟩

theorem Within.of_eq_ok (hstuck : (Scan.ofSource x.text).stuck? = none)
    (hok : Grammar.unary (.within limit limit) none x.terminals = .ok (x.value, []))
    (haccepted : (Program.parseWithin limit (x.text ++ "\n;")).isOk) : x.Within limit := by
  obtain ⟨h, read, -, hread, hd⟩ :=
    (Phrase.unary.reads_production limit limit).sound rfl (Scan.genuine_of_mem_terminals hstuck) hok
  rw [List.append_nil] at hread
  have hread : x.terminals = read := hread
  refine ⟨hstuck, ⟨h, hread ▸ hd⟩, ?_⟩
  cases hp : Program.parseWithin limit (x.text ++ "\n;") with
  | ok p => exact ⟨p, rfl⟩
  | error e =>
      rw [hp] at haccepted
      cases haccepted

end Operand

/-- The phrase of what binds from some precedence on. -/
def Phrase.ofPrecedence : Nat → Phrase
  | 0 => .logicalOr
  | 1 => .logicalAnd
  | 2 => .equality
  | 3 => .relational
  | 4 => .additive
  | 5 => .multiplicative
  | _ => .unary

theorem Connective.joins_ofPrecedence (connective : Connective) :
    Phrase.Joins (.ofPrecedence connective.precedence) connective.kind
      (.ofPrecedence (connective.precedence + 1)) := by
  rcases connective with o | o <;> cases o <;> constructor

theorem Connective.join_eq (connective : Connective) (left right : Expression) :
    (connective.spelling ∈ ["&&", "||"] ∧ ∃ o : LogicalOperator,
      o.spelling = connective.spelling ∧ connective.join left right = .logical o left right) ∨
    (connective.spelling ∉ ["&&", "||"] ∧ ∃ o : BinaryOperator,
      o.spelling = connective.spelling ∧ connective.join left right = .binary o left right) := by
  cases connective with
  | logical o => exact .inl ⟨by cases o <;> decide, o, rfl, rfl⟩
  | binary o => exact .inr ⟨by cases o <;> decide, o, rfl, rfl⟩

theorem Derives.loosen {bound bound' h : Nat} {ts : List Terminal} {e : Expression}
    (hle : bound ≤ bound') (hd : Derives (.expression (.ofPrecedence bound')) h ts e) :
    Derives (.expression (.ofPrecedence bound)) h ts e := by
  induction hle with
  | refl => exact hd
  | @step bound' _ ih =>
      refine ih ?_
      match bound', hd with
      | 0, hd | 1, hd | 2, hd | 3, hd | 4, hd | 5, hd => exact hd.looser nofun
      | _ + 6, hd => exact hd

namespace Row

def operands {α : Type} (row : Row α) : List α :=
  row.first :: row.others.map (·.2)

theorem operands_join {α : Type} (connective : Connective) (left right : Row α) :
    (left.join connective right).operands = left.operands ++ right.operands := by
  simp [operands, join]

def terminals (row : Row Operand) : List Terminal :=
  row.first.terminals ++
    row.others.flatMap fun (connective, x) => connective.terminal :: x.terminals

theorem terminals_join (connective : Connective) (left right : Row Operand) :
    (left.join connective right).terminals =
      left.terminals ++ connective.terminal :: right.terminals := by
  simp [terminals, join]

/-- The operands and connectives of a row and a semicolon, each in a line of its own. -/
def lines (row : Row Operand) : List String :=
  row.first.text ::
    (row.others.flatMap fun (connective, x) => [connective.spelling, x.text]) ++ [";"]

def text (row : Row Operand) : String :=
  "\n".intercalate row.lines

end Row

namespace Scan

theorem ofSource_lines {lines : List String} (hlines : ∀ line ∈ lines,
      (ofSource line).stuck? = none ∧ Terminal.Uncommented (ofSource line).terminals) :
    (ofSource ("\n".intercalate lines)).stuck? = none ∧
      (ofSource ("\n".intercalate lines)).terminals =
        lines.flatMap fun line => (ofSource line).terminals := by
  induction lines with
  | nil => exact ⟨rfl, rfl⟩
  | cons line lines ih =>
      obtain ⟨⟨hstuck, hopen⟩, hlines⟩ := List.forall_mem_cons.mp hlines
      obtain ⟨hstuck', hterminals⟩ := ih hlines
      by_cases hempty : lines = []
      · subst hempty
        simp [hstuck]
      · rw [String.intercalate_cons_of_ne_nil hempty]
        obtain ⟨htokens, hnext, -⟩ := ofSource_append_newline hstuck hopen ("\n".intercalate lines)
        refine ⟨hnext.trans hstuck', ?_⟩
        rw [List.flatMap_cons, ← hterminals, terminals, htokens, List.map_append, List.map_map]
        rfl

theorem ofSource_connective (connective : Connective) :
    (ofSource connective.spelling).stuck? = none ∧
      (ofSource connective.spelling).terminals = [connective.terminal] := by
  rcases connective with o | o <;> cases o <;> decide +kernel

theorem ofSource_semicolon : (ofSource ";").stuck? = none ∧
    (ofSource ";").terminals = [Punctuator.semicolon.terminal] := by
  decide +kernel

end Scan

theorem Operand.Within.uncommented {limit : Nat} {x : Operand} (hx : x.Within limit) :
    Terminal.Uncommented (Scan.ofSource x.text).terminals := by
  obtain ⟨h, hd⟩ := hx.derives
  exact hd.operandsFollow.uncommented

namespace Row

variable {limit : Nat} {row : Row Operand} (hrow : ∀ x ∈ row.operands, x.Within limit)

include hrow

theorem uncommented_of_mem_lines : ∀ line ∈ row.lines, (Scan.ofSource line).stuck? = none ∧
    Terminal.Uncommented (Scan.ofSource line).terminals := by
  have hoperand {x : Operand} (hx : x.Within limit) := And.intro hx.stuck?_eq_none hx.uncommented
  have hsign {sign : String} {t : Terminal} (h : (Scan.ofSource sign).stuck? = none ∧
      (Scan.ofSource sign).terminals = [t]) : (Scan.ofSource sign).stuck? = none ∧
        Terminal.Uncommented (Scan.ofSource sign).terminals :=
    ⟨h.1, h.2 ▸ .singleton t⟩
  obtain ⟨hfirst, hothers⟩ := List.forall_mem_cons.mp hrow
  intro line hline
  rcases List.mem_append.mp hline with hline | hline
  · rcases List.mem_cons.mp hline with rfl | hline
    · exact hoperand hfirst
    · obtain ⟨⟨connective, x⟩, hmem, hline⟩ := List.mem_flatMap.mp hline
      rcases List.mem_pair.mp hline with rfl | rfl
      · exact hsign (Scan.ofSource_connective connective)
      · exact hoperand (hothers x (List.mem_map_of_mem hmem))
  · obtain rfl := List.mem_singleton.mp hline
    exact hsign Scan.ofSource_semicolon

theorem ofSource_text : (Scan.ofSource row.text).stuck? = none ∧
    (Scan.ofSource row.text).terminals = row.terminals ++ [Punctuator.semicolon.terminal] := by
  obtain ⟨hstuck, hterminals⟩ := Scan.ofSource_lines (uncommented_of_mem_lines hrow)
  refine ⟨hstuck, hterminals.trans ?_⟩
  simp [lines, terminals, Operand.terminals, List.flatMap_assoc, Scan.ofSource_semicolon.2,
    (Scan.ofSource_connective _).2]

end Row

namespace Grouping

/-- What a tree of operands denotes. -/
def toExpression : Grouping Operand → Expression
  | operand x => x.value
  | node connective left right => connective.join left.toExpression right.toExpression

/-- A tree that is grouped is derived as it stands, with the levels of its operands. -/
theorem exists_derives {limit bound : Nat} {t : Grouping Operand} (ht : t.Grouped)
    (hbound : t.BindsFrom bound) (hoperands : ∀ x ∈ t.row.operands, x.Within limit) :
    ∃ h, h + 2 ≤ limit ∧
      Derives (.expression (.ofPrecedence bound)) h t.row.terminals t.toExpression := by
  induction t generalizing bound with
  | operand x =>
      obtain ⟨h, hle, hd⟩ := (hoperands x List.mem_cons_self).exists_derives
      have hunary : Derives (.expression (.ofPrecedence (bound + 6))) h x.terminals x.value := hd
      refine ⟨h, hle, ?_⟩
      rw [row, Row.terminals, List.flatMap_nil, List.append_nil]
      exact hunary.loosen (Nat.le_add_right bound 6)
  | node connective left right ihleft ihright =>
      obtain ⟨⟨hleft, hleft'⟩, hright, hright'⟩ := ht
      rw [row, Row.operands_join, List.forall_mem_append] at hoperands
      obtain ⟨h, hle, hd⟩ := ihleft hleft hleft' hoperands.1
      obtain ⟨h', hle', hd'⟩ := ihright hright hright' hoperands.2
      have hnode := Derives.joined connective connective.joins_ofPrecedence hd hd'
      rw [← Row.terminals_join] at hnode
      exact ⟨max h h', by omega, hnode.loosen hbound⟩

end Grouping

namespace Program

/-- A row of operands is read as the one tree that has them in this order and is grouped by the
precedence of the connectives, which is the tree that a climb along the row comes to. It is read
within every limit within which each of the operands is. -/
theorem parseWithin_row {limit : Nat} {row : Row Operand}
    (hrow : ∀ x ∈ row.operands, x.Within limit) :
    (∃ tree : Grouping Operand, tree.row = row ∧ tree.Grouped ∧
      (∀ tree', tree'.row = row → tree'.Grouped → tree' = tree) ∧ row.grouping = tree ∧
      parseWithin limit row.text = .ok ⟨[.expression tree.toExpression]⟩) ∧
    ∀ (connective : Connective) (left right : Expression),
      (connective.spelling ∈ ["&&", "||"] ∧ ∃ o : LogicalOperator,
        o.spelling = connective.spelling ∧ connective.join left right = .logical o left right) ∨
      (connective.spelling ∉ ["&&", "||"] ∧ ∃ o : BinaryOperator,
        o.spelling = connective.spelling ∧ connective.join left right = .binary o left right) := by
  obtain ⟨htree, hgrouped⟩ := Row.grouping_eq_iff.mp (Eq.refl row.grouping)
  refine ⟨⟨row.grouping, htree, hgrouped, fun tree' htree' hgrouped' => ?_, rfl, ?_⟩,
    Connective.join_eq⟩
  · exact (Row.grouping_eq_iff.mpr ⟨htree', hgrouped'⟩).symm
  · obtain ⟨hstuck, hterminals⟩ := Row.ofSource_text hrow
    obtain ⟨h, hle, hd⟩ := Grouping.exists_derives hgrouped (Grouping.bindsFrom_zero _)
      (by rwa [htree])
    rw [htree] at hd
    rw [parseWithin_eq_ok_iff_exists, hterminals]
    exact ⟨hstuck, Derives.exists_expression_iff.mpr ⟨h + 1, hle, .simple hd⟩⟩

/-- The row `-a || (b && c) == d() - 1 - 2`, with a comment that begins like another operand. -/
theorem parseWithin_row_of_differences :
    let negated : Operand := ⟨"-a", .unary .minus (.identifier ⟨"a"⟩)⟩
    let conjunction : Operand :=
      ⟨"(b && c)", .logical .and (.identifier ⟨"b"⟩) (.identifier ⟨"c"⟩)⟩
    let call : Operand := ⟨"d() // -", .call (.identifier ⟨"d"⟩) []⟩
    let one : Operand := ⟨"1", .number (.ofNat 1)⟩
    let two : Operand := ⟨"2", .number (.ofNat 2)⟩
    let row : Row Operand := ⟨negated, [(.logical .or, conjunction), (.binary .equal, call),
      (.binary .subtract, one), (.binary .subtract, two)]⟩
    (∀ x ∈ row.operands, x.Within 3) ∧
      parseWithin 3 "-a\n||\n(b && c)\n==\nd() // -\n-\n1\n-\n2\n;" =
        .ok ⟨[.expression (.logical .or negated.value (.binary .equal conjunction.value
          (.binary .subtract (.binary .subtract call.value one.value) two.value)))]⟩ := by
  intro negated conjunction call one two row
  have hrow : ∀ x ∈ row.operands, x.Within 3 := by
    simp only [Row.operands, row, List.map_cons, List.map_nil, List.forall_mem_cons]
    refine ⟨?_, ?_, ?_, ?_, ?_, nofun⟩
    all_goals exact .of_eq_ok (by decide +kernel) (by decide +kernel) (by decide +kernel)
  obtain ⟨⟨tree, htree, hgrouped, hunique, -, hparse⟩, -⟩ := parseWithin_row hrow
  obtain rfl := hunique (.node (.logical .or) (.operand negated) (.node (.binary .equal)
    (.operand conjunction) (.node (.binary .subtract)
      (.node (.binary .subtract) (.operand call) (.operand one)) (.operand two)))) rfl
    (by simp [Grouping.Grouped, Grouping.BindsFrom, Connective.precedence])
  have htext : row.text = "-a\n||\n(b && c)\n==\nd() // -\n-\n1\n-\n2\n;" := by decide +kernel
  exact ⟨hrow, htext ▸ hparse⟩

end Program

end Letter
