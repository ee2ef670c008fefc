import Letter.Proofs.Grammar.Shape
import Letter.Proofs.Tree.Rebuild

namespace Letter

section WellFormed

@[simp] theorem Json.wellFormed_node (type : String) (fields : List (String × Json)) :
    (node type fields).WellFormed ↔ Json.FieldsWellFormed fields := by
  simp [node, Json.WellFormed, Json.FieldsWellFormed]

theorem Json.allWellFormed_map {α : Type} {toJson : α → Json} (h : ∀ a, (toJson a).WellFormed)
    (as : List α) : Json.AllWellFormed (as.map toJson) := by
  induction as with
  | nil => trivial
  | cons a as ih => exact ⟨h a, ih⟩

theorem Json.wellFormed_ofOption {α : Type} {toJson : α → Json} (h : ∀ a, (toJson a).WellFormed)
    (a? : Option α) : (ofOption toJson a?).WellFormed := by
  cases a? with
  | none => trivial
  | some a => exact h a

@[simp] theorem Identifier.wellFormed_toJson (id : Identifier) : id.toJson.WellFormed := by
  simp [Identifier.toJson, Json.FieldsWellFormed, Json.WellFormed]

mutual

@[simp] theorem Expression.wellFormed_toJson : ∀ e : Expression, e.toJson.WellFormed
  | .identifier _ | .number _ | .string _ | .boolean _ | .null | .this | .super => by
    simp [Expression.toJson, Json.FieldsWellFormed, Json.WellFormed, Double.wellFormed_toJson]
  | .assignment _ target value => by
    simp [Expression.toJson, Json.FieldsWellFormed, Json.WellFormed, target.wellFormed_toJson,
      value.wellFormed_toJson]
  | .binary _ left right | .logical _ left right => by
    simp [Expression.toJson, Json.FieldsWellFormed, Json.WellFormed, left.wellFormed_toJson,
      right.wellFormed_toJson]
  | .unary _ argument => by
    simp [Expression.toJson, Json.FieldsWellFormed, Json.WellFormed, argument.wellFormed_toJson]
  | .member _ object property => by
    simp [Expression.toJson, Json.FieldsWellFormed, Json.WellFormed, object.wellFormed_toJson,
      property.wellFormed_toJson]
  | .call callee arguments | .new callee arguments => by
    simp [Expression.toJson, Json.FieldsWellFormed, Json.WellFormed, callee.wellFormed_toJson,
      Expression.allWellFormed_listToJson arguments]

theorem AssignmentTarget.wellFormed_toJson : ∀ t : AssignmentTarget, t.toJson.WellFormed
  | .identifier id => id.wellFormed_toJson
  | .member _ object property => by
    simp [AssignmentTarget.toJson, Json.FieldsWellFormed, Json.WellFormed, object.wellFormed_toJson,
      property.wellFormed_toJson]

theorem Expression.allWellFormed_listToJson : ∀ es : List Expression,
    Json.AllWellFormed (Expression.listToJson es)
  | [] => trivial
  | e :: es => ⟨e.wellFormed_toJson, Expression.allWellFormed_listToJson es⟩

end

theorem VariableDeclaration.wellFormed_toJson (d : VariableDeclaration) :
    d.toJson.WellFormed := by
  simp [VariableDeclaration.toJson, Json.FieldsWellFormed,
    Json.wellFormed_ofOption Expression.wellFormed_toJson]

namespace Statement

@[simp] theorem wellFormed_variablesToJson (declarations : List VariableDeclaration) :
    (variablesToJson declarations).WellFormed := by
  simp [variablesToJson, Json.FieldsWellFormed, Json.WellFormed,
    Json.allWellFormed_map VariableDeclaration.wellFormed_toJson]

theorem wellFormed_forInitToJson (i : ForInit) : (forInitToJson i).WellFormed := by
  cases i <;> simp [forInitToJson]

theorem wellFormed_blockToJson {items : List Json} (h : Json.AllWellFormed items) :
    (blockToJson items).WellFormed := by
  simp [blockToJson, Json.FieldsWellFormed, Json.WellFormed, h]

mutual

theorem wellFormed_toJson : ∀ s : Statement, s.toJson.WellFormed
  | .expression _ | .empty | .variables _ => by simp [toJson, Json.FieldsWellFormed]
  | .block body => wellFormed_blockToJson (allWellFormed_listToJson body)
  | .conditional _ consequent alternate => by
    simp [toJson, Json.FieldsWellFormed, consequent.wellFormed_toJson,
      wellFormed_optionToJson alternate]
  | .whileLoop _ body | .doWhileLoop body _ => by
    simp [toJson, Json.FieldsWellFormed, body.wellFormed_toJson]
  | .forLoop _ _ _ body => by
    simp [toJson, Json.FieldsWellFormed, body.wellFormed_toJson,
      Json.wellFormed_ofOption wellFormed_forInitToJson,
      Json.wellFormed_ofOption Expression.wellFormed_toJson]
  | .functionDeclaration _ _ body => by
    simp [toJson, Json.FieldsWellFormed, Json.WellFormed,
      Json.allWellFormed_map Identifier.wellFormed_toJson,
      wellFormed_blockToJson (allWellFormed_listToJson body)]
  | .return_ _ => by
    simp [toJson, Json.FieldsWellFormed, Json.wellFormed_ofOption Expression.wellFormed_toJson]
  | .classDeclaration _ _ body => by
    simp [toJson, Json.FieldsWellFormed, Json.wellFormed_ofOption Identifier.wellFormed_toJson,
      wellFormed_blockToJson (allWellFormed_listToJson body)]

theorem wellFormed_optionToJson : ∀ s? : Option Statement, (optionToJson s?).WellFormed
  | none => trivial
  | some s => s.wellFormed_toJson

theorem allWellFormed_listToJson : ∀ ss : List Statement, Json.AllWellFormed (listToJson ss)
  | [] => trivial
  | s :: ss => ⟨s.wellFormed_toJson, allWellFormed_listToJson ss⟩

end

end Statement

theorem Program.wellFormed_toJson (p : Program) : p.toJson.WellFormed := by
  simp [Program.toJson, Json.FieldsWellFormed, Json.WellFormed,
    Statement.allWellFormed_listToJson p.body]

end WellFormed

namespace Program

/-- A program is rebuilt from its JSON text, with no sign of zero. -/
theorem ofJsonText?_render {p : Program} (hp : ∀ v ∈ p.numbers, v.Recoverable) :
    ofJsonText? p.toJson.render = some p.canonical := by
  rw [ofJsonText?, Json.read?_render p.wellFormed_toJson]
  change (Part.ofJson? p.toJson).bind Part.program? = some p.canonical
  rw [Part.ofJson?_program hp]
  rfl

theorem recoverable_of_parseWithin {p : Program} {limit : Nat} {source : String}
    (h : parseWithin limit source = .ok p) :
    ∀ v ∈ p.numbers, v.Recoverable ∧ v ≠ Double.negativeZero := by
  obtain ⟨height, -, hbody⟩ := derives_of_parseWithin_eq_ok h
  have hp : p.WellFormed := hbody.wellFormed
  intro v hv
  have hwhole := hp.isWhole v hv
  exact ⟨Double.recoverable_of_isWhole hwhole, Double.ne_negativeZero_of_isWhole hwhole⟩

theorem canonical_eq_self_of_not_mem {p : Program} (h : Double.negativeZero ∉ p.numbers) :
    p.canonical = p := by
  apply canonical_eq_self
  intro v hv
  apply Double.canonical_eq_self
  rintro rfl
  exact h hv

theorem ofJsonText?_of_parseWithin {p : Program} {limit : Nat} {source : String}
    (h : parseWithin limit source = .ok p) : ofJsonText? p.toJson.render = some p := by
  have hnumbers := recoverable_of_parseWithin h
  have hzero : Double.negativeZero ∉ p.numbers := fun hmem => (hnumbers _ hmem).2 rfl
  rw [ofJsonText?_render fun v hv => (hnumbers v hv).1, canonical_eq_self_of_not_mem hzero]

/-- Programs have the same text only if they are equal in all but the signs of zeros. -/
theorem render_eq_iff {p q : Program} (hp : ∀ v ∈ p.numbers, v.Recoverable)
    (hq : ∀ v ∈ q.numbers, v.Recoverable) :
    p.toJson.render = q.toJson.render ↔ p.canonical = q.canonical := by
  constructor
  · intro htext
    have hread := ofJsonText?_render hp
    rw [htext, ofJsonText?_render hq] at hread
    exact (Option.some.inj hread).symm
  · intro hcanonical
    rw [← p.toJson_canonical, hcanonical, q.toJson_canonical]

/-- The JSON text of a program is valid, the program is rebuilt from it, and two programs have the
same text only if they are equal. Negative zero, which is equal to zero, has the text of zero; it is
not among the numbers of a program that was read. -/
theorem json_lossless :
    (∀ {p q : Program}, (∀ v ∈ p.numbers, v.Recoverable) → (∀ v ∈ q.numbers, v.Recoverable) →
      Json.IsElement p.toJson.render.toList ∧ ofJsonText? p.toJson.render = some p.canonical ∧
        (p.toJson.render = q.toJson.render ↔ p.canonical = q.canonical) ∧
        (Double.negativeZero ∉ p.numbers ++ q.numbers → p.canonical = p ∧ q.canonical = q)) ∧
    ∀ {limit : Nat} {source : String} {p : Program}, parseWithin limit source = .ok p →
      ∀ v ∈ p.numbers, v.Recoverable ∧ v ≠ Double.negativeZero := by
  refine ⟨fun {p q} hp hq => ?_, recoverable_of_parseWithin⟩
  refine ⟨Json.isElement_render p.wellFormed_toJson, ofJsonText?_render hp, render_eq_iff hp hq, ?_⟩
  intro hzero
  rw [List.mem_append, not_or] at hzero
  exact ⟨canonical_eq_self_of_not_mem hzero.1, canonical_eq_self_of_not_mem hzero.2⟩

theorem json_lossless_of_infinity :
    let one : Expression := .number (.finite false ⟨0x3ff0000000000000, by decide⟩)
    let p : Program := ⟨[.expression (.call (.string "a\"\n") [.number (.infinite false), one])]⟩
    let q : Program := ⟨[.expression (.call (.string "a\"\n") [.null, one])]⟩
    (∀ v ∈ p.numbers, v.Recoverable) ∧ (∀ v ∈ q.numbers, v.Recoverable) ∧
      Double.negativeZero ∉ p.numbers ++ q.numbers ∧
      Json.IsElement p.toJson.render.toList ∧ ofJsonText? p.toJson.render = some p ∧
      p.toJson.render ≠ q.toJson.render ∧ parseWithin 2 "1;" = .ok ⟨[.expression one]⟩ ∧
      ∀ v ∈ numbers ⟨[.expression one]⟩, v.Recoverable ∧ v ≠ Double.negativeZero := by
  intro one p q
  have hp : ∀ v ∈ p.numbers, v.Recoverable := by
    simp [p, one, numbers, Statement.listNumbers, Statement.numbers, Expression.numbers,
      Expression.listNumbers, Double.Recoverable]
  have hq : ∀ v ∈ q.numbers, v.Recoverable := by
    simp [q, one, numbers, Statement.listNumbers, Statement.numbers, Expression.numbers,
      Expression.listNumbers, Double.Recoverable]
  have hzero : Double.negativeZero ∉ p.numbers ++ q.numbers := by
    simp [p, q, one, numbers, Statement.listNumbers, Statement.numbers, Expression.numbers,
      Expression.listNumbers, Double.negativeZero]
  have hne : p ≠ q := by simp [p, q]
  have hparse : parseWithin 2 "1;" = .ok ⟨[.expression one]⟩ := by decide +kernel
  obtain ⟨hvalid, hread, htexts, hcanonical⟩ := json_lossless.1 hp hq
  obtain ⟨hcanonicalp, hcanonicalq⟩ := hcanonical hzero
  rw [hcanonicalp] at hread htexts
  rw [hcanonicalq] at htexts
  exact ⟨hp, hq, hzero, hvalid, hread, htexts.not.mpr hne, hparse, json_lossless.2 hparse⟩

end Program

end Letter
