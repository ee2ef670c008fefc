import Letter.Proofs.Number.Recovery
import Letter.Proofs.Tree.WellFormed

namespace Letter

mutual

def Expression.numbers : Expression → List Double
  | .number value => [value]
  | .identifier _ | .string _ | .boolean _ | .null | .this | .super => []
  | .assignment _ target value => target.numbers ++ value.numbers
  | .binary _ left right | .logical _ left right => left.numbers ++ right.numbers
  | .unary _ argument => argument.numbers
  | .member _ object property => object.numbers ++ property.numbers
  | .call callee arguments | .new callee arguments =>
    callee.numbers ++ Expression.listNumbers arguments

def AssignmentTarget.numbers : AssignmentTarget → List Double
  | .identifier _ => []
  | .member _ object property => object.numbers ++ property.numbers

def Expression.listNumbers : List Expression → List Double
  | [] => []
  | e :: es => e.numbers ++ Expression.listNumbers es

end

mutual

def Expression.canonical : Expression → Expression
  | .identifier id => .identifier id
  | .number value => .number value.canonical
  | .string value => .string value
  | .boolean value => .boolean value
  | .null => .null
  | .assignment operator target value => .assignment operator target.canonical value.canonical
  | .binary operator left right => .binary operator left.canonical right.canonical
  | .logical operator left right => .logical operator left.canonical right.canonical
  | .unary operator argument => .unary operator argument.canonical
  | .member computed object property => .member computed object.canonical property.canonical
  | .call callee arguments => .call callee.canonical (Expression.listCanonical arguments)
  | .this => .this
  | .new callee arguments => .new callee.canonical (Expression.listCanonical arguments)
  | .super => .super

def AssignmentTarget.canonical : AssignmentTarget → AssignmentTarget
  | .identifier id => .identifier id
  | .member computed object property => .member computed object.canonical property.canonical

def Expression.listCanonical : List Expression → List Expression
  | [] => []
  | e :: es => e.canonical :: Expression.listCanonical es

end

namespace VariableDeclaration

def numbers (declaration : VariableDeclaration) : List Double :=
  (declaration.init.map Expression.numbers).getD []

def canonical (declaration : VariableDeclaration) : VariableDeclaration :=
  ⟨declaration.id, declaration.init.map Expression.canonical⟩

end VariableDeclaration

namespace ForInit

def numbers : ForInit → List Double
  | .variables declarations => declarations.flatMap VariableDeclaration.numbers
  | .expression e => e.numbers

def canonical : ForInit → ForInit
  | .variables declarations => .variables (declarations.map VariableDeclaration.canonical)
  | .expression e => .expression e.canonical

end ForInit

namespace Statement

mutual

def numbers : Statement → List Double
  | .expression e => e.numbers
  | .block body => listNumbers body
  | .empty => []
  | .variables declarations => declarations.flatMap VariableDeclaration.numbers
  | .conditional test consequent alternate =>
    test.numbers ++ consequent.numbers ++ optionNumbers alternate
  | .whileLoop test body | .doWhileLoop body test => test.numbers ++ body.numbers
  | .forLoop init test update body =>
    (init.map ForInit.numbers).getD [] ++ (test.map Expression.numbers).getD [] ++
      (update.map Expression.numbers).getD [] ++ body.numbers
  | .functionDeclaration _ _ body | .classDeclaration _ _ body => listNumbers body
  | .return_ argument => (argument.map Expression.numbers).getD []

def optionNumbers : Option Statement → List Double
  | none => []
  | some s => s.numbers

def listNumbers : List Statement → List Double
  | [] => []
  | s :: ss => s.numbers ++ listNumbers ss

end

mutual

def canonical : Statement → Statement
  | .expression e => .expression e.canonical
  | .block body => .block (listCanonical body)
  | .empty => .empty
  | .variables declarations => .variables (declarations.map VariableDeclaration.canonical)
  | .conditional test consequent alternate =>
    .conditional test.canonical consequent.canonical (optionCanonical alternate)
  | .whileLoop test body => .whileLoop test.canonical body.canonical
  | .doWhileLoop body test => .doWhileLoop body.canonical test.canonical
  | .forLoop init test update body =>
    .forLoop (init.map ForInit.canonical) (test.map Expression.canonical)
      (update.map Expression.canonical) body.canonical
  | .functionDeclaration name parameters body =>
    .functionDeclaration name parameters (listCanonical body)
  | .return_ argument => .return_ (argument.map Expression.canonical)
  | .classDeclaration id superclass body => .classDeclaration id superclass (listCanonical body)

def optionCanonical : Option Statement → Option Statement
  | none => none
  | some s => some s.canonical

def listCanonical : List Statement → List Statement
  | [] => []
  | s :: ss => s.canonical :: listCanonical ss

end

end Statement

namespace Program

def numbers (program : Program) : List Double :=
  Statement.listNumbers program.body

def canonical (program : Program) : Program :=
  ⟨Statement.listCanonical program.body⟩

end Program

section Canonical

@[simp] theorem Double.toJson_canonical (v : Double) : v.canonical.toJson = v.toJson := by
  cases v with
  | finite negative rank =>
      by_cases hzero : rank.val = 0
      · simp [canonical, toJson, toInt?_of_eq_zero, hzero]
      · simp [canonical, hzero]
  | infinite negative => rfl
  | nan => rfl

mutual

@[simp] theorem Expression.toJson_canonical : ∀ e : Expression, e.canonical.toJson = e.toJson
  | .identifier _ | .number _ | .string _ | .boolean _ | .null | .this | .super => by
    simp [Expression.canonical, Expression.toJson]
  | .assignment _ target value => by
    simp [Expression.canonical, Expression.toJson, target.toJson_canonical, value.toJson_canonical]
  | .binary _ left right | .logical _ left right => by
    simp [Expression.canonical, Expression.toJson, left.toJson_canonical, right.toJson_canonical]
  | .unary _ argument => by
    simp [Expression.canonical, Expression.toJson, argument.toJson_canonical]
  | .member _ object property => by
    simp [Expression.canonical, Expression.toJson, object.toJson_canonical,
      property.toJson_canonical]
  | .call callee arguments | .new callee arguments => by
    simp [Expression.canonical, Expression.toJson, callee.toJson_canonical,
      Expression.listToJson_canonical arguments]

theorem AssignmentTarget.toJson_canonical : ∀ t : AssignmentTarget, t.canonical.toJson = t.toJson
  | .identifier _ => by simp [AssignmentTarget.canonical, AssignmentTarget.toJson]
  | .member _ object property => by
    simp [AssignmentTarget.canonical, AssignmentTarget.toJson, object.toJson_canonical,
      property.toJson_canonical]

theorem Expression.listToJson_canonical : ∀ es : List Expression,
    Expression.listToJson (Expression.listCanonical es) = Expression.listToJson es
  | [] => by simp [Expression.listCanonical]
  | e :: es => by
    simp [Expression.listCanonical, Expression.listToJson, e.toJson_canonical,
      Expression.listToJson_canonical es]

end

theorem Json.ofOption_map {α : Type} {toJson : α → Json} {f : α → α}
    (h : ∀ a, toJson (f a) = toJson a) (a? : Option α) :
    ofOption toJson (a?.map f) = ofOption toJson a? := by
  cases a? with
  | none => rfl
  | some a => exact h a

@[simp] theorem VariableDeclaration.toJson_canonical (d : VariableDeclaration) :
    d.canonical.toJson = d.toJson := by
  simp only [toJson, canonical, Json.ofOption_map Expression.toJson_canonical]

namespace Statement

@[simp] theorem variablesToJson_canonical (declarations : List VariableDeclaration) :
    variablesToJson (declarations.map VariableDeclaration.canonical) =
      variablesToJson declarations := by
  simp [variablesToJson, Function.comp_def]

@[simp] theorem forInitToJson_canonical (i : ForInit) :
    forInitToJson i.canonical = forInitToJson i := by
  cases i <;> simp [forInitToJson, ForInit.canonical]

mutual

theorem toJson_canonical : ∀ s : Statement, s.canonical.toJson = s.toJson
  | .expression _ | .empty | .variables _ => by simp [canonical, toJson]
  | .block body => by simp [canonical, toJson, listToJson_canonical body]
  | .conditional _ consequent alternate => by
    simp [canonical, toJson, consequent.toJson_canonical, optionToJson_canonical alternate]
  | .whileLoop _ body | .doWhileLoop body _ => by
    simp [canonical, toJson, body.toJson_canonical]
  | .forLoop _ _ _ body => by
    simp [canonical, toJson, body.toJson_canonical, Json.ofOption_map]
  | .functionDeclaration _ _ body | .classDeclaration _ _ body => by
    simp [canonical, toJson, listToJson_canonical body]
  | .return_ _ => by simp [canonical, toJson, Json.ofOption_map]

theorem optionToJson_canonical : ∀ s? : Option Statement,
    optionToJson (optionCanonical s?) = optionToJson s?
  | none => by simp [optionCanonical]
  | some s => by simp [optionCanonical, optionToJson, s.toJson_canonical]

theorem listToJson_canonical : ∀ ss : List Statement, listToJson (listCanonical ss) = listToJson ss
  | [] => by simp [listCanonical]
  | s :: ss => by
    simp [listCanonical, listToJson, s.toJson_canonical, listToJson_canonical ss]

end

end Statement

theorem Program.toJson_canonical (p : Program) : p.canonical.toJson = p.toJson := by
  simp [canonical, toJson, Statement.listToJson_canonical]

end Canonical

section Unsigned

mutual

theorem Expression.canonical_eq_self : ∀ e : Expression, (∀ v ∈ e.numbers, v.canonical = v) →
    e.canonical = e
  | .number v, h => congrArg Expression.number (h v List.mem_cons_self)
  | .identifier _, _ | .string _, _ | .boolean _, _ | .null, _ | .this, _ | .super, _ => by
    rw [Expression.canonical]
  | .assignment _ target value, h => by
    simp only [Expression.numbers, List.forall_mem_append] at h
    rw [Expression.canonical, target.canonical_eq_self h.1, value.canonical_eq_self h.2]
  | .binary _ left right, h | .logical _ left right, h => by
    simp only [Expression.numbers, List.forall_mem_append] at h
    rw [Expression.canonical, left.canonical_eq_self h.1, right.canonical_eq_self h.2]
  | .unary _ argument, h => by
    rw [Expression.canonical, argument.canonical_eq_self h]
  | .member _ object property, h => by
    simp only [Expression.numbers, List.forall_mem_append] at h
    rw [Expression.canonical, object.canonical_eq_self h.1, property.canonical_eq_self h.2]
  | .call callee arguments, h | .new callee arguments, h => by
    simp only [Expression.numbers, List.forall_mem_append] at h
    rw [Expression.canonical, callee.canonical_eq_self h.1,
      Expression.listCanonical_eq_self arguments h.2]

theorem AssignmentTarget.canonical_eq_self : ∀ t : AssignmentTarget,
    (∀ v ∈ t.numbers, v.canonical = v) → t.canonical = t
  | .identifier _, _ => by rw [AssignmentTarget.canonical]
  | .member _ object property, h => by
    simp only [AssignmentTarget.numbers, List.forall_mem_append] at h
    rw [AssignmentTarget.canonical, object.canonical_eq_self h.1, property.canonical_eq_self h.2]

theorem Expression.listCanonical_eq_self : ∀ es : List Expression,
    (∀ v ∈ Expression.listNumbers es, v.canonical = v) → Expression.listCanonical es = es
  | [], _ => rfl
  | e :: es, h => by
    simp only [Expression.listNumbers, List.forall_mem_append] at h
    rw [Expression.listCanonical, e.canonical_eq_self h.1,
      Expression.listCanonical_eq_self es h.2]

end

theorem Expression.map_canonical_eq_self {e? : Option Expression}
    (h : ∀ v ∈ (e?.map Expression.numbers).getD [], v.canonical = v) :
    e?.map Expression.canonical = e? := by
  cases e? with
  | none => rfl
  | some e => exact congrArg some (e.canonical_eq_self h)

theorem VariableDeclaration.canonical_eq_self {d : VariableDeclaration}
    (h : ∀ v ∈ d.numbers, v.canonical = v) : d.canonical = d := by
  rw [canonical, Expression.map_canonical_eq_self h]

theorem VariableDeclaration.map_canonical_eq_self {declarations : List VariableDeclaration}
    (h : ∀ v ∈ declarations.flatMap VariableDeclaration.numbers, v.canonical = v) :
    declarations.map VariableDeclaration.canonical = declarations := by
  calc declarations.map VariableDeclaration.canonical
      = declarations.map fun d => d := by
        apply List.map_congr_left
        intro d hd
        exact canonical_eq_self fun v hv => h v (List.mem_flatMap.mpr ⟨d, hd, hv⟩)
    _ = declarations := List.map_id' declarations

theorem ForInit.map_canonical_eq_self {init? : Option ForInit}
    (h : ∀ v ∈ (init?.map ForInit.numbers).getD [], v.canonical = v) :
    init?.map ForInit.canonical = init? := by
  cases init? with
  | none => rfl
  | some init =>
      cases init with
      | «variables» declarations =>
          exact congrArg (some ∘ ForInit.variables) (VariableDeclaration.map_canonical_eq_self h)
      | expression e => exact congrArg (some ∘ ForInit.expression) (e.canonical_eq_self h)

namespace Statement

mutual

theorem canonical_eq_self : ∀ s : Statement, (∀ v ∈ s.numbers, v.canonical = v) → s.canonical = s
  | .expression e, h => by rw [canonical, e.canonical_eq_self h]
  | .block body, h => by rw [canonical, listCanonical_eq_self body h]
  | .empty, _ => by rw [canonical]
  | .variables declarations, h => by
    rw [canonical, VariableDeclaration.map_canonical_eq_self h]
  | .conditional test consequent alternate, h => by
    simp only [numbers, List.forall_mem_append] at h
    rw [canonical, test.canonical_eq_self h.1.1, consequent.canonical_eq_self h.1.2,
      optionCanonical_eq_self alternate h.2]
  | .whileLoop test body, h | .doWhileLoop body test, h => by
    simp only [numbers, List.forall_mem_append] at h
    rw [canonical, test.canonical_eq_self h.1, body.canonical_eq_self h.2]
  | .forLoop init test update body, h => by
    simp only [numbers, List.forall_mem_append] at h
    rw [canonical, ForInit.map_canonical_eq_self h.1.1.1,
      Expression.map_canonical_eq_self h.1.1.2, Expression.map_canonical_eq_self h.1.2,
      body.canonical_eq_self h.2]
  | .functionDeclaration _ _ body, h | .classDeclaration _ _ body, h => by
    rw [canonical, listCanonical_eq_self body h]
  | .return_ argument, h => by rw [canonical, Expression.map_canonical_eq_self h]

theorem optionCanonical_eq_self : ∀ s? : Option Statement,
    (∀ v ∈ optionNumbers s?, v.canonical = v) → optionCanonical s? = s?
  | none, _ => rfl
  | some s, h => congrArg some (s.canonical_eq_self h)

theorem listCanonical_eq_self : ∀ ss : List Statement,
    (∀ v ∈ listNumbers ss, v.canonical = v) → listCanonical ss = ss
  | [], _ => rfl
  | s :: ss, h => by
    simp only [listNumbers, List.forall_mem_append] at h
    rw [listCanonical, s.canonical_eq_self h.1, listCanonical_eq_self ss h.2]

end

end Statement

theorem Program.canonical_eq_self {p : Program} (h : ∀ v ∈ p.numbers, v.canonical = v) :
    p.canonical = p := by
  rw [canonical, Statement.listCanonical_eq_self p.body h]

end Unsigned

section Whole

theorem Double.recoverable_of_isWhole {v : Double} (h : v.IsWhole) : v.Recoverable := by
  cases v with
  | finite negative rank => trivial
  | infinite negative => exact h
  | nan => exact h

theorem Double.ne_negativeZero_of_isWhole {v : Double} (h : v.IsWhole) : v ≠ negativeZero := by
  rintro rfl
  cases h.1

mutual

theorem Expression.WellFormed.isWhole : ∀ {e : Expression}, e.WellFormed →
    ∀ v ∈ e.numbers, v.IsWhole
  | .number _, h => List.forall_mem_singleton.mpr h
  | .identifier _, _ | .string _, _ | .boolean _, _ | .null, _ | .this, _ | .super, _ => nofun
  | .assignment _ _ _, h => List.forall_mem_append.mpr ⟨h.1.isWhole, h.2.isWhole⟩
  | .binary _ _ _, h | .logical _ _ _, h => List.forall_mem_append.mpr ⟨h.1.isWhole, h.2.isWhole⟩
  | .unary _ argument, h => Expression.WellFormed.isWhole (e := argument) h
  | .member _ _ _, h => List.forall_mem_append.mpr ⟨h.1.isWhole, h.2.1.isWhole⟩
  | .call _ _, h | .new _ _, h => List.forall_mem_append.mpr ⟨h.1.isWhole, h.2.isWhole⟩

theorem AssignmentTarget.WellFormed.isWhole : ∀ {t : AssignmentTarget}, t.WellFormed →
    ∀ v ∈ t.numbers, v.IsWhole
  | .identifier _, _ => nofun
  | .member _ _ _, h => List.forall_mem_append.mpr ⟨h.1.isWhole, h.2.1.isWhole⟩

theorem Expression.AllWellFormed.isWhole : ∀ {es : List Expression},
    Expression.AllWellFormed es → ∀ v ∈ Expression.listNumbers es, v.IsWhole
  | [], _ => nofun
  | _ :: _, h => List.forall_mem_append.mpr ⟨h.1.isWhole, h.2.isWhole⟩

end

theorem Expression.isWhole_of_option {e? : Option Expression} (h : ∀ e ∈ e?, e.WellFormed) :
    ∀ v ∈ (e?.map Expression.numbers).getD [], v.IsWhole := by
  cases e? with
  | none => nofun
  | some e => exact (h e rfl).isWhole

theorem VariableDeclaration.WellFormed.isWhole {d : VariableDeclaration} (h : d.WellFormed) :
    ∀ v ∈ d.numbers, v.IsWhole :=
  Expression.isWhole_of_option h.2

theorem VariableDeclaration.isWhole_of_list {declarations : List VariableDeclaration}
    (h : ∀ d ∈ declarations, d.WellFormed) :
    ∀ v ∈ declarations.flatMap VariableDeclaration.numbers, v.IsWhole := by
  intro v hv
  obtain ⟨d, hd, hv⟩ := List.mem_flatMap.mp hv
  exact (h d hd).isWhole v hv

theorem ForInit.isWhole_of_option {init? : Option ForInit} (h : ∀ i ∈ init?, i.WellFormed) :
    ∀ v ∈ (init?.map ForInit.numbers).getD [], v.IsWhole := by
  cases init? with
  | none => nofun
  | some init =>
      have hinit := h init rfl
      cases init with
      | «variables» declarations => exact VariableDeclaration.isWhole_of_list hinit.2
      | expression e => exact Expression.WellFormed.isWhole hinit

namespace Statement

mutual

theorem WellFormed.isWhole : ∀ {s : Statement}, s.WellFormed → ∀ v ∈ s.numbers, v.IsWhole
  | .expression e, h => Expression.WellFormed.isWhole h
  | .block body, h => AllWellFormed.isWhole h
  | .empty, _ => nofun
  | .variables declarations, h => VariableDeclaration.isWhole_of_list h.2
  | .conditional test consequent none, h => by
    simp only [numbers, optionNumbers, List.append_nil, List.forall_mem_append]
    exact ⟨h.1.isWhole, h.2.isWhole⟩
  | .conditional test consequent (some alternate), h => by
    simp only [numbers, optionNumbers, List.forall_mem_append]
    exact ⟨⟨h.1.isWhole, h.2.1.isWhole⟩, h.2.2.2.isWhole⟩
  | .whileLoop test body, h | .doWhileLoop body test, h =>
    List.forall_mem_append.mpr ⟨h.1.isWhole, h.2.isWhole⟩
  | .forLoop init test update body, h => by
    simp only [numbers, List.forall_mem_append]
    exact ⟨⟨⟨ForInit.isWhole_of_option h.1, Expression.isWhole_of_option h.2.1⟩,
      Expression.isWhole_of_option h.2.2.1⟩, h.2.2.2.isWhole⟩
  | .functionDeclaration _ _ body, h | .classDeclaration _ _ body, h =>
    AllWellFormed.isWhole h.2.2
  | .return_ argument, h => Expression.isWhole_of_option h

theorem AllWellFormed.isWhole : ∀ {ss : List Statement}, AllWellFormed ss →
    ∀ v ∈ listNumbers ss, v.IsWhole
  | [], _ => nofun
  | _ :: _, h => List.forall_mem_append.mpr ⟨h.1.isWhole, h.2.isWhole⟩

end

end Statement

theorem Program.WellFormed.isWhole {p : Program} (h : p.WellFormed) : ∀ v ∈ p.numbers, v.IsWhole :=
  Statement.AllWellFormed.isWhole (Statement.allWellFormed_iff.mpr h)

end Whole

end Letter
