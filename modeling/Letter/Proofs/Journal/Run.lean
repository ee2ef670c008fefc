import Letter.Proofs.Descent.Simulation
import Letter.Proofs.Grammar.Judgement
import Letter.Proofs.Journal.Basic

namespace Letter

namespace Journal

open Machine (Outcome)

/-- The connective that a terminal spells. -/
def connectiveOf (t : Terminal) : Except Objection Connective :=
  match Spelled.ofSpelling? t.lexeme with
  | some connective => .ok connective
  | none => .error (.expected "binary operator")

def rightOperand (operand : Journal Expression) : Journal (Connective × Expression) := do
  let token ← advance
  let right ← operand
  return (← judge connectiveOf token, right)

instance : Descent Journal where
  lookahead := do return (← lookahead).toTerminal
  next _ := next
  skip := skip
  identifier := do
    let token ← expect .identifier
    return ⟨token.lexeme⟩
  literal := do judge Grammar.literalOf (← advance)
  prefixOperator := do judge Grammar.prefixOf (← advance)
  assignmentOperator left := do judge (Grammar.assignmentTo left) (← advance)
  rightOperand := rightOperand
  noAlternative production := do object (← lookahead) (.noAlternative production)
  many := many
  commaSeparated := list

/-- Runs a procedure with a budget for calls within calls, and writes down what it comes to. -/
def run : (budget : Nat) → (q : Procedure) → Journal q.Result
  | 0, _ => breach
  | budget + 1, q =>
    noting (.procedure q) (q.body (run budget) fun o => nested (run budget o.procedure))

theorem getLast?_entries_of_run {budget : Nat} {q : Procedure} {s s' : State} {a : q.Result}
    (h : run budget q s = (.value a, s')) :
    s'.entries.getLast? = some ⟨.procedure q, s.mark, s'.mark⟩ := by
  cases budget with
  | zero => cases h
  | succ budget => exact getLast?_entries_of_noting h

section Extending

variable {α β : Type}

/-- What has been written down stays in the journal. -/
def Extends (m : Journal α) : Prop :=
  ∀ s, s.entries <+: (m s).2.entries

theorem extends_of_entries_eq {m : Journal α} (h : ∀ s, (m s).2.entries = s.entries) :
    Extends m := fun s =>
  (h s).symm ▸ List.prefix_refl s.entries

theorem Extends.bind {m : Journal α} {f : α → Journal β} (hm : Extends m)
    (hf : ∀ a, Extends (f a)) : Extends (m >>= f) := by
  intro s
  have hfirst := hm s
  simp only [Bind.bind]
  generalize m s = result at hfirst
  obtain ⟨a | e | _, s'⟩ := result
  case value => exact hfirst.trans (hf a s')
  case error | breach => exact hfirst

theorem extends_pure (a : α) : Extends (pure a) :=
  extends_of_entries_eq fun _ => rfl

theorem extends_lookahead : Extends lookahead :=
  extends_of_entries_eq fun _ => rfl

theorem extends_object (found : Token) (objection : Objection) :
    Extends (object found objection : Journal α) :=
  extends_of_entries_eq fun _ => rfl

theorem extends_look : Extends look := by
  refine extends_of_entries_eq fun s => ?_
  rw [look]
  rcases s.tokenizer.nextToken with ⟨_ | _, tokenizer⟩ <;> rfl

theorem extends_advance : Extends advance :=
  extends_lookahead.bind fun _ => Extends.bind (extends_of_entries_eq fun _ => rfl) fun _ =>
    extends_look.bind fun _ => extends_pure _

theorem extends_next : Extends next :=
  extends_advance.bind fun _ => extends_pure _

theorem extends_judge (check : Terminal → Except Objection α) (token : Token) :
    Extends (judge check token) := by
  rw [judge]
  split
  · exact extends_pure _
  · exact extends_object _ _

theorem extends_expect (kind : TokenKind) : Extends (expect kind) := by
  refine extends_lookahead.bind fun found => ?_
  split
  · exact extends_advance
  · exact extends_object _ _

theorem extends_noting {m : Journal α} (activity : Activity) (h : Extends m) :
    Extends (noting activity m) := by
  intro s
  have hresult := h s
  rw [noting]
  generalize m s = result at hresult
  obtain ⟨_ | _ | _, s'⟩ := result
  case value => exact hresult.trans (List.prefix_append _ _)
  case error | breach => exact hresult

theorem extends_nested {m : Journal α} (h : Extends m) : Extends (nested m) := by
  intro s
  rw [nested]
  split
  · exact List.prefix_refl _
  · exact h { s with depth := s.depth + 1 }

theorem extends_manyWithin {starts : TokenKind → Bool} {item : Journal α} (h : Extends item)
    (bound : Nat) (items : List α) : Extends (manyWithin starts item bound items) := by
  induction bound generalizing items with
  | zero => exact extends_of_entries_eq fun _ => rfl
  | succ bound ih =>
      refine extends_lookahead.bind fun found => ?_
      split
      · exact (extends_noting .round h).bind fun a => ih (items ++ [a])
      · exact extends_pure _

theorem extends_listWithin {item : Journal α} (h : Extends item) (bound : Nat) (items : List α) :
    Extends (listWithin item bound items) := by
  induction bound generalizing items with
  | zero => exact extends_of_entries_eq fun _ => rfl
  | succ bound ih =>
      have hone : Extends (listOne item items) := by
        refine h.bind fun a => extends_lookahead.bind fun found => ?_
        split
        · exact extends_next.bind fun _ => extends_pure _
        · exact extends_pure _
      apply (extends_noting .round hone).bind
      rintro ⟨items, more⟩
      cases more with
      | false => exact extends_pure _
      | true => exact ih items

theorem simulation_extends : Descent.Simulation Journal Journal fun _ _ m _ => Extends m where
  mono h _ := h
  of_reads h := h
  pure := extends_pure
  bind hm hf := hm.bind hf
  lookahead_bind hf := (extends_lookahead.bind fun _ => extends_pure _).bind hf
  next _ := extends_next
  skip _ := (extends_expect _).bind fun _ => extends_pure _
  identifier := (extends_expect _).bind fun _ => extends_pure _
  literal := extends_advance.bind fun _ => extends_judge _ _
  prefixOperator := extends_advance.bind fun _ => extends_judge _ _
  assignmentOperator _ := extends_advance.bind fun _ => extends_judge _ _
  noAlternative := extends_lookahead.bind fun _ => extends_object _ _
  operands _ h := fun s => extends_manyWithin
    (extends_advance.bind fun _ => h.bind fun _ => (extends_judge _ _).bind fun _ =>
      extends_pure _) _ _ s
  many _ h := fun s => extends_manyWithin h _ _ s
  commaSeparated h := fun s => extends_listWithin h _ _ s

theorem extends_body {call : (q : Procedure) → Journal q.Result}
    {deeper : (o : Opening) → Journal o.procedure.Result} (hcall : ∀ q, Extends (call q))
    (hdeeper : ∀ o, Extends (deeper o)) (q : Procedure) : Extends (q.body call deeper) :=
  simulation_extends.body call deeper (fun q' _ => hcall q') hdeeper

/-- Whatever comes to a value within a run has its entry in the journal when the run has ended. -/
theorem extends_run (budget : Nat) (q : Procedure) : Extends (run budget q) := by
  induction budget generalizing q with
  | zero => exact extends_of_entries_eq fun _ => rfl
  | succ budget ih =>
      exact extends_noting _ (extends_body ih (fun o => extends_nested (ih o.procedure)) q)

end Extending

/-- Reads a whole source: looks at its first token and runs the procedure for programs. -/
def parse (limit : Nat) (source : String) : Outcome Program × State :=
  (do
    look
    run (32 * (limit + 1)) .program : Journal Program) (.start limit source)

end Journal

end Letter
