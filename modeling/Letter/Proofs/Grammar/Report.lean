import Letter.Grammar.Program
import Letter.Proofs.Token.Scanning

namespace Letter

/-- A fault of too many levels. -/
def Fault.isNesting : Fault → Bool
  | nestingTooDeep _ => true
  | _ => false

namespace Objection

/-- What is wrong where an objection is made to a terminal. -/
def fault (t : Terminal) : Objection → Fault
  | lexical character => .lexical character
  | expected what =>
    if t.isEnd then .unexpectedEndOfInput what else .unexpectedToken t.lexeme what
  | noAlternative production =>
    if t.isEnd then .unexpectedEndOfInput production else .unexpectedProduction production t.lexeme
  | assignmentTarget => .invalidAssignmentTarget
  | nesting limit => .nestingTooDeep limit

variable {objection : Objection} {source : String} {found : Token} {t : Terminal}

theorem fault_report :
    (objection.report source found).fault = objection.fault found.toTerminal := by
  cases objection with
  | noAlternative production =>
      simp only [report, SourceError.unexpectedProduction, fault]
      split <;> rfl
  | _ => rfl

theorem le_offset_report : min found.offset source.utf8ByteSize ≤
    (objection.report source found).position.offset := by
  cases objection with
  | noAlternative production =>
      rw [report, SourceError.unexpectedProduction]
      split
      · change _ ≤ min source.utf8ByteSize source.utf8ByteSize
        omega
      · exact Nat.le_refl _
  | _ => exact Nat.le_refl _

theorem report_eq (h : found.isEnd → found.offset = source.utf8ByteSize) :
    objection.report source found =
      ⟨objection.fault found.toTerminal, .ofOffset source found.offset⟩ := by
  cases objection with
  | noAlternative production =>
      simp only [report, SourceError.unexpectedProduction, fault]
      split
      · rename_i hend
        rw [h hend]
        rfl
      · rfl
  | _ => rfl

theorem isNesting_fault_iff :
    (objection.fault t).isNesting ↔ ∃ limit, objection = .nesting limit := by
  cases objection with
  | expected what | noAlternative production =>
      rw [fault]
      split <;> simp [Fault.isNesting]
  | _ => simp [fault, Fault.isNesting]

theorem fault_eq_invalidAssignmentTarget_iff :
    objection.fault t = .invalidAssignmentTarget ↔ objection = .assignmentTarget := by
  cases objection with
  | expected what | noAlternative production =>
      rw [fault]
      split <;> simp
  | _ => simp [fault]

end Objection

end Letter
