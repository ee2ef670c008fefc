import Letter.Proofs.Grammar.Acceptance
import Letter.Proofs.Number.Whole

namespace Letter

/-- Values whose trees are well-formed. A list that the grammar separates by commas has items. -/
def Symbol.WellFormed : (s : Symbol) → s.Value → Prop
  | .expression _, e | .initializer, e => Expression.WellFormed e
  | .identifier, id | .superclass, id => Identifier.WellFormed id
  | .arguments, items => Expression.AllWellFormed items
  | .declaration, d => VariableDeclaration.WellFormed d
  | .forInit, i => ForInit.WellFormed i
  | .block, body => Statement.AllWellFormed body
  | .statement, s => Statement.WellFormed s
  | .optional s, v? => ∀ v, v? = some v → s.WellFormed v
  | .many s, vs => ∀ v, List.Mem v vs → s.WellFormed v
  | .commaSeparated s, vs => vs ≠ List.nil ∧ ∀ v, List.Mem v vs → s.WellFormed v

theorem Connective.wellFormed_join {connective : Connective} {left right : Expression}
    (hleft : left.WellFormed) (hright : right.WellFormed) :
    (connective.join left right).WellFormed := by
  cases connective <;> exact ⟨hleft, hright⟩

theorem Symbol.wellFormed_getD {s : Symbol} {items? : Option (List s.Value)}
    (h : (Symbol.optional (.commaSeparated s)).WellFormed items?) :
    ∀ v ∈ items?.getD [], s.WellFormed v := by
  cases items? with
  | none => nofun
  | some items => exact (h items rfl).2

theorem Derives.wellFormed {s : Symbol} {h : Nat} {ts : List Terminal} {v : s.Value}
    (hv : Derives s h ts v) : s.WellFormed v := by
  induction hv with
  | simple _ ihe | operand _ _ ihe | unprefixed _ ihe | uncalled _ ihe | bare _ ihe
  | parenthesized _ ihe | initializer _ ihe | forExpression _ ihe | expressionStatement _ ihe =>
      exact ihe
  | assigned _ _ _ ihtarget ihvalue =>
      exact ⟨(AssignmentTarget.wellFormed_toExpression _).mp ihtarget, ihvalue⟩
  | joined _ _ _ _ ihleft ihright => exact Connective.wellFormed_join ihleft ihright
  | prefixed _ _ ihargument => exact ihargument
  | call _ _ ihcallee iharguments | new _ _ ihcallee iharguments => exact ⟨ihcallee, iharguments⟩
  | dotted _ _ ihobject ihid => exact ⟨ihobject, ihid, fun _ => ⟨_, rfl⟩⟩
  | computed _ _ ihobject ihproperty => exact ⟨ihobject, ihproperty, nofun⟩
  | number => exact Double.isWhole_ofNat _
  | @string quote text hquote htext =>
      have htoList : (String.ofList text).toList = text := String.toList_ofList
      rintro ⟨hdouble, hsingle⟩
      rw [htoList] at hdouble hsingle
      rcases hquote with rfl | rfl
      · exact htext hdouble
      · exact htext hsingle
  | true_ | false_ | null | this | super | empty => trivial
  | named _ ihid | superclass _ ihid => exact ihid
  | identifier hid => exact hid
  | arguments _ ihitems =>
      exact Expression.allWellFormed_iff.mpr (Symbol.wellFormed_getD ihitems)
  | declaration _ _ ihid ihinit => exact ⟨ihid, ihinit⟩
  | forVariables _ ihdeclarations | «variables» _ ihdeclarations => exact ihdeclarations
  | block _ ihbody => exact Statement.allWellFormed_iff.mpr ihbody
  | blockStatement _ ihbody => exact ihbody
  | conditional _ _ ihtest ihconsequent => exact ⟨ihtest, ihconsequent⟩
  | conditionalElse _ _ hclosed _ ihtest ihconsequent ihalternate =>
      exact ⟨ihtest, ihconsequent, hclosed, ihalternate⟩
  | whileLoop _ _ ihtest ihbody => exact ⟨ihtest, ihbody⟩
  | doWhileLoop _ _ ihbody ihtest => exact ⟨ihtest, ihbody⟩
  | forLoop _ _ _ _ ihinit ihtest ihupdate ihbody => exact ⟨ihinit, ihtest, ihupdate, ihbody⟩
  | functionDeclaration _ _ _ ihname ihparameters ihbody =>
      exact ⟨ihname, Symbol.wellFormed_getD ihparameters, ihbody⟩
  | returnStatement _ ihargument => exact ihargument
  | classDeclaration _ _ _ ihid ihsuperclass ihbody => exact ⟨ihid, ihsuperclass, ihbody⟩
  | absent | nil => nofun
  | present _ ihv => rintro _ ⟨⟩; exact ihv
  | cons _ _ ihv ihvs => exact List.forall_mem_cons.mpr ⟨ihv, ihvs⟩
  | single _ ihv => exact ⟨List.cons_ne_nil _ _, List.forall_mem_singleton.mpr ihv⟩
  | more _ _ ihv ihvs =>
      exact ⟨List.cons_ne_nil _ _, List.forall_mem_cons.mpr ⟨ihv, ihvs.2⟩⟩

namespace Program

variable {limit : Nat} {source : String} {p : Program}

/-- Every program that is read from a source is well-formed. -/
theorem wellFormed_of_parseWithin_eq_ok (h : parseWithin limit source = .ok p) :
    p.WellFormed := by
  obtain ⟨height, -, hbody⟩ := derives_of_parseWithin_eq_ok h
  exact hbody.wellFormed

theorem wellFormed_forVariables :
    let p : Program := ⟨[.forLoop (some (.variables [⟨⟨"i"⟩, none⟩])) none none .empty]⟩
    parseWithin 2 "for (let i; ; ) ;" = .ok p ∧ p.WellFormed := by
  intro p
  have hparse : parseWithin 2 "for (let i; ; ) ;" = .ok p := by decide +kernel
  exact ⟨hparse, wellFormed_of_parseWithin_eq_ok hparse⟩

end Program

end Letter
