import Letter.Proofs.Token.Scanning
import Letter.Token.Tokenizer

namespace Letter

namespace Tokenizer

variable {source : String} {t : Tokenizer} {piece : Piece} {b c : Char}
  {cs rest bound bound' : List Char} {cursor : Nat} {failed : Bool}

theorem exists_cons_of_first? (h : Piece.first? cs = some (piece, rest)) :
    ∃ c cs', cs = c :: cs' := by
  cases cs with
  | nil => exact absurd (Piece.length_lt_of_first? h) (Nat.not_lt_zero _)
  | cons c cs => exact ⟨c, cs, rfl⟩

theorem nextTokenWithin_nil :
    nextTokenWithin bound ⟨source, [], cursor, failed⟩ =
      (.ok (.endOfInput cursor), ⟨source, [], cursor, failed⟩) := by
  cases bound <;> rfl

theorem nextTokenWithin_of_first?_eq_some (h : Piece.first? cs = some (piece, rest)) :
    nextTokenWithin (b :: bound) ⟨source, cs, cursor, failed⟩ =
      match piece.kind? with
      | none => nextTokenWithin bound ⟨source, rest, cursor + piece.size, failed⟩
      | some kind => (.ok ⟨⟨kind, String.ofList piece.text⟩, cursor⟩,
          ⟨source, rest, cursor + piece.size, failed⟩) := by
  obtain ⟨c, cs, rfl⟩ := exists_cons_of_first? h
  simp only [nextTokenWithin, h]
  rfl

theorem nextTokenWithin_eq (hbound : cs.length ≤ bound.length) :
    nextTokenWithin bound ⟨source, cs, cursor, failed⟩ =
      nextToken ⟨source, cs, cursor, failed⟩ := by
  rw [nextToken]
  induction cs using Piece.cut_induction generalizing bound cursor with
  | stuck cs hfirst =>
      cases cs with
      | nil => rw [nextTokenWithin_nil, nextTokenWithin_nil]
      | cons c cs =>
          cases bound with
          | nil => exact absurd hbound (Nat.not_succ_le_zero _)
          | cons b bound => simp only [nextTokenWithin, hfirst]
  | piece cs piece rest hfirst ih =>
      have hlt := Piece.length_lt_of_first? hfirst
      obtain ⟨c, cs, rfl⟩ := exists_cons_of_first? hfirst
      cases bound with
      | nil => exact absurd hbound (Nat.not_succ_le_zero _)
      | cons b bound =>
          simp only [List.length_cons] at hbound hlt
          have hrest : rest.length ≤ cs.length := Nat.le_of_lt_succ hlt
          rw [nextTokenWithin_of_first?_eq_some hfirst, nextTokenWithin_of_first?_eq_some hfirst,
            ih (by omega), ih hrest]

theorem nextToken_of_first?_eq_none (h : Piece.first? (c :: cs) = none) :
    nextToken ⟨source, c :: cs, cursor, failed⟩ =
      (.error (.lexical source cursor c), ⟨source, c :: cs, cursor, true⟩) := by
  simp only [nextToken, nextTokenWithin, h]

theorem nextToken_of_separator (h : Piece.first? cs = some (piece, rest))
    (hkind : piece.kind? = none) :
    nextToken ⟨source, cs, cursor, failed⟩ =
      nextToken ⟨source, rest, cursor + piece.size, failed⟩ := by
  have hlt := Piece.length_lt_of_first? h
  obtain ⟨c, cs, rfl⟩ := exists_cons_of_first? h
  rw [nextToken, nextTokenWithin_of_first?_eq_some h, hkind]
  exact nextTokenWithin_eq (Nat.le_of_lt_succ hlt)

theorem nextToken_of_token (h : Piece.first? cs = some (piece, rest)) {kind : TokenKind}
    (hkind : piece.kind? = some kind) :
    nextToken ⟨source, cs, cursor, failed⟩ =
      (.ok ⟨⟨kind, String.ofList piece.text⟩, cursor⟩,
        ⟨source, rest, cursor + piece.size, failed⟩) := by
  obtain ⟨c, cs, rfl⟩ := exists_cons_of_first? h
  rw [nextToken, nextTokenWithin_of_first?_eq_some h, hkind]

theorem toListWithin_of_failed (h : t.failed = true) : toListWithin bound t = ([], t) := by
  cases bound <;> simp [toListWithin, next?, h]

theorem kind_ne_endOfInput_of_first? (h : Piece.first? cs = some (piece, rest)) {kind : TokenKind}
    (hkind : piece.kind? = some kind) : kind ≠ .endOfInput :=
  (Piece.lexed_of_first? h (Piece.terminal?_of_kind? hkind)).kind_ne_endOfInput

theorem toListWithin_eq (hbound : cs.length ≤ bound.length) :
    toListWithin bound ⟨source, cs, cursor, false⟩ =
      ((Scan.tokensAt cursor (Piece.cut cs).1).map .ok ++
        (((Piece.cut cs).2.head?.map (.lexical source
          (cursor + Text.size ((Piece.cut cs).1.flatMap Piece.text)))).map .error).toList,
        ⟨source, (Piece.cut cs).2, cursor + Text.size ((Piece.cut cs).1.flatMap Piece.text),
          (Piece.cut cs).2.head?.isSome⟩) := by
  induction cs using Piece.cut_induction generalizing bound cursor with
  | stuck cs hfirst =>
      rw [Piece.cut_of_first?_eq_none hfirst]
      cases cs with
      | nil => cases bound <;> rfl
      | cons c cs =>
          cases bound with
          | nil => exact absurd hbound (Nat.not_succ_le_zero _)
          | cons b bound =>
              simp only [toListWithin, next?, nextToken_of_first?_eq_none hfirst,
                Bool.false_eq_true, if_false, toListWithin_of_failed]
              rfl
  | piece cs piece rest hfirst ih =>
      have hlt := Piece.length_lt_of_first? hfirst
      have hsize : cursor + Text.size ((piece :: (Piece.cut rest).1).flatMap Piece.text) =
          cursor + piece.size + Text.size ((Piece.cut rest).1.flatMap Piece.text) := by
        rw [List.flatMap_cons, Text.size_append, Piece.size, Nat.add_assoc]
      rw [Piece.cut_of_first?_eq_some hfirst]
      dsimp only
      rw [hsize, Scan.tokensAt]
      cases bound with
      | nil => exact absurd (Nat.lt_of_lt_of_le hlt hbound) (Nat.not_lt_zero _)
      | cons b bound =>
          simp only [List.length_cons] at hbound
          cases hkind : piece.kind? with
          | none =>
              have hrest : rest.length ≤ (b :: bound).length := by
                simp only [List.length_cons]
                omega
              rw [← ih hrest]
              simp only [toListWithin, next?, Bool.false_eq_true, if_false,
                nextToken_of_separator hfirst hkind]
          | some kind =>
              have hend := kind_ne_endOfInput_of_first? hfirst hkind
              have hkind' : (kind == TokenKind.endOfInput) = false := beq_eq_false_iff_ne.mpr hend
              simp only [toListWithin, next?, nextToken_of_token hfirst hkind, Terminal.isEnd,
                hkind', Bool.false_eq_true, if_false, ih (Nat.le_of_lt_succ
                  (Nat.lt_of_lt_of_le hlt hbound))]
              rfl

theorem toList_ofSource (source : String) :
    (ofSource source).toList =
      ((Scan.ofSource source).tokens.map .ok ++
        (((Scan.ofSource source).stuck?.map
          (.lexical source (Scan.ofSource source).stop)).map .error).toList,
        ⟨source, (Piece.cut source.toList).2, (Scan.ofSource source).stop,
          (Scan.ofSource source).stuck?.isSome⟩) := by
  have heq : toListWithin source.toList ⟨source, source.toList, 0, false⟩ = _ :=
    toListWithin_eq (Nat.le_refl _)
  rw [Nat.zero_add] at heq
  exact heq

theorem countP_isOk_toList (source : String) :
    (ofSource source).toList.1.countP (·.isOk) = (Scan.ofSource source).terminals.length := by
  rw [toList_ofSource, List.countP_append, List.countP_map, Scan.terminals, List.length_map]
  cases (Scan.ofSource source).stuck? with
  | none => simp [Function.comp_def, Except.isOk, Except.toBool]
  | some character => simp [Function.comp_def, Except.isOk, Except.toBool]

end Tokenizer

end Letter
