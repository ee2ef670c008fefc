import Letter.Text.Position

namespace Letter

namespace Text

theorem toList_append_newline (a b : String) :
    (a ++ "\n" ++ b).toList = a.toList ++ '\n' :: b.toList := by
  rw [String.toList_append, String.toList_append, List.append_assoc]
  rfl

theorem utf8ByteSize_append_newline (a b : String) :
    (a ++ "\n" ++ b).utf8ByteSize = b.utf8ByteSize + (a.utf8ByteSize + 1) := by
  rw [String.utf8ByteSize_append, String.utf8ByteSize_append, Nat.add_comm]
  rfl

theorem startingBefore_append (cs ds : List Char) (n : Nat) :
    startingBefore (n + size cs) (cs ++ ds) = cs ++ startingBefore n ds := by
  induction cs with
  | nil => rfl
  | cons c cs ih =>
      have hpos := c.utf8Size_pos
      obtain ⟨k, hk⟩ : ∃ k, n + size (c :: cs) = k + 1 :=
        Nat.exists_eq_succ_of_ne_zero (by rw [size]; omega)
      have hrest : k + 1 - c.utf8Size = n + size cs := by
        rw [← hk, size]
        omega
      rw [hk, List.cons_append, startingBefore, hrest, ih, List.cons_append]

end Text

namespace Position

theorem line_foldl_after (cs : List Char) (p : Position) :
    (cs.foldl after p).line = p.line + cs.count '\n' := by
  induction cs generalizing p with
  | nil => rfl
  | cons c cs ih =>
      rw [List.foldl_cons, ih, List.count_cons, after]
      by_cases hc : c = '\n'
      · rw [if_pos hc, if_pos (beq_iff_eq.mpr hc), Nat.add_assoc, Nat.add_comm 1]
      · rw [if_neg hc, if_neg (mt beq_iff_eq.mp hc)]
        rfl

theorem column_foldl_after (cs : List Char) {p p' : Position} (h : p.column = p'.column) :
    (cs.foldl after p).column = (cs.foldl after p').column := by
  induction cs generalizing p p' with
  | nil => exact h
  | cons c cs ih =>
      refine ih ?_
      rw [after, after]
      split
      · rfl
      · exact congrArg (· + 1) h

/-- Where a position of a text is if another text and a line feed stand before it. -/
def behind (a : String) (p : Position) : Position :=
  ⟨p.line + (1 + a.toList.count '\n'), p.column, p.offset + (a.utf8ByteSize + 1)⟩

theorem ofOffset_append_newline (a b : String) (offset : Nat) :
    ofOffset (a ++ "\n" ++ b) (offset + (a.utf8ByteSize + 1)) = (ofOffset b offset).behind a := by
  have hsize : Text.size (a.toList ++ ['\n']) = a.utf8ByteSize + 1 := by
    rw [Text.size_append, Text.size_toList]
    rfl
  have hcolumn : ((a.toList ++ ['\n']).foldl after start).column = start.column := by
    rw [List.foldl_append]
    rfl
  rw [ofOffset, ofOffset, Text.toList_append_newline, List.append_cons,
    Text.utf8ByteSize_append_newline, ← hsize, Text.startingBefore_append, List.foldl_append,
    behind, hsize, Position.mk.injEq]
  refine ⟨?_, column_foldl_after _ hcolumn, by dsimp only; omega⟩
  rw [line_foldl_after, line_foldl_after, line_foldl_after, List.count_append]
  change _ + (_ + 1) + _ = _
  omega

end Position

end Letter
