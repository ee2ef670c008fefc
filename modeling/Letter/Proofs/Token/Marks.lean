import Letter.Proofs.Token.Scanning

namespace Letter

namespace Scan

variable {source : String} {before before' after after' : List Token} {token token' : Token}

/-- The tokens, and behind them what stands for the end of input. -/
def marks (scan : Scan) : List Token :=
  scan.tokens ++ [.endOfInput scan.stop]

theorem pairwise_marks :
    (ofSource source).marks.Pairwise fun token token' => token.offset < token'.offset :=
  List.pairwise_append.mpr ⟨pairwise_tokens, List.pairwise_singleton _ _,
    fun _ htoken _ hend => List.mem_singleton.mp hend ▸ offset_lt_stop htoken⟩

theorem getElem?_marks (scan : Scan) (unread : Nat) :
    scan.marks[scan.tokens.length - unread]? = some (scan.tokenBefore unread) := by
  rw [tokenBefore, marks]
  rcases Nat.lt_or_eq_of_le (Nat.sub_le scan.tokens.length unread) with hlt | heq
  · rw [List.getElem?_append_left hlt, List.drop_eq_getElem_cons hlt,
      List.getElem?_eq_getElem hlt]
    rfl
  · rw [heq, List.drop_length, List.getElem?_append_right (Nat.le_refl _), Nat.sub_self]
    rfl

theorem marks_eq_of_tokens_eq {scan : Scan} (h : scan.tokens = before ++ token :: after) :
    scan.marks = before ++ token :: (after ++ [.endOfInput scan.stop]) := by
  rw [marks, h, List.append_assoc, List.cons_append]

theorem tokenBefore_of_tokens_eq {scan : Scan} (h : scan.tokens = before ++ token :: after) :
    scan.tokenBefore (after.length + 1) = token := by
  have hlength : (before ++ token :: after).length - (after.length + 1) = before.length := by
    rw [List.length_append, List.length_cons, Nat.add_sub_cancel]
  rw [tokenBefore, h, hlength, List.drop_left]
  rfl

theorem offset_tokenBefore_le (source : String) {unread unread' : Nat} (h : unread' ≤ unread) :
    ((ofSource source).tokenBefore unread).offset ≤
      ((ofSource source).tokenBefore unread').offset := by
  have hnext := getElem?_marks (ofSource source) unread
  have hnext' := getElem?_marks (ofSource source) unread'
  have hle := Nat.sub_le_sub_left h (ofSource source).tokens.length
  rcases Nat.lt_or_eq_of_le hle with hlt | heq
  · obtain ⟨hbound, hnext⟩ := List.getElem?_eq_some_iff.mp hnext
    obtain ⟨hbound', hnext'⟩ := List.getElem?_eq_some_iff.mp hnext'
    have hoffset := List.pairwise_iff_getElem.mp pairwise_marks _ _ hbound hbound' hlt
    rw [hnext, hnext'] at hoffset
    exact Nat.le_of_lt hoffset
  · rw [heq, hnext'] at hnext
    exact Nat.le_of_eq (congrArg Token.offset (Option.some.inj hnext)).symm

theorem offset_lt_of_marks_eq (h : (ofSource source).marks = before ++ token :: after)
    (h' : (ofSource source).marks = before' ++ token' :: after')
    (hlt : before.length < before'.length) : token.offset < token'.offset := by
  have hbound : before'.length < (ofSource source).marks.length := by
    rw [h', List.length_append, List.length_cons]
    omega
  have hpairwise : (ofSource source).marks.Pairwise fun u u' => u.offset < u'.offset :=
    pairwise_marks
  have hoffset := List.pairwise_iff_getElem.mp hpairwise before.length before'.length
    (Nat.lt_trans hlt hbound) hbound hlt
  have htoken : (ofSource source).marks[before.length] = token := by
    simp [h]
  have htoken' : (ofSource source).marks[before'.length] = token' := by
    simp [h']
  rwa [htoken, htoken'] at hoffset

theorem offset_le_of_mem_marks (h : token ∈ (ofSource source).marks) :
    token.offset ≤ source.utf8ByteSize := by
  rcases List.mem_append.mp h with htoken | hend
  · exact Nat.le_of_lt (offset_lt_of_mem_tokens htoken)
  · obtain rfl := List.mem_singleton.mp hend
    exact stop_le source

theorem eq_of_ofOffset_eq (h : (ofSource source).marks = before ++ token :: after)
    (h' : (ofSource source).marks = before' ++ token' :: after')
    (hposition : Position.ofOffset source token.offset = .ofOffset source token'.offset) :
    before = before' ∧ token = token' ∧ after = after' := by
  have hle : token.offset ≤ source.utf8ByteSize :=
    offset_le_of_mem_marks (by rw [h]; exact List.mem_append_right _ List.mem_cons_self)
  have hle' : token'.offset ≤ source.utf8ByteSize :=
    offset_le_of_mem_marks (by rw [h']; exact List.mem_append_right _ List.mem_cons_self)
  have hmin : min token.offset source.utf8ByteSize = min token'.offset source.utf8ByteSize :=
    congrArg Position.offset hposition
  rw [Nat.min_eq_left hle, Nat.min_eq_left hle'] at hmin
  have hlength : before.length = before'.length := by
    rcases Nat.lt_trichotomy before.length before'.length with hlt | heq | hlt
    · exact absurd hmin (Nat.ne_of_lt (offset_lt_of_marks_eq h h' hlt))
    · exact heq
    · exact absurd hmin.symm (Nat.ne_of_lt (offset_lt_of_marks_eq h' h hlt))
  obtain ⟨hbefore, hcons⟩ := List.append_inj (h.symm.trans h') hlength
  obtain ⟨htoken, hafter⟩ := List.cons.inj hcons
  exact ⟨hbefore, htoken, hafter⟩

end Scan

end Letter
