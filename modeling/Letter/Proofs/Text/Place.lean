import Letter.Proofs.Machine.Checked
import Letter.Proofs.Token.Tiling
import Mathlib.Data.List.Basic
import Mathlib.Data.List.Induction
import Mathlib.Data.Prod.Lex

namespace Letter

namespace Text

/-- The characters of a text, each with the offset at which it begins. -/
def placed : (offset : Nat) → List Char → List (Nat × Char)
  | _, [] => []
  | offset, c :: cs => (offset, c) :: placed (offset + c.utf8Size) cs

/-- The offset to which one gets by going down some lines and then over some characters. -/
def walk : (lines columns : Nat) → List Char → Nat
  | _, _, [] => 0
  | 0, 0, _ => 0
  | 0, columns + 1, c :: cs => c.utf8Size + walk 0 columns cs
  | lines + 1, columns, c :: cs =>
    c.utf8Size + walk (if c = '\n' then lines else lines + 1) columns cs

variable {cs ds : List Char} {entry : Nat × Char} {offset offset' : Nat}

theorem le_of_mem_placed (h : entry ∈ placed offset cs) : offset ≤ entry.1 := by
  induction cs generalizing offset with
  | nil => cases h
  | cons c cs ih =>
      rcases List.mem_cons.mp h with rfl | h
      · exact Nat.le_refl _
      · exact Nat.le_trans (Nat.le_add_right _ _) (ih h)

theorem lt_of_mem_placed (h : entry ∈ placed offset cs) : entry.1 < offset + size cs := by
  induction cs generalizing offset with
  | nil => cases h
  | cons c cs ih =>
      have hpos := c.utf8Size_pos
      rw [size]
      rcases List.mem_cons.mp h with rfl | h
      · exact Nat.lt_add_of_pos_right (by omega)
      · have hlt := ih h
        omega

theorem snd_mem_of_mem_placed (h : entry ∈ placed offset cs) : entry.2 ∈ cs := by
  induction cs generalizing offset with
  | nil => cases h
  | cons c cs ih =>
      rcases List.mem_cons.mp h with rfl | h
      · exact List.mem_cons_self
      · exact List.mem_cons_of_mem _ (ih h)

theorem length_placed (offset : Nat) (cs : List Char) : (placed offset cs).length = cs.length := by
  induction cs generalizing offset with
  | nil => rfl
  | cons c cs ih => rw [placed, List.length_cons, ih, List.length_cons]

theorem placed_append (offset : Nat) (cs ds : List Char) :
    placed offset (cs ++ ds) = placed offset cs ++ placed (offset + size cs) ds := by
  induction cs generalizing offset with
  | nil => rfl
  | cons c cs ih => rw [List.cons_append, placed, ih, placed, size, Nat.add_assoc, List.cons_append]

theorem countP_newline_placed (offset : Nat) (cs : List Char) :
    (placed offset cs).countP (·.2 = '\n') = cs.count '\n' := by
  induction cs generalizing offset with
  | nil => rfl
  | cons c cs ih =>
      rw [placed, List.countP_cons, ih, List.count_cons]
      rfl

theorem filter_placed (offset n : Nat) (cs : List Char) :
    (placed offset cs).filter (·.1 < offset + n) = placed offset (startingBefore n cs) := by
  induction cs generalizing offset n with
  | nil => cases n <;> rfl
  | cons c cs ih =>
      cases n with
      | zero =>
          refine List.filter_eq_nil_iff.mpr fun entry hentry => ?_
          have hle := le_of_mem_placed hentry
          simpa using hle
      | succ n =>
          have hrest : (placed (offset + c.utf8Size) cs).filter (·.1 < offset + (n + 1)) =
              (placed (offset + c.utf8Size) cs).filter
                (·.1 < offset + c.utf8Size + (n + 1 - c.utf8Size)) := by
            refine List.filter_congr fun entry hentry => ?_
            have hle := le_of_mem_placed hentry
            exact decide_eq_decide.mpr (by omega)
          rw [placed, List.filter_cons_of_pos (by simp), hrest, ih, startingBefore, placed]

theorem startingBefore_prefix (h : offset ≤ offset') (cs : List Char) :
    startingBefore offset cs <+: startingBefore offset' cs := by
  induction cs generalizing offset offset' with
  | nil => cases offset <;> exact List.nil_prefix
  | cons c cs ih =>
      cases offset with
      | zero => exact List.nil_prefix
      | succ n =>
          obtain ⟨n', rfl⟩ : ∃ n', offset' = n' + 1 := Nat.exists_eq_add_one.mpr (by omega)
          rw [startingBefore, startingBefore, List.prefix_cons_inj]
          exact ih (by omega)

theorem startingBefore_size (cs ds : List Char) : startingBefore (size cs) (cs ++ ds) = cs := by
  have happend := startingBefore_append cs ds 0
  rw [Nat.zero_add] at happend
  rw [happend]
  cases ds <;> exact List.append_nil cs

theorem exists_line (cs : List Char) :
    ∃ lines line, cs = lines ++ line ∧ '\n' ∉ line ∧ ∀ c ∈ lines.getLast?, c = '\n' := by
  induction cs using List.reverseRecOn with
  | nil => exact ⟨[], [], rfl, nofun, nofun⟩
  | append_singleton cs c ih =>
      by_cases hc : c = '\n'
      · subst hc
        refine ⟨cs ++ ['\n'], [], (List.append_nil _).symm, nofun, fun c hc => ?_⟩
        rw [List.getLast?_concat] at hc
        exact (Option.some.inj hc).symm
      · obtain ⟨lines, line, rfl, hline, hlines⟩ := ih
        refine ⟨lines, line ++ [c], List.append_assoc _ _ _, fun hmem => ?_, hlines⟩
        rcases List.mem_append.mp hmem with hmem | hmem
        · exact hline hmem
        · exact hc (List.mem_singleton.mp hmem).symm

theorem countP_behind_placed {lines line : List Char} (hline : '\n' ∉ line)
    (hlines : ∀ c ∈ lines.getLast?, c = '\n') :
    (placed 0 (lines ++ line)).countP (fun entry => ∀ feed ∈ placed 0 (lines ++ line),
      feed.2 = '\n' → feed.1 < entry.1) = line.length := by
  rw [placed_append, List.countP_append]
  have hearlier : (placed 0 lines).countP (fun entry => ∀ feed ∈ placed 0 lines ++
      placed (0 + size lines) line, feed.2 = '\n' → feed.1 < entry.1) = 0 := by
    refine List.countP_eq_zero.mpr fun entry hentry hbehind => ?_
    obtain ⟨front, c, rfl⟩ := List.eq_nil_or_concat' lines |>.resolve_left (by
      rintro rfl
      cases hentry)
    obtain rfl := hlines c List.getLast?_concat
    -- the last line feed itself is not in front of any character of the lines before it
    have hfeed : (0 + size front, '\n') ∈ placed 0 (front ++ ['\n']) := by
      rw [placed_append]
      exact List.mem_append_right _ List.mem_cons_self
    have hlt := of_decide_eq_true hbehind _ (List.mem_append_left _ hfeed) rfl
    have hge := lt_of_mem_placed hentry
    rw [size_append] at hge
    change _ < 0 + (size front + 1) at hge
    dsimp only at hlt
    omega
  have hlast : (placed (0 + size lines) line).countP (fun entry => ∀ feed ∈ placed 0 lines ++
      placed (0 + size lines) line, feed.2 = '\n' → feed.1 < entry.1) = line.length := by
    rw [← length_placed (0 + size lines) line]
    refine List.countP_eq_length.mpr fun entry hentry => decide_eq_true ?_
    intro feed hfeed hnewline
    rcases List.mem_append.mp hfeed with hfeed | hfeed
    · exact Nat.lt_of_lt_of_le (lt_of_mem_placed hfeed) (le_of_mem_placed hentry)
    · have hmem := snd_mem_of_mem_placed hfeed
      rw [hnewline] at hmem
      exact absurd hmem hline
  rw [hearlier, hlast, Nat.zero_add]

end Text

namespace Position

/-- The line and the column, ordered line by line. -/
def place (p : Position) : ℕ ×ₗ ℕ :=
  toLex (p.line, p.column)

variable {p : Position} {cs ds : List Char} {source : String} {offset offset' : Nat}

theorem place_lt_after (p : Position) (c : Char) : p.place < (p.after c).place := by
  rw [place, place, Prod.Lex.toLex_lt_toLex, after]
  split
  · exact .inl (Nat.lt_succ_self _)
  · exact .inr ⟨rfl, Nat.lt_succ_self _⟩

theorem place_le_foldl (p : Position) (cs : List Char) : p.place ≤ (cs.foldl after p).place := by
  induction cs generalizing p with
  | nil => exact le_refl _
  | cons c cs ih => exact (place_lt_after p c).le.trans (ih _)

theorem place_lt_foldl (p : Position) (h : cs ≠ []) : p.place < (cs.foldl after p).place := by
  obtain ⟨c, cs, rfl⟩ := List.exists_cons_of_ne_nil h
  exact (place_lt_after p c).trans_le (place_le_foldl _ cs)

theorem place_foldl_le_of_prefix (h : cs <+: ds) :
    (cs.foldl after p).place ≤ (ds.foldl after p).place := by
  obtain ⟨more, rfl⟩ := h
  rw [List.foldl_append]
  exact place_le_foldl _ more

theorem place_foldl_lt_of_prefix (h : cs <+: ds) (hne : cs ≠ ds) :
    (cs.foldl after p).place < (ds.foldl after p).place := by
  obtain ⟨more, rfl⟩ := h
  rw [List.foldl_append]
  refine place_lt_foldl _ fun hmore => hne ?_
  rw [hmore, List.append_nil]

theorem column_foldl_of_notMem (h : '\n' ∉ cs) :
    (cs.foldl after p).column = p.column + cs.length := by
  induction cs generalizing p with
  | nil => rfl
  | cons c cs ih =>
      obtain ⟨hc, hcs⟩ := not_or.mp (mt List.mem_cons.mpr h)
      rw [List.foldl_cons, ih hcs, after, if_neg (Ne.symm hc), List.length_cons]
      change p.column + 1 + _ = _
      omega

theorem column_foldl_of_getLast? (h : ∀ c ∈ cs.getLast?, c = '\n') :
    (cs.foldl after start).column = 1 := by
  rcases List.eq_nil_or_concat' cs with rfl | ⟨front, c, rfl⟩
  · rfl
  · obtain rfl := h c List.getLast?_concat
    rw [List.foldl_append]
    rfl

theorem line_ofOffset (source : String) (offset : Nat) :
    (ofOffset source offset).line =
      1 + (Text.placed 0 source.toList).countP
        (fun entry => entry.1 < offset ∧ entry.2 = '\n') := by
  have hfilter := Text.filter_placed 0 offset source.toList
  rw [Nat.zero_add] at hfilter
  have hcount := Text.countP_newline_placed 0 (Text.startingBefore offset source.toList)
  rw [← hfilter, List.countP_filter] at hcount
  change ((Text.startingBefore offset source.toList).foldl after start).line = _
  rw [line_foldl_after, ← hcount]
  refine congrArg (1 + ·) (List.countP_congr fun entry _ => ?_)
  simp [and_comm]

theorem column_ofOffset (source : String) (offset : Nat) :
    (ofOffset source offset).column =
      1 + (Text.placed 0 source.toList).countP (fun entry => entry.1 < offset ∧
        ∀ feed ∈ Text.placed 0 source.toList, feed.2 = '\n' → feed.1 < offset →
          feed.1 < entry.1) := by
  have hfilter := Text.filter_placed 0 offset source.toList
  rw [Nat.zero_add] at hfilter
  obtain ⟨lines, line, hsplit, hline, hlines⟩ :=
    Text.exists_line (Text.startingBefore offset source.toList)
  have hcount := Text.countP_behind_placed hline hlines
  rw [← hsplit, ← hfilter, List.countP_filter] at hcount
  change ((Text.startingBefore offset source.toList).foldl after start).column = _
  rw [hsplit, List.foldl_append, column_foldl_of_notMem hline, column_foldl_of_getLast? hlines,
    ← hcount]
  refine congrArg (1 + ·) (List.countP_congr fun entry _ => ?_)
  simp only [List.mem_filter, Bool.and_eq_true, decide_eq_true_eq, and_imp]
  refine ⟨fun ⟨hbehind, hlt⟩ => ⟨hlt, fun feed hfeed hnewline hbefore => ?_⟩,
    fun ⟨hlt, hbehind⟩ => ⟨fun feed hfeed hbefore hnewline => ?_, hlt⟩⟩
  · exact hbehind feed hfeed hbefore hnewline
  · exact hbehind feed hfeed hnewline hbefore

theorem place_ofOffset_le (h : offset ≤ offset') (source : String) :
    (ofOffset source offset).place ≤ (ofOffset source offset').place :=
  place_foldl_le_of_prefix (Text.startingBefore_prefix h source.toList)

theorem startingBefore_of_isBoundary (h : Text.IsBoundary cs offset) :
    ∃ rest, cs = Text.startingBefore offset cs ++ rest ∧
      Text.size (Text.startingBefore offset cs) = offset := by
  obtain ⟨before, rest, rfl, rfl⟩ := h
  exact ⟨rest, by rw [Text.startingBefore_size], by rw [Text.startingBefore_size]⟩

theorem place_ofOffset_lt (h : Text.IsBoundary source.toList offset)
    (h' : Text.IsBoundary source.toList offset') (hlt : offset < offset') :
    (ofOffset source offset).place < (ofOffset source offset').place := by
  obtain ⟨-, -, hsize⟩ := startingBefore_of_isBoundary h
  obtain ⟨-, -, hsize'⟩ := startingBefore_of_isBoundary h'
  refine place_foldl_lt_of_prefix (Text.startingBefore_prefix hlt.le source.toList) fun heq => ?_
  rw [heq, hsize'] at hsize
  omega

/-- From the position in front of a text, the lines and columns to the position behind it lead over
all of it. -/
theorem walk_foldl (p : Position) (cs ds : List Char) :
    Text.walk ((cs.foldl after p).line - p.line)
      (if (cs.foldl after p).line = p.line then (cs.foldl after p).column - p.column
        else (cs.foldl after p).column - 1) (cs ++ ds) = Text.size cs := by
  induction cs generalizing p with
  | nil => cases ds <;> simp [Text.walk, Text.size]
  | cons c cs ih =>
      have hplace := place_le_foldl (p.after c) cs
      have hstep := ih (p.after c)
      rw [place, place, Prod.Lex.toLex_le_toLex] at hplace
      rw [List.foldl_cons, List.cons_append, Text.size, ← hstep]
      generalize cs.foldl after (p.after c) = q at hplace ⊢
      by_cases hc : c = '\n'
      · rw [after, if_pos hc] at hplace ⊢
        dsimp only at hplace ⊢
        have hlines : q.line - p.line = q.line - (p.line + 1) + 1 := by omega
        rw [hlines, Text.walk, if_pos hc, if_neg (by omega), ite_self]
      · rw [after, if_neg hc] at hplace ⊢
        dsimp only at hplace ⊢
        by_cases hline : q.line = p.line
        · have hcolumns : q.column - p.column = q.column - (p.column + 1) + 1 := by omega
          rw [if_pos hline, if_pos hline, hline, Nat.sub_self, hcolumns, Text.walk]
        · obtain ⟨lines, hlines⟩ : ∃ lines, q.line - p.line = lines + 1 :=
            Nat.exists_eq_add_one.mpr (by omega)
          rw [if_neg hline, if_neg hline, hlines, Text.walk, if_neg hc]

theorem walk_ofOffset (h : Text.IsBoundary source.toList offset) :
    Text.walk ((ofOffset source offset).line - 1) ((ofOffset source offset).column - 1)
      source.toList = offset := by
  obtain ⟨rest, hsplit, hsize⟩ := startingBefore_of_isBoundary h
  have hwalk := walk_foldl start (Text.startingBefore offset source.toList) rest
  rw [hsize, ← hsplit] at hwalk
  change Text.walk (_ - 1) (if _ then _ - 1 else _ - 1) _ = _ at hwalk
  rwa [ite_self] at hwalk

/-- In a source of fewer characters than can be counted in 32 bits, the position of an offset is
found by counting without overflow. It is clamped to the end, its line counts the line feeds before
it and its column the characters before it on that line. Positions grow with offsets, no two
boundaries of characters share a line and a column, and a boundary is found again from them. -/
theorem ofOffset_identifies_place (h : source.length < counterSize - 1) :
    (∀ offset, locate? source offset = some (ofOffset source offset) ∧
      (ofOffset source offset).offset = min offset source.utf8ByteSize ∧
      (ofOffset source offset).line = 1 + (Text.placed 0 source.toList).countP
        (fun entry => entry.1 < offset ∧ entry.2 = '\n') ∧
      (ofOffset source offset).column = 1 + (Text.placed 0 source.toList).countP
        (fun entry => entry.1 < offset ∧ ∀ feed ∈ Text.placed 0 source.toList,
          feed.2 = '\n' → feed.1 < offset → feed.1 < entry.1)) ∧
    (∀ offset offset', offset ≤ offset' →
      (ofOffset source offset).place ≤ (ofOffset source offset').place) ∧
    (∀ offset offset', Text.IsBoundary source.toList offset →
      Text.IsBoundary source.toList offset' →
      (offset < offset' → (ofOffset source offset).place < (ofOffset source offset').place) ∧
      (offset ≠ offset' → (ofOffset source offset).place ≠ (ofOffset source offset').place)) ∧
    ∀ offset, Text.IsBoundary source.toList offset →
      Text.walk ((ofOffset source offset).line - 1) ((ofOffset source offset).column - 1)
        source.toList = offset := by
  refine ⟨fun offset => ⟨locate?_eq h offset, rfl, line_ofOffset source offset,
    column_ofOffset source offset⟩, fun offset offset' hle => place_ofOffset_le hle source,
    fun offset offset' hoffset hoffset' => ⟨place_ofOffset_lt hoffset hoffset', fun hne => ?_⟩,
    fun offset => walk_ofOffset⟩
  rcases Nat.lt_or_gt_of_ne hne with hlt | hgt
  · exact (place_ofOffset_lt hoffset hoffset' hlt).ne
  · exact (place_ofOffset_lt hoffset' hoffset hgt).ne'

theorem ofOffset_behind_wide_character :
    "é\n€b".length < counterSize - 1 ∧ Text.IsBoundary "é\n€b".toList 3 ∧
      Text.IsBoundary "é\n€b".toList 6 ∧ locate? "é\n€b" 6 = some ⟨2, 2, 6⟩ ∧
      (ofOffset "é\n€b" 3).place < (ofOffset "é\n€b" 6).place ∧
      Text.walk 1 1 "é\n€b".toList = 6 := by
  have hlength : "é\n€b".length < counterSize - 1 := by decide
  have hline : Text.IsBoundary "é\n€b".toList 3 := ⟨['é', '\n'], ['€', 'b'], rfl, rfl⟩
  have hwide : Text.IsBoundary "é\n€b".toList 6 := ⟨['é', '\n', '€'], ['b'], rfl, rfl⟩
  have hposition : ofOffset "é\n€b" 6 = ⟨2, 2, 6⟩ := by decide
  obtain ⟨hlocate, -, hstrict, hwalk⟩ := ofOffset_identifies_place hlength
  refine ⟨hlength, hline, hwide, ?_, (hstrict 3 6 hline hwide).1 (by decide), ?_⟩
  · rw [(hlocate 6).1, hposition]
  · have hback := hwalk 6 hwide
    rwa [hposition] at hback

end Position

end Letter
