import Letter.Proofs.Text.Position
import Letter.Proofs.Token.Genuine

namespace Letter

namespace Text

/-- The text from a byte offset on, unless the offset is inside a character or past the end. -/
def from? : (offset : Nat) → List Char → Option (List Char)
  | 0, cs => some cs
  | _ + 1, [] => none
  | offset + 1, c :: cs =>
    if c.utf8Size ≤ offset + 1 then from? (offset + 1 - c.utf8Size) cs else none

/-- The text up to a byte offset, unless the offset is inside a character or past the end. -/
def until? : (offset : Nat) → List Char → Option (List Char)
  | 0, _ => some []
  | _ + 1, [] => none
  | offset + 1, c :: cs =>
    if c.utf8Size ≤ offset + 1 then (until? (offset + 1 - c.utf8Size) cs).map (c :: ·) else none

def slice? (start stop : Nat) (cs : List Char) : Option (List Char) :=
  if start ≤ stop then (from? start cs).bind (until? (stop - start)) else none

/-- What stands between a quote at the front and a quote at the end, of one byte each. -/
def inner? (cs : List Char) : Option (List Char) :=
  if cs.head?.any isQuote ∧ cs.getLast?.any isQuote then slice? 1 (size cs - 1) cs else none
where
  isQuote (c : Char) : Bool := c == '"' || c == '\''

theorem from?_append (before after : List Char) :
    from? (size before) (before ++ after) = some after := by
  induction before with
  | nil => simp [size, from?]
  | cons c cs ih =>
      obtain ⟨n, hn⟩ : ∃ n, size (c :: cs) = n + 1 := by
        have hpos := c.utf8Size_pos
        exact Nat.exists_eq_add_one.mpr (by rw [size]; omega)
      rw [hn, List.cons_append, from?, ← hn]
      simp [size, ih]

theorem until?_append (before after : List Char) :
    until? (size before) (before ++ after) = some before := by
  induction before with
  | nil => cases after <;> simp [size, until?]
  | cons c cs ih =>
      obtain ⟨n, hn⟩ : ∃ n, size (c :: cs) = n + 1 := by
        have hpos := c.utf8Size_pos
        exact Nat.exists_eq_add_one.mpr (by rw [size]; omega)
      rw [hn, List.cons_append, until?, ← hn]
      simp [size, ih]

theorem inner?_quoted {quote : Char} (hquote : quote = '"' ∨ quote = '\'') (text : List Char) :
    inner? (quote :: (text ++ [quote])) = some text := by
  have hone : size [quote] = 1 := by
    rcases hquote with rfl | rfl <;> rfl
  have hsize : size (quote :: (text ++ [quote])) - 1 = size [quote] + size text := by
    rw [← List.singleton_append, size_append, size_append, hone]
    omega
  have hisQuote : inner?.isQuote quote = true := by
    rcases hquote with rfl | rfl <;> rfl
  have hlast : (quote :: (text ++ [quote])).getLast? = some quote := by
    rw [← List.cons_append, List.getLast?_concat]
  have hrest : from? (size [quote]) (quote :: (text ++ [quote])) = some (text ++ [quote]) :=
    from?_append [quote] (text ++ [quote])
  rw [inner?, hlast, hsize, if_pos ⟨hisQuote, hisQuote⟩, slice?, if_pos (by omega), ← hone, hrest,
    Nat.add_sub_cancel_left]
  exact until?_append text [quote]

theorem startingBefore_min (n : Nat) (cs : List Char) :
    startingBefore (min n (size cs)) cs = startingBefore n cs := by
  induction cs generalizing n with
  | nil => simp [startingBefore]
  | cons c cs ih =>
      cases n with
      | zero => simp
      | succ n =>
          have hpos := c.utf8Size_pos
          obtain ⟨k, hk⟩ : ∃ k, min (n + 1) (size (c :: cs)) = k + 1 :=
            Nat.exists_eq_add_one.mpr (by rw [size]; omega)
          have hrest : startingBefore (k + 1 - c.utf8Size) cs =
              startingBefore (n + 1 - c.utf8Size) cs := by
            rw [← ih (n + 1 - c.utf8Size), ← hk, size]
            congr 1
            omega
          rw [hk, startingBefore, startingBefore, hrest]

end Text

namespace Position

/-- What a counter of lines or columns can hold is below this number. -/
def counterSize : Nat := 0x100000000

/-- Counts on to an offset, unless a counter overflows. -/
def countTo? (offset : Nat) : Position → List Char → Option Position
  | p, [] => some p
  | p, c :: cs =>
    if offset ≤ p.offset then some p
    else if (p.after c).line < counterSize ∧ (p.after c).column < counterSize then
      countTo? offset (p.after c) cs
    else none

/-- The position of an offset, found by counting. -/
def locate? (source : String) (offset : Nat) : Option Position :=
  (countTo? (min offset source.utf8ByteSize) start source.toList).map fun p =>
    { p with offset := min offset source.utf8ByteSize }

@[simp] theorem offset_after (p : Position) (c : Char) :
    (p.after c).offset = p.offset + c.utf8Size := by
  rw [after]
  split <;> rfl

theorem line_after_le (p : Position) (c : Char) : (p.after c).line ≤ p.line + 1 := by
  rw [after]
  split <;> simp

theorem column_after_le (p : Position) (c : Char) :
    (p.after c).column ≤ p.column + 1 := by
  rw [after]
  split <;> simp

theorem countTo?_eq {cs : List Char} {p : Position} (offset : Nat)
    (hline : p.line + cs.length < counterSize) (hcolumn : p.column + cs.length < counterSize) :
    countTo? offset p cs =
      some ((Text.startingBefore (offset - p.offset) cs).foldl after p) := by
  induction cs generalizing p with
  | nil => cases offset - p.offset <;> rfl
  | cons c cs ih =>
      rw [countTo?]
      by_cases hle : offset ≤ p.offset
      · rw [if_pos hle, Nat.sub_eq_zero_of_le hle]
        rfl
      · have hnextLine := p.line_after_le c
        have hnextColumn := p.column_after_le c
        simp only [List.length_cons] at hline hcolumn
        obtain ⟨k, hk⟩ : ∃ k, offset - p.offset = k + 1 :=
          Nat.exists_eq_add_one.mpr (by omega)
        have hrest : offset - (p.after c).offset = k + 1 - c.utf8Size := by
          rw [offset_after]
          omega
        rw [if_neg hle, if_pos ⟨by omega, by omega⟩, ih (by omega) (by omega), hrest, hk,
          Text.startingBefore, List.foldl_cons]

/-- Counting does not overflow in a source of fewer characters than a counter has numbers, less
one for the first line and column. -/
theorem locate?_eq {source : String} (h : source.length < counterSize - 1) (offset : Nat) :
    locate? source offset = some (ofOffset source offset) := by
  have hlength : source.toList.length < counterSize - 1 := by
    rwa [String.length_toList]
  have hcount : countTo? (min offset source.utf8ByteSize) start source.toList = _ :=
    countTo?_eq _ (by change 1 + _ < _; omega) (by change 1 + _ < _; omega)
  have hstart : min offset source.utf8ByteSize - start.offset =
      min offset (Text.size source.toList) := by
    rw [Text.size_toList]
    rfl
  rw [hstart, Text.startingBefore_min] at hcount
  rw [locate?, hcount]
  rfl

end Position

end Letter
