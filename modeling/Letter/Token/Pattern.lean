import Letter.Text.Blank
import Letter.Text.WordCharacter

/-!
The shapes of text that the lexical rules recognize. A pattern splits a text into the part that
it matches, which begins the text, and the rest.
-/

namespace Letter

/-- What follows `front` in a text that begins with it. -/
def Text.following? : List Char → List Char → Option (List Char)
  | [], cs => some cs
  | _ :: _, [] => none
  | f :: front, c :: cs => if f = c then following? front cs else none

theorem Text.following?_eq_some {front cs rest : List Char} :
    following? front cs = some rest ↔ cs = front ++ rest := by
  fun_induction following? front cs with
  | case1 cs => simp [eq_comm]
  | case2 => simp
  | case3 f front cs ih => simp [ih]
  | case4 f front c cs h => simp [Ne.symm h]

inductive Pattern where
  /-- One or more blanks. -/
  | blanks
  /-- Two slashes and the rest of the line. -/
  | lineComment
  /-- All from `/*` to the first `*/`. -/
  | blockComment
  /-- The first of some spellings with which the text begins. -/
  | spelled (spellings : List String)
  /-- A spelling that no word character follows. -/
  | word (spelling : String)
  /-- One or more decimal digits. -/
  | digits
  /-- One or more letters, digits and underscores. -/
  | name
  /-- All from a quote to its next occurrence. -/
  | quoted (quote : Char)
deriving DecidableEq, Repr

namespace Pattern

/-- Splits off the characters with a property that begin the text, if there are any. -/
def splitRun? (p : Char → Bool) (cs : List Char) : Option (List Char × List Char) :=
  if cs.head?.any p then some (cs.takeWhile p, cs.dropWhile p) else none

/-- Splits off the first spelling with which the text begins. -/
def splitSpelled? : List String → List Char → Option (List Char × List Char)
  | [], _ => none
  | s :: spellings, cs =>
    match Text.following? s.toList cs with
    | some rest => some (s.toList, rest)
    | none => splitSpelled? spellings cs

/-- Splits behind the first `*/`. -/
def splitClosed? : List Char → Option (List Char × List Char)
  | '*' :: '/' :: rest => some (['*', '/'], rest)
  | c :: cs => (splitClosed? cs).map fun (comment, rest) => (c :: comment, rest)
  | [] => none

/-- Splits behind the first occurrence of a quote. -/
def splitQuoted? (quote : Char) (cs : List Char) : Option (List Char × List Char) :=
  match cs.dropWhile (· != quote) with
  | [] => none
  | close :: rest => some (cs.takeWhile (· != quote) ++ [close], rest)

/-- The part of a text that a pattern matches, and the rest. -/
def split? : Pattern → List Char → Option (List Char × List Char)
  | blanks, cs => splitRun? Text.isBlank cs
  | lineComment, cs =>
    (Text.following? ['/', '/'] cs).map fun line =>
      ('/' :: '/' :: line.takeWhile (· != '\n'), line.dropWhile (· != '\n'))
  | blockComment, cs =>
    (Text.following? ['/', '*'] cs).bind fun text =>
      (splitClosed? text).map fun (comment, rest) => ('/' :: '*' :: comment, rest)
  | spelled spellings, cs => splitSpelled? spellings cs
  | word spelling, cs =>
    match Text.following? spelling.toList cs with
    | none => none
    | some rest =>
      if rest.head?.any Text.isWordCharacter then none else some (spelling.toList, rest)
  | digits, cs => splitRun? Char.isDigit cs
  | name, cs => splitRun? Text.isNameCharacter cs
  | quoted quote, cs =>
    (Text.following? [quote] cs).bind fun text =>
      (splitQuoted? quote text).map fun (body, rest) => (quote :: body, rest)

theorem append_of_splitRun? {p : Char → Bool} {cs run rest : List Char}
    (h : splitRun? p cs = some (run, rest)) : cs = run ++ rest := by
  rw [splitRun?] at h
  split at h
  · obtain ⟨rfl, rfl⟩ := by simpa using h
    exact List.takeWhile_append_dropWhile.symm
  · simp at h

theorem append_of_splitSpelled? {spellings : List String} {cs lexeme rest : List Char}
    (h : splitSpelled? spellings cs = some (lexeme, rest)) : cs = lexeme ++ rest := by
  fun_induction splitSpelled? spellings cs with
  | case1 => simp at h
  | case2 s _ cs rest' hs =>
      obtain ⟨rfl, rfl⟩ := by simpa using h
      exact Text.following?_eq_some.mp hs
  | case3 _ _ _ _ ih => exact ih h

theorem append_of_splitClosed? {cs comment rest : List Char}
    (h : splitClosed? cs = some (comment, rest)) : cs = comment ++ rest := by
  fun_induction splitClosed? cs generalizing comment with
  | case1 =>
      obtain ⟨rfl, rfl⟩ := by simpa using h
      rfl
  | case2 c cs _ ih =>
      obtain ⟨⟨comment', rest'⟩, hs, heq⟩ := Option.map_eq_some_iff.mp h
      obtain ⟨rfl, rfl⟩ := by simpa using heq
      simp [ih hs]
  | case3 => simp at h

theorem append_of_splitQuoted? {quote : Char} {cs text rest : List Char}
    (h : splitQuoted? quote cs = some (text, rest)) : cs = text ++ rest := by
  rw [splitQuoted?] at h
  split at h
  · simp at h
  · rename_i close rest' heq
    obtain ⟨rfl, rfl⟩ := by simpa using h
    rw [List.append_assoc, List.singleton_append, ← heq, List.takeWhile_append_dropWhile]

/-- No spelling is empty. -/
def Proper : Pattern → Prop
  | spelled spellings => ∀ s ∈ spellings, s.toList ≠ []
  | word spelling => spelling.toList ≠ []
  | _ => True

instance : DecidablePred Proper
  | spelled spellings => inferInstanceAs (Decidable (∀ s ∈ spellings, s.toList ≠ []))
  | word spelling => inferInstanceAs (Decidable (spelling.toList ≠ []))
  | blanks | lineComment | blockComment | digits | name | quoted _ =>
    inferInstanceAs (Decidable True)

theorem ne_nil_of_splitRun? {p : Char → Bool} {cs run rest : List Char}
    (h : splitRun? p cs = some (run, rest)) : run ≠ [] := by
  rw [splitRun?] at h
  split at h
  · rename_i hp
    obtain ⟨rfl, rfl⟩ := by simpa using h
    cases cs with
    | nil => simp at hp
    | cons c cs => simp_all
  · simp at h

theorem mem_of_splitSpelled? {spellings : List String} {cs lexeme rest : List Char}
    (h : splitSpelled? spellings cs = some (lexeme, rest)) :
    ∃ s ∈ spellings, s.toList = lexeme := by
  fun_induction splitSpelled? spellings cs with
  | case1 => simp at h
  | case2 s _ _ rest' hs =>
      obtain ⟨rfl, rfl⟩ := by simpa using h
      exact ⟨s, by simp, rfl⟩
  | case3 s _ _ _ ih =>
      obtain ⟨s', hs', heq⟩ := ih h
      exact ⟨s', by simp [hs'], heq⟩

theorem ne_nil_of_split? {pattern : Pattern} (hproper : pattern.Proper)
    {cs lexeme rest : List Char} (h : pattern.split? cs = some (lexeme, rest)) : lexeme ≠ [] := by
  cases pattern with
  | blanks | digits | name => exact ne_nil_of_splitRun? h
  | spelled spellings =>
      obtain ⟨s, hs, rfl⟩ := mem_of_splitSpelled? h
      exact hproper s hs
  | lineComment =>
      obtain ⟨line, -, heq⟩ := Option.map_eq_some_iff.mp h
      obtain ⟨rfl, -⟩ := by simpa using heq
      simp
  | blockComment =>
      obtain ⟨text, -, hmap⟩ := Option.bind_eq_some_iff.mp h
      obtain ⟨split, -, heq⟩ := Option.map_eq_some_iff.mp hmap
      obtain ⟨rfl, -⟩ := by simpa using heq
      simp
  | word spelling =>
      rw [split?] at h
      split at h
      · simp at h
      · split at h
        · simp at h
        · obtain ⟨rfl, -⟩ := by simpa using h
          exact hproper
  | quoted quote =>
      obtain ⟨text, -, hmap⟩ := Option.bind_eq_some_iff.mp h
      obtain ⟨split, -, heq⟩ := Option.map_eq_some_iff.mp hmap
      obtain ⟨rfl, -⟩ := by simpa using heq
      simp

theorem append_of_split? {pattern : Pattern} {cs lexeme rest : List Char}
    (h : pattern.split? cs = some (lexeme, rest)) : cs = lexeme ++ rest := by
  cases pattern with
  | blanks | digits | name => exact append_of_splitRun? h
  | spelled => exact append_of_splitSpelled? h
  | lineComment =>
      obtain ⟨line, hline, heq⟩ := Option.map_eq_some_iff.mp h
      obtain ⟨rfl, rfl⟩ := by simpa using heq
      simp [Text.following?_eq_some.mp hline]
  | blockComment =>
      obtain ⟨text, htext, hmap⟩ := Option.bind_eq_some_iff.mp h
      obtain ⟨⟨comment, rest'⟩, hsplit, heq⟩ := Option.map_eq_some_iff.mp hmap
      obtain ⟨rfl, rfl⟩ := by simpa using heq
      simp [Text.following?_eq_some.mp htext, append_of_splitClosed? hsplit]
  | word spelling =>
      rw [split?] at h
      split at h
      · simp at h
      · rename_i rest' hrest
        split at h
        · simp at h
        · obtain ⟨rfl, rfl⟩ := by simpa using h
          exact Text.following?_eq_some.mp hrest
  | quoted quote =>
      obtain ⟨text, htext, hmap⟩ := Option.bind_eq_some_iff.mp h
      obtain ⟨⟨body, rest'⟩, hsplit, heq⟩ := Option.map_eq_some_iff.mp hmap
      obtain ⟨rfl, rfl⟩ := by simpa using heq
      simp [Text.following?_eq_some.mp htext, append_of_splitQuoted? hsplit]

end Pattern

end Letter
