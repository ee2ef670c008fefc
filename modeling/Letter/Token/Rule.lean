import Letter.Text.Position
import Letter.Token.Basic
import Letter.Token.Pattern

/-!
The lexical rules and the cutting of a text into the pieces that they match, blanks and comments
among them. The first rule that matches wins, so keywords stand before names and longer operators
before their beginnings.
-/

namespace Letter

/-- A pattern and the kind of token that it makes, or no kind for what only separates tokens. -/
structure Rule where
  pattern : Pattern
  kind? : Option TokenKind
deriving DecidableEq, Repr

/-- A stretch of text matched by one rule. -/
structure Piece where
  kind? : Option TokenKind
  text : List Char
deriving DecidableEq, Repr

/-- The length of a piece in bytes. -/
def Piece.size (piece : Piece) : Nat :=
  Text.size piece.text

namespace Rule

def separators : List Rule :=
  [⟨.blanks, none⟩, ⟨.lineComment, none⟩, ⟨.blockComment, none⟩]

def punctuators : List Rule :=
  Punctuator.all.map fun p => ⟨.spelled [p.spelling], some (.punctuator p)⟩

def keywords : List Rule :=
  Keyword.all.map fun k => ⟨.word k.spelling, some (.keyword k)⟩

def words : List Rule :=
  [⟨.digits, some .number⟩, ⟨.name, some .identifier⟩]

def operators : List Rule :=
  [⟨.spelled ["==", "!="], some .equalityOperator⟩,
   ⟨.spelled ["="], some .simpleAssign⟩,
   ⟨.spelled ["*=", "/=", "+=", "-="], some .complexAssign⟩,
   ⟨.spelled ["+", "-"], some .additiveOperator⟩,
   ⟨.spelled ["*", "/"], some .multiplicativeOperator⟩,
   ⟨.spelled [">=", "<=", ">", "<"], some .relationalOperator⟩,
   ⟨.spelled ["&&"], some .logicalAnd⟩,
   ⟨.spelled ["||"], some .logicalOr⟩,
   ⟨.spelled ["!"], some .logicalNot⟩]

def strings : List Rule :=
  [⟨.quoted '"', some .string⟩, ⟨.quoted '\'', some .string⟩]

/-- All rules, in the order in which they are tried. -/
def all : List Rule :=
  separators ++ punctuators ++ keywords ++ words ++ operators ++ strings

/-- The piece that a rule matches at the front of a text, and the rest. -/
def cut? (rule : Rule) (cs : List Char) : Option (Piece × List Char) :=
  (rule.pattern.split? cs).map fun (text, rest) => (⟨rule.kind?, text⟩, rest)

theorem proper_of_mem_all {rule : Rule} (h : rule ∈ all) : rule.pattern.Proper := by
  revert rule
  decide

end Rule

namespace Piece

/-- The piece that the first matching rule finds at the front of a text, and the rest. -/
def first? (cs : List Char) : Option (Piece × List Char) :=
  Rule.all.findSome? fun rule => rule.cut? cs

theorem append_of_first? {cs rest : List Char} {piece : Piece}
    (h : first? cs = some (piece, rest)) : cs = piece.text ++ rest := by
  obtain ⟨rule, -, hrule⟩ := List.exists_of_findSome?_eq_some h
  obtain ⟨⟨text, rest'⟩, hsplit, heq⟩ := Option.map_eq_some_iff.mp hrule
  obtain ⟨rfl, rfl⟩ := by simpa using heq
  exact Pattern.append_of_split? hsplit

theorem ne_nil_of_first? {cs rest : List Char} {piece : Piece}
    (h : first? cs = some (piece, rest)) : piece.text ≠ [] := by
  obtain ⟨rule, hmem, hrule⟩ := List.exists_of_findSome?_eq_some h
  obtain ⟨⟨text, rest'⟩, hsplit, heq⟩ := Option.map_eq_some_iff.mp hrule
  obtain ⟨rfl, rfl⟩ := by simpa using heq
  exact Pattern.ne_nil_of_split? (Rule.proper_of_mem_all hmem) hsplit

theorem length_lt_of_first? {cs rest : List Char} {piece : Piece}
    (h : first? cs = some (piece, rest)) : rest.length < cs.length := by
  have hpos := List.length_pos_iff.mpr (ne_nil_of_first? h)
  rw [append_of_first? h, List.length_append]
  omega

/-- Cuts at most as many pieces off a text as `bound` has characters. -/
def cutWithin : (bound : List Char) → List Char → List Piece × List Char
  | [], cs => ([], cs)
  | _ :: bound, cs =>
    match first? cs with
    | none => ([], cs)
    | some (piece, rest) =>
      let (pieces, stuck) := cutWithin bound rest
      (piece :: pieces, stuck)

/-- Cuts a text into pieces as far as the rules match. A piece has at least one character, so the
text has no more pieces than characters. -/
def cut (cs : List Char) : List Piece × List Char :=
  cutWithin cs cs

theorem cutWithin_eq_cutWithin {bound bound' cs : List Char} (h : cs.length ≤ bound.length)
    (h' : cs.length ≤ bound'.length) : cutWithin bound cs = cutWithin bound' cs := by
  induction bound generalizing bound' cs with
  | nil =>
      obtain rfl := List.length_eq_zero_iff.mp (Nat.le_zero.mp h)
      cases bound' with
      | nil => rfl
      | cons _ bound' => rfl
  | cons _ bound ih =>
      cases bound' with
      | nil =>
          obtain rfl := List.length_eq_zero_iff.mp (Nat.le_zero.mp h')
          rfl
      | cons _ bound' =>
          rw [cutWithin, cutWithin]
          cases hfirst : first? cs with
          | none => rfl
          | some result =>
              obtain ⟨piece, rest⟩ := result
              have hlt := length_lt_of_first? hfirst
              simp only [List.length_cons] at h h'
              have heq : cutWithin bound rest = cutWithin bound' rest := ih (by omega) (by omega)
              simp only [heq]

theorem cut_of_first?_eq_none {cs : List Char} (h : first? cs = none) : cut cs = ([], cs) := by
  cases cs with
  | nil => rfl
  | cons c cs => simp [cut, cutWithin, h]

theorem cut_of_first?_eq_some {cs rest : List Char} {piece : Piece}
    (h : first? cs = some (piece, rest)) :
    cut cs = (piece :: (cut rest).1, (cut rest).2) := by
  have hlt := length_lt_of_first? h
  cases cs with
  | nil => simp at hlt
  | cons c cs =>
      have heq : cutWithin cs rest = cutWithin rest rest :=
        cutWithin_eq_cutWithin (Nat.le_of_lt_succ hlt) (Nat.le_refl _)
      simp only [cut, cutWithin, h, heq]

theorem append_of_cutWithin (bound cs : List Char) :
    (cutWithin bound cs).1.flatMap text ++ (cutWithin bound cs).2 = cs := by
  induction bound generalizing cs with
  | nil => simp [cutWithin]
  | cons _ bound ih =>
      rw [cutWithin]
      split
      · simp
      · rename_i piece rest h
        simp only [List.flatMap_cons, List.append_assoc, ih]
        exact (append_of_first? h).symm

theorem append_of_cut (cs : List Char) : (cut cs).1.flatMap text ++ (cut cs).2 = cs :=
  append_of_cutWithin cs cs

end Piece

end Letter
