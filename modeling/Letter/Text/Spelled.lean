namespace Letter

/-- A finite type of words and signs, each with a spelling of its own. -/
class Spelled (α : Type) where
  all : List α
  spelling : α → String
  mem_all : ∀ a, a ∈ all
  spelling_injective : ∀ a b, spelling a = spelling b → a = b

namespace Spelled

variable {α : Type} [Spelled α]

/-- The element with a given spelling. -/
def ofSpelling? (s : String) : Option α :=
  (all : List α).find? fun a => spelling a == s

theorem ofSpelling?_eq_some_iff {s : String} {a : α} :
    ofSpelling? s = some a ↔ spelling a = s := by
  constructor
  · intro h
    simpa using List.find?_some h
  · rintro rfl
    cases h : (ofSpelling? (spelling a) : Option α) with
    | none =>
        have := List.find?_eq_none.mp h a (mem_all a)
        simp at this
    | some b =>
        have hb : spelling b = spelling a := by simpa using List.find?_some h
        rw [spelling_injective b a hb]

theorem ofSpelling?_eq_none_iff {s : String} :
    (ofSpelling? s : Option α) = none ↔ ∀ a : α, spelling a ≠ s := by
  simp [ofSpelling?, List.find?_eq_none, mem_all]

end Spelled

end Letter
