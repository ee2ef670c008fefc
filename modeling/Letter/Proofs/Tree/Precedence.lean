import Letter.Tree.Expression

namespace Letter

/-- How tightly a connective binds its operands. -/
def Connective.precedence : Connective → Nat
  | logical .or => 0
  | logical .and => 1
  | binary .equal | binary .notEqual => 2
  | binary .greater | binary .greaterOrEqual | binary .less | binary .lessOrEqual => 3
  | binary .add | binary .subtract => 4
  | binary .multiply | binary .divide => 5

@[ext]
structure Row (α : Type) where
  first : α
  others : List (Connective × α)
deriving DecidableEq, Repr

/-- A row of two rows. -/
def Row.join {α : Type} (connective : Connective) (left right : Row α) : Row α :=
  ⟨left.first, left.others ++ (connective, right.first) :: right.others⟩

/-- A tree with operands at its leaves. -/
inductive Grouping (α : Type) where
  | operand (x : α)
  | node (connective : Connective) (left right : Grouping α)
deriving DecidableEq, Repr

namespace Grouping

variable {α : Type}

/-- The operands and connectives of a tree from left to right. -/
def row : Grouping α → Row α
  | operand x => ⟨x, []⟩
  | node connective left right => left.row.join connective right.row

/-- An operand, or a node with at least some precedence. -/
def BindsFrom (bound : Nat) : Grouping α → Prop
  | operand _ => True
  | node connective _ _ => bound ≤ connective.precedence

/-- No node stands below one that binds tighter, nor on the right below one that binds as tight. -/
def Grouped : Grouping α → Prop
  | operand _ => True
  | node connective left right =>
    (left.Grouped ∧ left.BindsFrom connective.precedence) ∧
      (right.Grouped ∧ right.BindsFrom (connective.precedence + 1))

theorem BindsFrom.mono {bound bound' : Nat} {t : Grouping α} (h : t.BindsFrom bound')
    (hle : bound ≤ bound') : t.BindsFrom bound := by
  cases t with
  | operand => trivial
  | node => exact Nat.le_trans hle h

theorem bindsFrom_zero (t : Grouping α) : t.BindsFrom 0 := by
  cases t with
  | operand => trivial
  | node connective => exact Nat.zero_le connective.precedence

end Grouping

namespace Row

open Grouping

variable {α : Type} {bound : Nat} {left : Grouping α} {connective : Connective} {x : α}
  {rest : List (Connective × α)}

/-- Builds on a tree with what follows it, as far as the connectives bind from some precedence on.
Gives the tree and what is left. -/
def climbWithin (bound : Nat) (left : Grouping α) (rest : List (Connective × α)) :
    { result : Grouping α × List (Connective × α) // result.2.length ≤ rest.length } :=
  match rest with
  | [] => ⟨(left, []), Nat.le_refl _⟩
  | (connective, x) :: rest =>
    if bound ≤ connective.precedence then
      let ⟨(right, middle), hmiddle⟩ :=
        climbWithin (connective.precedence + 1) (.operand x) rest
      let ⟨result, hresult⟩ := climbWithin bound (.node connective left right) middle
      ⟨result, Nat.le_succ_of_le (Nat.le_trans hresult hmiddle)⟩
    else ⟨(left, (connective, x) :: rest), Nat.le_refl _⟩
termination_by rest.length
decreasing_by
  · exact Nat.lt_succ_self rest.length
  · exact Nat.lt_succ_of_le hmiddle

def climb (bound : Nat) (left : Grouping α) (rest : List (Connective × α)) :
    Grouping α × List (Connective × α) :=
  (climbWithin bound left rest).1

theorem climb_nil : climb bound left [] = (left, []) := by
  rw [climb, climbWithin]

theorem climb_cons : climb bound left ((connective, x) :: rest) =
    if bound ≤ connective.precedence then
      let (right, middle) := climb (connective.precedence + 1) (.operand x) rest
      climb bound (.node connective left right) middle
    else (left, (connective, x) :: rest) := by
  rw [climb, climbWithin]
  split
  · rfl
  · rfl

theorem length_climb_le : (climb bound left rest).2.length ≤ rest.length :=
  (climbWithin bound left rest).2

theorem climb_of_lt (h : ∀ next ∈ rest.head?, next.1.precedence < bound) :
    climb bound left rest = (left, rest) := by
  cases rest with
  | nil => exact climb_nil
  | cons next rest =>
      obtain ⟨connective, x⟩ := next
      rw [climb_cons, if_neg (Nat.not_le_of_lt (h _ rfl))]

/-- A climb along the row of a tree that is grouped comes to the tree. -/
theorem climb_row {t : Grouping α} (ht : t.Grouped) (hbound : t.BindsFrom bound)
    (hrest : ∀ next ∈ rest.head?, t.BindsFrom next.1.precedence) :
    climb bound (.operand t.row.first) (t.row.others ++ rest) = climb bound t rest := by
  induction t generalizing bound rest with
  | operand x => rfl
  | node connective left right ihleft ihright =>
      obtain ⟨⟨hleft, hleft'⟩, hright, hright'⟩ := ht
      have hstop : ∀ next ∈ rest.head?, next.1.precedence < connective.precedence + 1 :=
        fun next hnext => Nat.lt_succ_of_le (hrest next hnext)
      have hoperand : climb (connective.precedence + 1) (.operand right.row.first)
          (right.row.others ++ rest) = (right, rest) :=
        calc
          _ = climb (connective.precedence + 1) right rest :=
            ihright hright hright' fun next hnext => hright'.mono (Nat.le_of_lt (hstop next hnext))
          _ = (right, rest) := climb_of_lt hstop
      calc
        climb bound (.operand left.row.first)
            ((left.row.others ++ (connective, right.row.first) :: right.row.others) ++ rest)
          = climb bound left ((connective, right.row.first) :: (right.row.others ++ rest)) := by
            rw [List.append_assoc]
            exact ihleft hleft (hleft'.mono hbound) fun next hnext => by
              obtain rfl := Option.some.inj hnext
              exact hleft'
        _ = climb bound (.node connective left right) rest := by
            have hle : bound ≤ connective.precedence := hbound
            rw [climb_cons, if_pos hle, hoperand]

/-- What a climb makes of a tree and what follows it. -/
structure Climbed (bound : Nat) (left : Grouping α) (rest : List (Connective × α))
    (result : Grouping α × List (Connective × α)) : Prop where
  grouped : result.1.Grouped
  bindsFrom : result.1.BindsFrom bound
  stops : ∀ next ∈ result.2.head?, next.1.precedence < bound
  first_eq : result.1.row.first = left.row.first
  others_eq : result.1.row.others ++ result.2 = left.row.others ++ rest

theorem Climbed.node {right : Grouping α} {middle : List (Connective × α)}
    {result : Grouping α × List (Connective × α)}
    (hright : Climbed (connective.precedence + 1) (.operand x) rest (right, middle))
    (hresult : Climbed bound (.node connective left right) middle result) :
    Climbed bound left ((connective, x) :: rest) result := by
  refine ⟨hresult.grouped, hresult.bindsFrom, hresult.stops, hresult.first_eq, ?_⟩
  have hfirst : right.row.first = x := hright.first_eq
  have hothers : right.row.others ++ middle = rest := hright.others_eq
  calc
    _ = (left.row.others ++ (connective, right.row.first) :: right.row.others) ++ middle :=
      hresult.others_eq
    _ = left.row.others ++ (connective, x) :: rest := by
      rw [List.append_assoc, List.cons_append, hfirst, hothers]

theorem climbed (hleft : left.Grouped) (hbound : left.BindsFrom bound)
    (hrest : ∀ next ∈ rest.head?, left.BindsFrom next.1.precedence) :
    Climbed bound left rest (climb bound left rest) := by
  -- what is left gets shorter with each connective
  induction hlength : rest.length using Nat.strongRecOn generalizing bound left rest with
  | ind n ih =>
      cases rest with
      | nil =>
          rw [climb_nil]
          exact ⟨hleft, hbound, nofun, rfl, rfl⟩
      | cons next rest =>
          obtain ⟨connective, x⟩ := next
          rw [climb_cons]
          split
          case isTrue hle =>
            have hright : Climbed (connective.precedence + 1) (.operand x) rest _ :=
              ih rest.length (hlength ▸ Nat.lt_succ_self _) trivial trivial (fun _ _ => trivial) rfl
            have hmiddle : (climb (connective.precedence + 1) (.operand x) rest).2.length < n :=
              hlength ▸ Nat.lt_succ_of_le length_climb_le
            generalize climb (connective.precedence + 1) (.operand x) rest = tighter
              at hright hmiddle ⊢
            obtain ⟨right, middle⟩ := tighter
            have hnode : (Grouping.node connective left right).Grouped :=
              ⟨⟨hleft, hrest _ rfl⟩, hright.grouped, hright.bindsFrom⟩
            exact hright.node <| ih middle.length hmiddle hnode hle
              (fun next hnext => Nat.le_of_lt_succ (hright.stops next hnext)) rfl
          case isFalse hlt =>
            refine ⟨hleft, hbound, fun next hnext => ?_, rfl, rfl⟩
            obtain rfl := Option.some.inj hnext
            exact Nat.lt_of_not_le hlt

/-- The tree that a climb along all of a row comes to. -/
def grouping (row : Row α) : Grouping α :=
  (climb 0 (.operand row.first) row.others).1

/-- There is one tree that is grouped and has a given row. -/
theorem grouping_eq_iff {row : Row α} {t : Grouping α} :
    row.grouping = t ↔ t.row = row ∧ t.Grouped := by
  constructor
  · rintro rfl
    have hclimbed : Climbed 0 (.operand row.first) row.others _ :=
      climbed trivial trivial fun _ _ => trivial
    -- no connective binds too loosely for a climb along all of the row
    have hend : (climb 0 (.operand row.first) row.others).2 = [] := by
      refine List.head?_eq_none_iff.mp (Option.eq_none_iff_forall_not_mem.mpr fun next hnext => ?_)
      exact Nat.not_lt_zero _ (hclimbed.stops next hnext)
    have hothers := hclimbed.others_eq
    rw [hend, List.append_nil] at hothers
    exact ⟨Row.ext hclimbed.first_eq hothers, hclimbed.grouped⟩
  · rintro ⟨rfl, ht⟩
    have hclimb : climb 0 (.operand t.row.first) (t.row.others ++ []) = climb 0 t [] :=
      climb_row ht t.bindsFrom_zero nofun
    rw [List.append_nil, climb_nil] at hclimb
    rw [grouping, hclimb]

end Row

end Letter
