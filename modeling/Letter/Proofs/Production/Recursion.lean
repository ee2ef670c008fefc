import Letter.Proofs.Descent.Simulation
import Letter.Proofs.Grammar.Acceptance
import Mathlib.Logic.Relation

namespace Letter

namespace Recursion

open Production

variable {q : Procedure}

/-- A procedure carries out another without opening a level, if it makes a difference to it what the
other one does. -/
def Calls (q q' : Procedure) : Prop :=
  ∃ (call call' : (q : Procedure) → Production q.Result)
    (deeper : (o : Opening) → Production o.procedure.Result),
    (∀ q'' ≠ q', call q'' = call' q'') ∧ q.body call deeper ≠ q.body call' deeper

theorem Calls.rank_lt {q q' : Procedure} (h : Calls q q') : q'.rank < q.rank := by
  obtain ⟨call, call', deeper, hsame, hne⟩ := h
  refine Decidable.byContradiction fun hle => hne (q.body_congr fun q'' hrank => hsame q'' ?_)
  rintro rfl
  exact hle hrank

/-- Calls that come back to where they began open a level. -/
theorem not_transGen_calls (q : Procedure) : ¬ Relation.TransGen Calls q q := by
  intro h
  have hlt {q q' : Procedure} (h : Relation.TransGen Calls q q') : q'.rank < q.rank := by
    induction h with
    | single h => exact h.rank_lt
    | tail _ h ih => exact Nat.lt_trans h.rank_lt ih
  exact Nat.lt_irrefl _ (hlt h)

/-- What is read one level further in, where so many more levels may be opened. -/
def deeperWithin (limit : Nat) (call : Nat → (q : Procedure) → Production q.Result) :
    (levels : Nat) → (o : Opening) → Production o.procedure.Result
  | 0, _ => object (.nesting limit)
  | levels + 1, o => call levels o.procedure

variable (exhausted : (q : Procedure) → Production q.Result) (limit : Nat)

/-- Runs a procedure with a budget for calls within calls and a number of levels to open. Each call
is left one less than its caller has, and with nothing left it is not carried out. -/
def run : (budget levels : Nat) → (q : Procedure) → Production q.Result
  | 0, _, q => exhausted q
  | budget + 1, levels, q =>
    q.body (run budget levels) (deeperWithin limit (run budget) levels)

theorem run_eq_production {budget levels : Nat} (hbudget : q.rank + 32 * levels ≤ budget) :
    run exhausted limit budget levels q = q.production (.within limit levels) := by
  -- by induction on the budget, since a call within a level has a smaller rank and every
  -- other call opens a level
  induction budget generalizing levels q with
  | zero =>
      have hpos := q.rank_pos
      omega
  | succ budget ih =>
      have hpos := q.rank_pos
      have hsame (q' : Procedure) (hrank : q'.rank < q.rank) :
          run exhausted limit budget levels q' = q'.production (.within limit levels) :=
        ih (by omega)
      have hdeeper : deeperWithin limit (run exhausted limit budget) levels =
          (Nested.within limit levels).opening := by
        funext o
        cases levels with
        | zero => cases o <;> rfl
        | succ levels =>
            have hrank := o.rank_le
            rw [Nested.opening_within_succ, deeperWithin, ih (by omega)]
      rw [run, hdeeper, q.body_congr hsame, q.body_production]

def ofTerminals (budget : Nat) (stuck? : Option Char) (terminals : List Terminal) :
    Except Failure Program :=
  match terminals, stuck? with
  | [], some character => .error ⟨.lexical character, []⟩
  | _, _ => (run exhausted limit budget limit .program stuck? terminals).map (·.1)

/-- Reads a source with a budget for calls within calls. -/
def parseWithin (budget : Nat) (source : String) : Except SourceError Program :=
  let scan := Scan.ofSource source
  (ofTerminals exhausted limit budget scan.stuck? scan.terminals).mapError fun failure =>
    failure.objection.report source (scan.tokenBefore failure.unread.length)

/-- With a budget for 32 calls and for 32 more for every level no source is read any differently,
whatever a call without budget would do, since calls come back to where they began only on a level
further in. -/
theorem parseWithin_eq_and_acyclic (limit : Nat) (source : String) :
    (∀ exhausted : (q : Procedure) → Production q.Result,
      parseWithin exhausted limit (32 * (limit + 1)) source = Program.parseWithin limit source) ∧
    ∀ q, ¬ Relation.TransGen Calls q q := by
  refine ⟨fun exhausted => ?_, not_transGen_calls⟩
  have hbudget : Procedure.program.rank + 32 * limit ≤ 32 * (limit + 1) := by
    change 3 + 32 * limit ≤ _
    omega
  have hprogram : run exhausted limit (32 * (limit + 1)) limit .program = Grammar.program limit :=
    run_eq_production exhausted limit hbudget
  simp only [parseWithin, ofTerminals, hprogram]
  rfl

example : parseWithin (fun _ => .object (.expected "budget")) 2 18 "a;" =
    .error ⟨.unexpectedToken "a" "budget", ⟨1, 1, 0⟩⟩ := by decide +kernel

end Recursion

end Letter
