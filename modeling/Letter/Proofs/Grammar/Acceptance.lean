import Letter.Proofs.Grammar.Completeness
import Letter.Proofs.Grammar.Soundness
import Letter.Proofs.Token.Scanning

namespace Letter

instance decidableEqExcept {ε α : Type} [DecidableEq ε] [DecidableEq α] :
    DecidableEq (Except ε α)
  | .ok a, .ok a' => decidable_of_iff (a = a') (by simp)
  | .error e, .error e' => decidable_of_iff (e = e') (by simp)
  | .ok _, .error _ | .error _, .ok _ => .isFalse nofun

namespace Grammar

open Production

variable {limit : Nat} {stuck? : Option Char} {ts rest : List Terminal} {p : Program}

theorem steady_program (limit : Nat) : (program limit).Steady :=
  (congruence_steady.statements (Nested.within_related_steady limit limit) .endOfInput).1.bind
    fun _ => steady_pure _

theorem eq_nil_of_program_eq_ok (hts : ∀ t ∈ ts, t.kind ≠ .endOfInput)
    (h : program limit stuck? ts = .ok (p, rest)) : rest = [] := by
  have hstrict := (Nested.within_related_steady limit limit).statement
  have hensures : (program limit).Ensures fun _ kind => kind = .endOfInput :=
    .map ((ensures_many hstrict.progresses_left (by simp)).mono fun _ kind h => by simpa using h)
  cases rest with
  | nil => rfl
  | cons t rest =>
      have hmem : t ∈ ts := ((steady_program limit).of_ok h).subset List.mem_cons_self
      exact absurd (hensures.of_ok h) (hts t hmem)

end Grammar

namespace Program

open Grammar Production

variable {limit : Nat} {stuck? : Option Char} {ts : List Terminal} {p : Program}

theorem readable_or (stuck? : Option Char) (ts : List Terminal) :
    (stuck? = none ∨ ts ≠ []) ∨ ∃ character, stuck? = some character ∧ ts = [] := by
  cases stuck? with
  | none => exact .inl (.inl rfl)
  | some character =>
      cases ts with
      | nil => exact .inr ⟨character, rfl, rfl⟩
      | cons t ts => exact .inl (.inr (List.cons_ne_nil t ts))

theorem ofTerminals_eq (h : stuck? = none ∨ ts ≠ []) :
    ofTerminals limit stuck? ts = (program limit stuck? ts).map (·.1) := by
  rcases ts with _ | ⟨t, ts⟩
  · obtain rfl : stuck? = none := by simpa using h
    rfl
  · rfl

theorem program_of_ofTerminals_eq_error {failure : Failure}
    (h : ofTerminals limit stuck? ts = .error failure) :
    program limit stuck? ts = .error failure ∨
      ts = [] ∧ ∃ character, stuck? = some character ∧ failure = ⟨.lexical character, []⟩ := by
  rcases readable_or stuck? ts with hts | ⟨character, rfl, rfl⟩
  · rw [ofTerminals_eq hts] at h
    cases hprogram : program limit stuck? ts with
    | ok result =>
        rw [hprogram] at h
        cases h
    | error failure' =>
        rw [hprogram] at h
        cases h
        exact .inl rfl
  · cases h
    exact .inr ⟨rfl, character, rfl, rfl⟩

theorem unread_suffix_of_ofTerminals {failure : Failure}
    (h : ofTerminals limit stuck? ts = .error failure) : failure.unread <:+ ts := by
  rcases program_of_ofTerminals_eq_error h with hprogram | ⟨rfl, character, -, rfl⟩
  · exact (steady_program limit).of_error hprogram
  · exact List.suffix_refl _

theorem ofTerminals_eq_ok_iff (hts : ∀ t ∈ ts, t.kind ≠ .endOfInput) :
    ofTerminals limit stuck? ts = .ok p ↔
      stuck? = none ∧ program limit none ts = .ok (p, []) := by
  have hmap : (program limit stuck? ts).map (·.1) = .ok p ↔
      program limit stuck? ts = .ok (p, []) := by
    cases hprogram : program limit stuck? ts with
    | error failure => simp [Except.map]
    | ok result =>
        obtain ⟨p', rest⟩ := result
        obtain rfl := eq_nil_of_program_eq_ok hts hprogram
        simp [Except.map]
  rcases stuck? with _ | character
  · cases ts <;> simpa [ofTerminals] using hmap
  · refine iff_of_false (fun h => ?_) (by simp)
    cases ts with
    | nil => cases h
    | cons t ts => cases (steady_program limit).of_ok_nil (hmap.mp h)

/-- Terminals are accepted as what derives from them within the limit. -/
theorem ofTerminals_eq_ok_iff_derives (hts : ∀ t ∈ ts, t.Genuine) :
    ofTerminals limit none ts = .ok p ↔
      ∃ h ≤ limit, Derives (.many .statement) h ts p.body := by
  rw [ofTerminals_eq_ok_iff fun t ht => (hts t ht).kind_ne_endOfInput]
  constructor
  · rintro ⟨-, hok⟩
    obtain ⟨h, read, hle, heq, body, rfl, hbody⟩ := (reads_program limit).sound rfl hts hok
    rw [List.append_nil] at heq
    exact ⟨h, hle, heq ▸ hbody⟩
  · rintro ⟨h, hle, hbody⟩
    have hstatements : (statements (.within limit limit) .endOfInput).Consumes ts p.body [] :=
      (hbody.completes limit).statements hle rfl nofun rfl
    have hprogram : (program limit).Consumes ts p [] := hstatements.map
    rw [Consumes, List.append_nil] at hprogram
    exact ⟨rfl, hprogram⟩

theorem parseWithin_eq_ok_iff {source : String} :
    parseWithin limit source = .ok p ↔
      ofTerminals limit (Scan.ofSource source).stuck? (Scan.ofSource source).terminals = .ok p := by
  rw [parseWithin]
  cases ofTerminals limit (Scan.ofSource source).stuck? (Scan.ofSource source).terminals with
  | ok p' =>
      constructor
      · intro h
        rw [Except.ok.inj h]
      · intro h
        rw [Except.ok.inj h]
        rfl
  | error failure => constructor <;> intro h <;> cases h

theorem parseWithin_eq_error_iff {source : String} {e : SourceError} :
    parseWithin limit source = .error e ↔ ∃ failure : Failure,
      ofTerminals limit (Scan.ofSource source).stuck? (Scan.ofSource source).terminals =
        .error failure ∧
      e = failure.objection.report source
        ((Scan.ofSource source).tokenBefore failure.unread.length) := by
  rw [parseWithin]
  cases ofTerminals limit (Scan.ofSource source).stuck? (Scan.ofSource source).terminals with
  | ok p =>
      constructor
      · intro h
        cases h
      · rintro ⟨failure, h, -⟩
        cases h
  | error failure =>
      constructor
      · intro h
        exact ⟨failure, rfl, (Except.error.inj h).symm⟩
      · rintro ⟨failure', h, rfl⟩
        obtain rfl := Except.error.inj h
        rfl

theorem derives_of_parseWithin_eq_ok {source : String} (h : parseWithin limit source = .ok p) :
    ∃ height ≤ limit,
      Derives (.many .statement) height (Scan.ofSource source).terminals p.body := by
  have hok := parseWithin_eq_ok_iff.mp h
  have hstuck := ((ofTerminals_eq_ok_iff Scan.kind_ne_endOfInput_of_mem_terminals).mp hok).1
  rw [hstuck] at hok
  exact (ofTerminals_eq_ok_iff_derives (Scan.genuine_of_mem_terminals hstuck)).mp hok

theorem parseWithin_spaced {height : Nat} (hbody : Derives (.many .statement) height ts p.body)
    (hle : height ≤ limit) : parseWithin limit (.ofList (Terminal.spaced ts)) = .ok p := by
  obtain ⟨hterminals, hstuck⟩ := Scan.ofSource_spaced hbody.genuine
  rw [parseWithin_eq_ok_iff, hterminals, hstuck, ofTerminals_eq_ok_iff_derives hbody.genuine]
  exact ⟨height, hle, hbody⟩

/-- A source in which every character belongs to a token or between tokens is accepted within a
limit if and only if its terminals derive the program with no more levels than that. -/
theorem parseWithin_eq_ok_iff_derives {source : String}
    (hsource : (Scan.ofSource source).stuck? = none) :
    parseWithin limit source = .ok p ↔
      ∃ h ≤ limit, Derives (.many .statement) h (Scan.ofSource source).terminals p.body := by
  rw [parseWithin_eq_ok_iff, hsource]
  exact ofTerminals_eq_ok_iff_derives (Scan.genuine_of_mem_terminals hsource)

theorem exists_derives_nearest_else :
    (Scan.ofSource "if (a) if (b) ; else ;").stuck? = none ∧
      ∃ h ≤ 3, Derives (.many .statement) h (Scan.ofSource "if (a) if (b) ; else ;").terminals
        [.conditional (.identifier ⟨"a"⟩)
          (.conditional (.identifier ⟨"b"⟩) .empty (some .empty)) none] :=
  ⟨by decide +kernel,
    (parseWithin_eq_ok_iff_derives (p := ⟨_⟩) (by decide +kernel)).mp (by decide +kernel)⟩

end Program

end Letter
