import Letter.Proofs.Json.Writing
import Letter.Proofs.Text.Character

namespace Letter.Json

section Strings

def hexValue? (c : Char) : Option Nat :=
  if c.isDigit then some (c.toNat - '0'.toNat)
  else if 'a' ≤ c ∧ c ≤ 'f' then some (c.toNat - 'a'.toNat + 10)
  else if 'A' ≤ c ∧ c ≤ 'F' then some (c.toNat - 'A'.toNat + 10)
  else none

/-- The character with a code of four hexadecimal digits. Halves of characters are not read. -/
def unicode? (a b c d : Char) : Option Char := do
  let code := (((← hexValue? a) * 16 + (← hexValue? b)) * 16 + (← hexValue? c)) * 16 +
    (← hexValue? d)
  if code.isValidChar then return Char.ofNat code else none

/-- The character for which a letter or sign behind a backslash stands. -/
def unescaped? : Char → Option Char
  | '"' => some '"'
  | '\\' => some '\\'
  | '/' => some '/'
  | 'b' => some '\x08'
  | 'f' => some '\x0c'
  | 'n' => some '\n'
  | 'r' => some '\r'
  | 't' => some '\t'
  | _ => none

/-- The characters up to the closing quote of a string, and the text behind it. -/
def readCharacters? : List Char → Option (List Char × List Char)
  | [] => none
  | '"' :: cs => some ([], cs)
  | '\\' :: 'u' :: a :: b :: c :: d :: cs => do
    let first ← unicode? a b c d
    let (others, rest) ← readCharacters? cs
    return (first :: others, rest)
  | '\\' :: c :: cs => do
    let first ← unescaped? c
    let (others, rest) ← readCharacters? cs
    return (first :: others, rest)
  | c :: cs => do
    let (others, rest) ← readCharacters? cs
    if 0x20 ≤ c.toNat then return (c :: others, rest) else none

def readString? : List Char → Option (String × List Char)
  | '"' :: cs => (readCharacters? cs).map fun result => (.ofList result.1, result.2)
  | _ => none

theorem hexValue?_digitChar : ∀ n < 16, hexValue? (Nat.digitChar n) = some n := by
  decide

theorem unicode?_digitChar {c : Char} (h : c.toNat < 0x20) :
    unicode? '0' '0' (Nat.digitChar (c.toNat / 16)) (Nat.digitChar (c.toNat % 16)) = some c := by
  have hzero : hexValue? '0' = some 0 := rfl
  have hhigh := hexValue?_digitChar (c.toNat / 16) (by omega)
  have hlow := hexValue?_digitChar (c.toNat % 16) (by omega)
  have hcode : ((0 * 16 + 0) * 16 + c.toNat / 16) * 16 + c.toNat % 16 = c.toNat := by omega
  have hvalid : c.toNat.isValidChar := c.valid
  simp only [unicode?, hzero, hhigh, hlow, Option.bind_eq_bind, Option.bind_some, hcode,
    if_pos hvalid, Char.ofNat_toNat]
  rfl

theorem readCharacters?_escaped (c : Char) (cs : List Char) :
    readCharacters? (escaped c ++ cs) =
      (readCharacters? cs).map fun result => (c :: result.1, result.2) := by
  unfold escaped
  split
  case h_8 hquote hbackslash _ _ _ _ _ =>
    split
    · rename_i hcontrol
      simp only [List.cons_append, List.nil_append, readCharacters?, unicode?_digitChar hcontrol]
      cases readCharacters? cs <;> rfl
    · rename_i hplain
      have hprinted : 0x20 ≤ c.toNat := by omega
      have hbackslash' : c ≠ '\\' := hbackslash
      cases hread : readCharacters? cs <;>
        simp [readCharacters?, hbackslash', hprinted, hread]
  all_goals
    cases hread : readCharacters? cs <;> simp [readCharacters?, unescaped?, hread]

theorem readString?_writeString (s : String) (after : List Char) :
    readString? (writeString s after) = some (s, after) := by
  have hread (cs : List Char) :
      readCharacters? (cs.flatMap escaped ++ '"' :: after) = some (cs, after) := by
    induction cs with
    | nil => rfl
    | cons c cs ih => rw [List.flatMap_cons, List.append_assoc, readCharacters?_escaped, ih]; rfl
  rw [writeString, readString?, hread, Option.map_some, String.ofList_toList]

end Strings

section Values

def isBlank (c : Char) : Bool :=
  c == ' ' || c == '\n' || c == '\r' || c == '\t'

def isNumberCharacter (c : Char) : Bool :=
  c.isDigit || c == '-' || c == '+' || c == '.' || c == 'e' || c == 'E'

/-- A number, which is taken as it is written. -/
def readNumber (cs : List Char) : Json × List Char :=
  (.number (cs.takeWhile isNumberCharacter), cs.dropWhile isNumberCharacter)

variable {α : Type}

/-- Items with commas in front up to a closing sign, and the text behind it. -/
def readRest? (close : Char) (item? : List Char → Option (α × List Char)) :
    (bound : Nat) → List Char → Option (List α × List Char)
  | 0, _ => none
  | bound + 1, cs =>
    match cs.dropWhile isBlank with
    | [] => none
    | c :: cs =>
      if c = close then some ([], cs)
      else if c = ',' then do
        let (first, cs) ← item? cs
        let (others, cs) ← readRest? close item? bound cs
        return (first :: others, cs)
      else none

/-- Items with commas between them up to a closing sign, and the text behind it. -/
def readList? (close : Char) (item? : List Char → Option (α × List Char)) (cs : List Char) :
    Option (List α × List Char) :=
  match cs.dropWhile isBlank with
  | [] => none
  | c :: rest =>
    if c = close then some ([], rest)
    else do
      let (first, cs) ← item? (c :: rest)
      let (others, cs) ← readRest? close item? (cs.length + 1) cs
      return (first :: others, cs)

/-- A name, a colon and a value. -/
def readField? (value? : List Char → Option (Json × List Char)) (cs : List Char) :
    Option ((String × Json) × List Char) := do
  let (name, cs) ← readString? (cs.dropWhile isBlank)
  match cs.dropWhile isBlank with
  | ':' :: cs => do
    let (value, cs) ← value? cs
    return ((name, value), cs)
  | _ => none

/-- A value in which at most `depth` arrays and objects are open at a time, and the text behind
it. -/
def readValue? : (depth : Nat) → List Char → Option (Json × List Char)
  | 0, _ => none
  | depth + 1, cs =>
    match cs.dropWhile isBlank with
    | [] => none
    | c :: rest =>
      if c = '-' ∨ c.isDigit then some (readNumber (c :: rest))
      else
        match c, rest with
        | 'n', 'u' :: 'l' :: 'l' :: cs => some (.null, cs)
        | 't', 'r' :: 'u' :: 'e' :: cs => some (.boolean true, cs)
        | 'f', 'a' :: 'l' :: 's' :: 'e' :: cs => some (.boolean false, cs)
        | '"', cs => (readString? ('"' :: cs)).map fun result => (.string result.1, result.2)
        | '[', cs =>
          (readList? ']' (readValue? depth) cs).map fun result => (.array result.1, result.2)
        | '{', cs =>
          (readList? '}' (readField? (readValue? depth)) cs).map fun result =>
            (.object result.1, result.2)
        | _, _ => none

/-- The value of a whole text. No text opens more arrays and objects than it has characters. -/
def read? (text : String) : Option Json :=
  match readValue? (text.length + 1) text.toList with
  | some (value, rest) => if rest.all isBlank then some value else none
  | none => none

end Values

section Reading

mutual

/-- How many arrays and objects are open at a time. -/
def depth : Json → Nat
  | array items => itemsDepth items + 1
  | object fields => fieldsDepth fields + 1
  | _ => 0

def itemsDepth : List Json → Nat
  | [] => 0
  | item :: items => max item.depth (itemsDepth items)

def fieldsDepth : List (String × Json) → Nat
  | [] => 0
  | (_, value) :: fields => max value.depth (fieldsDepth fields)

end

/-- A text that does not go on with a number. -/
def Ends (after : List Char) : Prop :=
  after.head?.any isNumberCharacter = false

theorem isNumberCharacter_of_isDigits {cs : List Char} (h : IsDigits cs) :
    ∀ c ∈ cs, isNumberCharacter c := by
  intro c hc
  simp [isNumberCharacter, h.isDigit c hc]

theorem isNumberCharacter_of_isNumber {cs : List Char} (h : IsNumber cs) :
    ∀ c ∈ cs, isNumberCharacter c := by
  obtain ⟨hsign, hwhole, hfraction, hexponent⟩ := h
  simp only [List.forall_mem_append]
  refine ⟨⟨⟨?_, isNumberCharacter_of_isDigits hwhole.toIsDigits⟩, ?_⟩, ?_⟩
  · rcases hsign with rfl | rfl
    · exact List.forall_mem_nil _
    · exact List.forall_mem_singleton.mpr rfl
  · cases hfraction with
    | none => exact List.forall_mem_nil _
    | digits hdigits =>
        exact List.forall_mem_cons.mpr ⟨rfl, isNumberCharacter_of_isDigits hdigits⟩
  · cases hexponent with
    | none => exact List.forall_mem_nil _
    | digits hmarker hsign hdigits =>
        refine List.forall_mem_cons.mpr ⟨?_, List.forall_mem_append.mpr ⟨?_, ?_⟩⟩
        · rcases hmarker with rfl | rfl <;> rfl
        · rcases hsign with rfl | rfl | rfl
          · exact List.forall_mem_nil _
          all_goals exact List.forall_mem_singleton.mpr rfl
        · exact isNumberCharacter_of_isDigits hdigits

theorem exists_cons_of_isNumber {cs : List Char} (h : IsNumber cs) :
    ∃ c rest, cs = c :: rest ∧ (c = '-' ∨ c.isDigit) := by
  obtain ⟨hsign, hwhole, hfraction, hexponent⟩ := h
  obtain ⟨c, cs, rfl⟩ := List.exists_cons_of_ne_nil hwhole.ne_nil
  rcases hsign with rfl | rfl
  · exact ⟨c, _, rfl, .inr (hwhole.isDigit c List.mem_cons_self)⟩
  · exact ⟨'-', _, rfl, .inl rfl⟩

theorem isBlank_eq_false_of_isDigit {c : Char} (h : c.isDigit) : isBlank c = false := by
  refine Bool.eq_false_iff.mpr fun hblank => ?_
  simp only [isBlank, Bool.or_eq_true, beq_iff_eq] at hblank
  rcases hblank with ((rfl | rfl) | rfl) | rfl <;> cases h

theorem exists_cons_of_write {json : Json} (h : json.WellFormed) (after : List Char) :
    ∃ c rest, json.write after = c :: rest ∧ isBlank c = false ∧ c ≠ ']' := by
  cases json with
  | number text =>
      obtain ⟨c, rest, rfl, hc⟩ := exists_cons_of_isNumber h
      refine ⟨c, rest ++ after, rfl, ?_, ?_⟩
      · rcases hc with rfl | hdigit
        · rfl
        · exact isBlank_eq_false_of_isDigit hdigit
      · rintro rfl
        rcases hc with hc | hc <;> cases hc
  | null | string value => exact ⟨_, _, rfl, rfl, by decide⟩
  | boolean value => cases value <;> exact ⟨_, _, rfl, rfl, by decide⟩
  | array items => cases items <;> exact ⟨_, _, rfl, rfl, by decide⟩
  | object fields => cases fields <;> exact ⟨_, _, rfl, rfl, by decide⟩

theorem dropWhile_isBlank_cons {c : Char} {cs : List Char} (h : isBlank c = false) :
    (c :: cs).dropWhile isBlank = c :: cs := by
  simp [h]

theorem readValue?_number {text after : List Char} (h : IsNumber text) (hafter : Ends after)
    (depth : Nat) : readValue? (depth + 1) (text ++ after) = some (.number text, after) := by
  obtain ⟨htake, hdrop⟩ :=
    Text.takeWhile_append_dropWhile_append (isNumberCharacter_of_isNumber h) hafter
  have hnumber : readNumber (text ++ after) = (.number text, after) := by
    rw [readNumber, htake, hdrop]
  obtain ⟨c, rest, rfl, hc⟩ := exists_cons_of_isNumber h
  have hblank : isBlank c = false := by
    rcases hc with rfl | hdigit
    · rfl
    · exact isBlank_eq_false_of_isDigit hdigit
  rw [readValue?, List.cons_append, dropWhile_isBlank_cons hblank]
  dsimp only
  rw [if_pos hc, ← List.cons_append, hnumber]

section Lists

variable {α : Type} {item? : List Char → Option (α × List Char)} {close : Char}
  {cs after : List Char} {first : α} {others : List α}

theorem readRest?_close (hclose : isBlank close = false) (bound : Nat) :
    readRest? close item? (bound + 1) (close :: after) = some ([], after) := by
  rw [readRest?, dropWhile_isBlank_cons hclose]
  exact if_pos rfl

theorem readRest?_comma (hclose : ',' ≠ close) {bound : Nat}
    (hitem : item? cs = some (first, after)) {rest : List Char}
    (hrest : readRest? close item? bound after = some (others, rest)) :
    readRest? close item? (bound + 1) (',' :: cs) = some (first :: others, rest) := by
  rw [readRest?, dropWhile_isBlank_cons rfl]
  simp [hclose, hitem, hrest]

theorem readList?_cons {c : Char} (hblank : isBlank c = false) (hclose : c ≠ close)
    (hitem : item? (c :: cs) = some (first, after)) {rest : List Char}
    (hrest : readRest? close item? (after.length + 1) after = some (others, rest)) :
    readList? close item? (c :: cs) = some (first :: others, rest) := by
  rw [readList?, dropWhile_isBlank_cons hblank]
  simp [hclose, hitem, hrest]

end Lists

theorem ends_writeItems (items : List Json) (after : List Char) :
    Ends (writeItems items after) := by
  cases items <;> rfl

theorem ends_writeFields (fields : List (String × Json)) (after : List Char) :
    Ends (writeFields fields after) := by
  cases fields <;> rfl

theorem length_lt_writeItems (items : List Json) (after : List Char) :
    items.length < (writeItems items after).length := by
  induction items with
  | nil => simp [writeItems]
  | cons item items ih =>
      rw [writeItems, write_eq]
      simp only [List.length_cons, List.length_append]
      omega

theorem length_lt_writeFields (fields : List (String × Json)) (after : List Char) :
    fields.length < (writeFields fields after).length := by
  induction fields with
  | nil => simp [writeFields]
  | cons field fields ih =>
      rw [writeFields, writeString_eq, write_eq]
      simp only [List.length_cons, List.length_append]
      omega

theorem readField?_write {value? : List Char → Option (Json × List Char)} (name : String)
    {value : Json} {after : List Char} (h : value? (value.write after) = some (value, after)) :
    readField? value? (writeString name (':' :: value.write after)) =
      some ((name, value), after) := by
  have hname := readString?_writeString name (':' :: value.write after)
  rw [writeString] at hname ⊢
  rw [readField?, dropWhile_isBlank_cons rfl, hname]
  simp [isBlank, h]

mutual

theorem readValue?_write {json : Json} (h : json.WellFormed) {depth : Nat}
    (hdepth : json.depth < depth) {after : List Char} (hafter : Ends after) :
    readValue? depth (json.write after) = some (json, after) := by
  obtain ⟨depth, rfl⟩ := Nat.exists_eq_add_one.mpr (Nat.zero_lt_of_lt hdepth)
  cases json with
  | null => rfl
  | boolean value => cases value <;> rfl
  | number text => exact readValue?_number h hafter depth
  | string value =>
      change (readString? (writeString value after)).map _ = _
      rw [readString?_writeString]
      rfl
  | array items =>
      cases items with
      | nil => rfl
      | cons item items =>
          rw [Json.depth, itemsDepth] at hdepth
          obtain ⟨hitemDepth, hitemsDepth⟩ : item.depth < depth ∧ itemsDepth items < depth := by
            omega
          have hitem := readValue?_write h.1 hitemDepth (ends_writeItems items after)
          have hlength := Nat.lt_succ_of_lt (length_lt_writeItems items after)
          have hitems := readRest?_writeItems h.2 hitemsDepth hlength after
          obtain ⟨c, rest, heq, hblank, hclose⟩ :=
            exists_cons_of_write h.1 (writeItems items after)
          rw [heq] at hitem
          change (readList? ']' (readValue? depth) (item.write (writeItems items after))).map _ = _
          rw [heq, readList?_cons hblank hclose hitem hitems]
          rfl
  | object fields =>
      cases fields with
      | nil => rfl
      | cons field fields =>
          rw [Json.depth, fieldsDepth] at hdepth
          obtain ⟨hvalueDepth, hfieldsDepth⟩ :
              field.2.depth < depth ∧ fieldsDepth fields < depth := by omega
          have hvalue := readValue?_write h.1 hvalueDepth (ends_writeFields fields after)
          have hfield := readField?_write field.1 hvalue
          have hlength := Nat.lt_succ_of_lt (length_lt_writeFields fields after)
          have hfields := readRest?_writeFields h.2 hfieldsDepth hlength after
          have hquote : '"' ≠ '}' := by decide
          have hlist := readList?_cons rfl hquote hfield hfields
          exact congrArg (Option.map _) hlist

theorem readRest?_writeItems {items : List Json} (h : AllWellFormed items) {depth : Nat}
    (hdepth : itemsDepth items < depth) {bound : Nat} (hbound : items.length < bound)
    (after : List Char) : readRest? ']' (readValue? depth) bound (writeItems items after) =
      some (items, after) := by
  obtain ⟨bound, rfl⟩ := Nat.exists_eq_add_one.mpr (Nat.zero_lt_of_lt hbound)
  cases items with
  | nil => exact readRest?_close rfl bound
  | cons item items =>
      rw [itemsDepth] at hdepth
      rw [List.length_cons] at hbound
      obtain ⟨hitemDepth, hitemsDepth⟩ : item.depth < depth ∧ itemsDepth items < depth := by omega
      have hitem := readValue?_write h.1 hitemDepth (ends_writeItems items after)
      exact readRest?_comma (by decide) hitem
        (readRest?_writeItems h.2 hitemsDepth (by omega) after)

theorem readRest?_writeFields {fields : List (String × Json)} (h : FieldsWellFormed fields)
    {depth : Nat} (hdepth : fieldsDepth fields < depth) {bound : Nat}
    (hbound : fields.length < bound) (after : List Char) :
    readRest? '}' (readField? (readValue? depth)) bound (writeFields fields after) =
      some (fields, after) := by
  obtain ⟨bound, rfl⟩ := Nat.exists_eq_add_one.mpr (Nat.zero_lt_of_lt hbound)
  cases fields with
  | nil => exact readRest?_close rfl bound
  | cons field fields =>
      rw [fieldsDepth] at hdepth
      rw [List.length_cons] at hbound
      obtain ⟨hvalueDepth, hfieldsDepth⟩ : field.2.depth < depth ∧ fieldsDepth fields < depth := by
        omega
      have hvalue := readValue?_write h.1 hvalueDepth (ends_writeFields fields after)
      exact readRest?_comma (by decide) (readField?_write field.1 hvalue)
        (readRest?_writeFields h.2 hfieldsDepth (by omega) after)

end

mutual

theorem depth_le_length (json : Json) : json.depth ≤ (json.write []).length := by
  cases json with
  | null | boolean value | number text | string value => exact Nat.zero_le _
  | array items =>
      cases items with
      | nil => simp [depth, itemsDepth, write]
      | cons item items =>
          have hitem := depth_le_length item
          have hitems := itemsDepth_le_length items
          rw [depth, itemsDepth, write, write_eq item]
          simp only [List.length_cons, List.length_append]
          omega
  | object fields =>
      cases fields with
      | nil => simp [depth, fieldsDepth, write]
      | cons field fields =>
          have hvalue := depth_le_length field.2
          have hfields := fieldsDepth_le_length fields
          rw [depth, fieldsDepth, write, writeString_eq, write_eq field.2]
          simp only [List.length_cons, List.length_append]
          omega

theorem itemsDepth_le_length (items : List Json) :
    itemsDepth items ≤ (writeItems items []).length := by
  cases items with
  | nil => exact Nat.zero_le _
  | cons item items =>
      have hitem := depth_le_length item
      have hitems := itemsDepth_le_length items
      rw [itemsDepth, writeItems, write_eq item]
      simp only [List.length_cons, List.length_append]
      omega

theorem fieldsDepth_le_length (fields : List (String × Json)) :
    fieldsDepth fields ≤ (writeFields fields []).length := by
  cases fields with
  | nil => exact Nat.zero_le _
  | cons field fields =>
      have hvalue := depth_le_length field.2
      have hfields := fieldsDepth_le_length fields
      rw [fieldsDepth, writeFields, writeString_eq, write_eq field.2]
      simp only [List.length_cons, List.length_append]
      omega

end

/-- The text of a value is read back as that value. -/
theorem read?_render {json : Json} (h : json.WellFormed) : read? json.render = some json := by
  have hdepth := json.depth_le_length
  have hread : readValue? (json.render.length + 1) json.render.toList = some (json, []) := by
    rw [render, String.toList_ofList, String.length_ofList]
    exact readValue?_write h (by omega) rfl
  rw [read?, hread]
  rfl

end Reading

end Letter.Json
