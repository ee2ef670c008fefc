import Letter.Proofs.Json.Grammar

namespace Letter.Json

theorem isHexDigit_digitChar : ∀ n < 16, isHexDigit (Nat.digitChar n) := by
  decide

theorem isCharacter_escaped (c : Char) : IsCharacter (escaped c) := by
  unfold escaped
  split
  case h_8 hquote hbackslash _ _ _ _ _ =>
    split
    · have hhigh : c.toNat / 16 < 16 := by omega
      have hlow : c.toNat % 16 < 16 := by omega
      exact .unicode rfl rfl (isHexDigit_digitChar _ hhigh) (isHexDigit_digitChar _ hlow)
    · exact .plain (by omega) hquote hbackslash
  all_goals exact .escaped (by decide)

/-- The text of a string. -/
def stringText (s : String) : List Char :=
  writeString s []

theorem isString_stringText (s : String) : IsString (stringText s) := by
  have hcharacters : ∀ cs ∈ s.toList.map escaped, IsCharacter cs := by
    intro cs hcs
    obtain ⟨c, -, rfl⟩ := List.mem_map.mp hcs
    exact isCharacter_escaped c
  have h := IsString.mk hcharacters
  rw [← List.flatMap_def] at h
  exact h

theorem writeString_eq (s : String) (after : List Char) :
    writeString s after = stringText s ++ after := by
  simp [stringText, writeString]

mutual

theorem write_eq (json : Json) (after : List Char) : json.write after = json.write [] ++ after := by
  cases json with
  | null | number text => simp [write]
  | boolean value => cases value <;> rfl
  | string value => rw [write, write, writeString_eq, stringText]
  | array items =>
      cases items with
      | nil => rfl
      | cons item items =>
          rw [write, write, write_eq item, write_eq item (writeItems items []),
            writeItems_eq items after]
          simp
  | object fields =>
      cases fields with
      | nil => rfl
      | cons field fields =>
          rw [write, write, writeString_eq, writeString_eq, write_eq field.2,
            write_eq field.2 (writeFields fields []), writeFields_eq fields after]
          simp

theorem writeItems_eq (items : List Json) (after : List Char) :
    writeItems items after = writeItems items [] ++ after := by
  cases items with
  | nil => rfl
  | cons item items =>
      rw [writeItems, writeItems, write_eq item, write_eq item (writeItems items []),
        writeItems_eq items after]
      simp

theorem writeFields_eq (fields : List (String × Json)) (after : List Char) :
    writeFields fields after = writeFields fields [] ++ after := by
  cases fields with
  | nil => rfl
  | cons field fields =>
      rw [writeFields, writeFields, writeString_eq, writeString_eq, write_eq field.2,
        write_eq field.2 (writeFields fields []), writeFields_eq fields after]
      simp

end

mutual

/-- Whether the texts of all numbers are numbers. -/
def WellFormed : Json → Prop
  | null | boolean _ | string _ => True
  | number text => IsNumber text
  | array items => AllWellFormed items
  | object fields => FieldsWellFormed fields

def AllWellFormed : List Json → Prop
  | [] => True
  | item :: items => item.WellFormed ∧ AllWellFormed items

def FieldsWellFormed : List (String × Json) → Prop
  | [] => True
  | (_, value) :: fields => value.WellFormed ∧ FieldsWellFormed fields

end

theorem isSpace_nil : IsSpace [] :=
  List.forall_mem_nil _

theorem IsValue.isElement {cs : List Char} (h : IsValue cs) : IsElement cs := by
  have helement : IsElement ([] ++ cs ++ []) := .mk isSpace_nil h isSpace_nil
  rwa [List.nil_append, List.append_nil] at helement

theorem isMember_of_isValue {cs : List Char} (name : String) (h : IsValue cs) :
    IsMember (stringText name ++ ':' :: cs) := by
  have hmember : IsMember ([] ++ stringText name ++ [] ++ ':' :: cs) :=
    .mk isSpace_nil (isString_stringText name) isSpace_nil h.isElement
  rwa [List.nil_append, List.append_nil] at hmember

mutual

theorem isValue_write {json : Json} (h : json.WellFormed) : IsValue (json.write []) := by
  cases json with
  | null => exact .null
  | boolean value =>
      cases value with
      | true => exact .true_
      | false => exact .false_
  | number text =>
      rw [write, List.append_nil]
      exact .number h
  | string value => exact .string (isString_stringText value)
  | array items =>
      cases items with
      | nil =>
          change IsValue ('[' :: ([] ++ [']']))
          exact .emptyArray isSpace_nil
      | cons item items =>
          obtain ⟨text, htext, heq⟩ := exists_isItems h.2 (isValue_write h.1).isElement
          rw [write, write_eq, heq]
          exact .array htext
  | object fields =>
      cases fields with
      | nil =>
          change IsValue ('{' :: ([] ++ ['}']))
          exact .emptyObject isSpace_nil
      | cons field fields =>
          have hmember := isMember_of_isValue field.1 (isValue_write h.1)
          obtain ⟨text, htext, heq⟩ := exists_isMembers h.2 hmember
          rw [List.append_assoc, List.cons_append] at heq
          rw [write, writeString_eq, write_eq, heq]
          exact .object htext

theorem exists_isItems {items : List Json} (h : AllWellFormed items) {first : List Char}
    (hfirst : IsElement first) :
    ∃ text, IsItems text ∧ first ++ writeItems items [] = text ++ [']'] := by
  cases items with
  | nil => exact ⟨first, .single hfirst, rfl⟩
  | cons item items =>
      obtain ⟨text, htext, heq⟩ := exists_isItems h.2 (isValue_write h.1).isElement
      refine ⟨first ++ ',' :: text, .more hfirst htext, ?_⟩
      rw [writeItems, write_eq, heq, List.append_assoc, List.cons_append]

theorem exists_isMembers {fields : List (String × Json)} (h : FieldsWellFormed fields)
    {first : List Char} (hfirst : IsMember first) :
    ∃ text, IsMembers text ∧ first ++ writeFields fields [] = text ++ ['}'] := by
  cases fields with
  | nil => exact ⟨first, .single hfirst, rfl⟩
  | cons field fields =>
      have hmember := isMember_of_isValue field.1 (isValue_write h.1)
      obtain ⟨text, htext, heq⟩ := exists_isMembers h.2 hmember
      rw [List.append_assoc, List.cons_append] at heq
      refine ⟨first ++ ',' :: text, .more hfirst htext, ?_⟩
      rw [writeFields, writeString_eq, write_eq, heq, List.append_assoc, List.cons_append]

end

/-- The text of a value with proper numbers is a JSON text. -/
theorem isElement_render {json : Json} (h : json.WellFormed) : IsElement json.render.toList := by
  rw [render, String.toList_ofList]
  exact (isValue_write h).isElement

end Letter.Json
