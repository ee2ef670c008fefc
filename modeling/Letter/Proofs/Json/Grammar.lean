import Letter.Json.Basic

namespace Letter.Json

/-- Digits, of which there is at least one. -/
structure IsDigits (cs : List Char) : Prop where
  ne_nil : cs ≠ []
  isDigit : ∀ c ∈ cs, c.isDigit

/-- Digits with a zero in front only by itself. -/
structure IsWhole (cs : List Char) : Prop extends IsDigits cs where
  leading : cs.head? = some '0' → cs = ['0']

inductive IsFraction : List Char → Prop
  | none : IsFraction []
  | digits {cs} (h : IsDigits cs) : IsFraction ('.' :: cs)

inductive IsExponent : List Char → Prop
  | none : IsExponent []
  | digits {marker sign cs} (hmarker : marker = 'e' ∨ marker = 'E')
      (hsign : sign = [] ∨ sign = ['+'] ∨ sign = ['-']) (h : IsDigits cs) :
      IsExponent (marker :: (sign ++ cs))

inductive IsNumber : List Char → Prop
  | mk {sign whole fraction exponent} (hsign : sign = [] ∨ sign = ['-']) (hwhole : IsWhole whole)
      (hfraction : IsFraction fraction) (hexponent : IsExponent exponent) :
      IsNumber (sign ++ whole ++ fraction ++ exponent)

def isHexDigit (c : Char) : Bool :=
  c.isDigit || 'a' ≤ c && c ≤ 'f' || 'A' ≤ c && c ≤ 'F'

/-- A character of a string, by itself or escaped. -/
inductive IsCharacter : List Char → Prop
  | plain {c} (hcontrol : 0x20 ≤ c.toNat) (hquote : c ≠ '"') (hbackslash : c ≠ '\\') :
      IsCharacter [c]
  | escaped {c} (h : c ∈ ['"', '\\', '/', 'b', 'f', 'n', 'r', 't']) : IsCharacter ['\\', c]
  | unicode {a b c d} (ha : isHexDigit a) (hb : isHexDigit b) (hc : isHexDigit c)
      (hd : isHexDigit d) : IsCharacter ['\\', 'u', a, b, c, d]

inductive IsString : List Char → Prop
  | mk {characters : List (List Char)} (h : ∀ cs ∈ characters, IsCharacter cs) :
      IsString ('"' :: (characters.flatten ++ ['"']))

def IsSpace (cs : List Char) : Prop :=
  ∀ c ∈ cs, c ∈ [' ', '\n', '\r', '\t']

mutual

inductive IsValue : List Char → Prop
  | null : IsValue ['n', 'u', 'l', 'l']
  | true_ : IsValue ['t', 'r', 'u', 'e']
  | false_ : IsValue ['f', 'a', 'l', 's', 'e']
  | number {cs} (h : IsNumber cs) : IsValue cs
  | string {cs} (h : IsString cs) : IsValue cs
  | emptyArray {space} (h : IsSpace space) : IsValue ('[' :: (space ++ [']']))
  | array {items} (h : IsItems items) : IsValue ('[' :: (items ++ [']']))
  | emptyObject {space} (h : IsSpace space) : IsValue ('{' :: (space ++ ['}']))
  | object {members} (h : IsMembers members) : IsValue ('{' :: (members ++ ['}']))

/-- A value between any blanks, which is also what a whole text is. -/
inductive IsElement : List Char → Prop
  | mk {before value after} (hbefore : IsSpace before) (hvalue : IsValue value)
      (hafter : IsSpace after) : IsElement (before ++ value ++ after)

inductive IsItems : List Char → Prop
  | single {item} (h : IsElement item) : IsItems item
  | more {item items} (h : IsElement item) (hs : IsItems items) : IsItems (item ++ ',' :: items)

inductive IsMember : List Char → Prop
  | mk {before name after value} (hbefore : IsSpace before) (hname : IsString name)
      (hafter : IsSpace after) (hvalue : IsElement value) :
      IsMember (before ++ name ++ after ++ ':' :: value)

inductive IsMembers : List Char → Prop
  | single {field} (h : IsMember field) : IsMembers field
  | more {field fields} (h : IsMember field) (hs : IsMembers fields) :
      IsMembers (field ++ ',' :: fields)

end

end Letter.Json
