/-!
JSON values and their compact text. Writing takes the text that follows the value, so that a
value's text is made in one pass and what a reader must leave unread is in view.
-/

namespace Letter

inductive Json where
  | null
  | boolean (value : Bool)
  /-- A number as it is written, so that no digit of it is lost. -/
  | number (text : List Char)
  | string (value : String)
  | array (items : List Json)
  /-- The fields in the order in which they are written. -/
  | object (fields : List (String × Json))

namespace Json

/-- An integer, digit by digit. -/
def ofInt (i : Int) : Json :=
  let digits := Nat.toDigits 10 i.natAbs
  number (if i < 0 then '-' :: digits else digits)

/-- A character as it stands in a string. -/
def escaped (c : Char) : List Char :=
  match c with
  | '"' => ['\\', '"']
  | '\\' => ['\\', '\\']
  | '\x08' => ['\\', 'b']
  | '\x0c' => ['\\', 'f']
  | '\n' => ['\\', 'n']
  | '\r' => ['\\', 'r']
  | '\t' => ['\\', 't']
  | _ =>
    if c.toNat < 0x20 then
      ['\\', 'u', '0', '0', Nat.digitChar (c.toNat / 16), Nat.digitChar (c.toNat % 16)]
    else [c]

/-- A string in quotes before a text. -/
def writeString (s : String) (after : List Char) : List Char :=
  '"' :: (s.toList.flatMap escaped ++ '"' :: after)

mutual

/-- A value before a text. -/
def write : Json → List Char → List Char
  | null, after => 'n' :: 'u' :: 'l' :: 'l' :: after
  | boolean true, after => 't' :: 'r' :: 'u' :: 'e' :: after
  | boolean false, after => 'f' :: 'a' :: 'l' :: 's' :: 'e' :: after
  | number text, after => text ++ after
  | string value, after => writeString value after
  | array [], after => '[' :: ']' :: after
  | array (item :: items), after => '[' :: item.write (writeItems items after)
  | object [], after => '{' :: '}' :: after
  | object ((name, value) :: fields), after =>
    '{' :: writeString name (':' :: value.write (writeFields fields after))

/-- The items behind the first, and the closing bracket. -/
def writeItems : List Json → List Char → List Char
  | [], after => ']' :: after
  | item :: items, after => ',' :: item.write (writeItems items after)

/-- The fields behind the first, and the closing brace. -/
def writeFields : List (String × Json) → List Char → List Char
  | [], after => '}' :: after
  | (name, value) :: fields, after =>
    ',' :: writeString name (':' :: value.write (writeFields fields after))

end

def render (json : Json) : String :=
  String.ofList (json.write [])

end Json

end Letter
