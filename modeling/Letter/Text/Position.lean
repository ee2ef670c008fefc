namespace Letter

namespace Text

/-- The length in bytes of the UTF-8 form of a text. -/
def size : List Char → Nat
  | [] => 0
  | c :: cs => c.utf8Size + size cs

@[simp] theorem size_append (cs ds : List Char) : size (cs ++ ds) = size cs + size ds := by
  induction cs with
  | nil => simp [size]
  | cons c cs ih => simp [size, ih, Nat.add_assoc]

theorem length_le_size (cs : List Char) : cs.length ≤ size cs := by
  induction cs with
  | nil => simp [size]
  | cons c cs ih =>
      have := c.utf8Size_pos
      simp only [size, List.length_cons]
      omega

theorem utf8ByteSize_ofList (cs : List Char) : (String.ofList cs).utf8ByteSize = size cs := by
  induction cs with
  | nil => simp [size]
  | cons c cs ih =>
      rw [← List.singleton_append, String.ofList_append, String.utf8ByteSize_append, ih,
        ← String.singleton_eq_ofList, String.utf8ByteSize_singleton, List.singleton_append, size]

theorem size_toList (s : String) : size s.toList = s.utf8ByteSize := by
  rw [← utf8ByteSize_ofList, String.ofList_toList]

/-- The characters of a text that begin within its first `n` bytes. -/
def startingBefore : Nat → List Char → List Char
  | _, [] => []
  | 0, _ => []
  | n + 1, c :: cs => c :: startingBefore (n + 1 - c.utf8Size) cs

end Text

/-- A place in a text. Lines and columns count from one, a column counts characters, and the
offset counts bytes. -/
structure Position where
  line : Nat
  column : Nat
  offset : Nat
deriving DecidableEq, Repr

namespace Position

def start : Position := ⟨1, 1, 0⟩

/-- The position one character further on: a line feed opens the next line. -/
def after (p : Position) (c : Char) : Position :=
  if c = '\n' then ⟨p.line + 1, 1, p.offset + c.utf8Size⟩
  else ⟨p.line, p.column + 1, p.offset + c.utf8Size⟩

/-- The position of a byte of `source`. An offset within a character counts that character as
passed, and one past the end stands for the end. -/
def ofOffset (source : String) (offset : Nat) : Position :=
  { (Text.startingBefore offset source.toList).foldl after start with
    offset := min offset source.utf8ByteSize }

instance : ToString Position where
  toString p := toString p.line ++ ":" ++ toString p.column

end Position

end Letter
