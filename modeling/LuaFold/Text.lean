/-!
# Texts and their bytes

A text is the list of its characters.  Offsets count the bytes of its UTF-8 encoding, so the
size of a text is the sum of the sizes of its characters, and a text can be cut after a
number of bytes only where a character ends.
-/

namespace LuaFold

/-- A source text, as the list of its characters. -/
abbrev Text := List Char

namespace Text

/-- The number of bytes in the UTF-8 encoding of a text. -/
def size (text : Text) : Nat :=
  text.foldl (fun total character => total + character.utf8Size) 0

private theorem foldl_utf8Size
    (text : Text)
    (start : Nat) :
    text.foldl (fun total character => total + character.utf8Size) start =
      start + size text := by
  induction text generalizing start with
  | nil => simp [size]
  | cons character rest ih =>
    simp only [size, List.foldl_cons]
    rw [ih, ih (0 + character.utf8Size)]
    omega

@[simp]
theorem size_nil : size [] = 0 :=
  rfl

@[simp]
theorem size_cons
    (character : Char)
    (rest : Text) :
    size (character :: rest) = character.utf8Size + size rest := by
  simpa [size] using foldl_utf8Size rest character.utf8Size

@[simp]
theorem size_append (left right : Text) :
    size (left ++ right) = size left + size right := by
  induction left with
  | nil => simp
  | cons character rest ih => simp [ih, Nat.add_assoc]

theorem size_eq_zero_iff {text : Text} : size text = 0 ↔ text = [] := by
  cases text with
  | nil => simp
  | cons character rest =>
    have positive := character.utf8Size_pos
    simp
    omega

/--
The first characters that fill exactly a number of bytes, and the rest.  There are none when
the text is shorter or when that offset is inside a character.
-/
def cut? (bytes : Nat) (text : Text) : Option (Text × Text) :=
  go bytes [] text
where
  /-- Collect characters, newest first, until the bytes are used up. -/
  go (bytes : Nat) (taken : Text) : Text → Option (Text × Text)
    | [] => if bytes = 0 then some (taken.reverse, []) else none
    | character :: rest =>
      if bytes = 0 then some (taken.reverse, character :: rest)
      else if character.utf8Size ≤ bytes then
        go (bytes - character.utf8Size) (character :: taken) rest
      else none

/-- How many characters stand before the first occurrence of a pattern. -/
def indexOf? (pattern : Text) (text : Text) : Option Nat :=
  go 0 text
where
  /-- Try the pattern at every place, counting the places that were passed. -/
  go (passed : Nat) (rest : Text) : Option Nat :=
    if pattern.isPrefixOf rest then some passed
    else
      match rest with
      | [] => none
      | _ :: later => go (passed + 1) later

/-- Items laid end to end from an offset on, each with the offset at which it begins. -/
def layOut
    {Item : Type}
    (width : Item → Nat)
    (offset : Nat)
    (items : List Item) :
    List (Nat × Item) :=
  go offset [] items
where
  /-- Place the items one by one, newest first. -/
  go (offset : Nat) (placed : List (Nat × Item)) : List Item → List (Nat × Item)
    | [] => placed.reverse
    | item :: rest => go (offset + width item) ((offset, item) :: placed) rest

end Text

/-- A text cut in two: a part that was taken and the rest. -/
structure Cut (text : Text) where
  taken : Text
  rest : Text
  whole : taken ++ rest = text

namespace Cut

/-- Take nothing. -/
def nothing (text : Text) : Cut text :=
  ⟨[], text, rfl⟩

/-- Take the whole text. -/
def everything (text : Text) : Cut text :=
  ⟨text, [], List.append_nil text⟩

/-- Take a number of characters, or all if there are fewer. -/
def characters (count : Nat) (text : Text) : Cut text :=
  ⟨text.take count, text.drop count, List.take_append_drop count text⟩

/-- Take the longest front part whose characters all pass a test. -/
def longest (test : Char → Bool) (text : Text) : Cut text :=
  ⟨text.takeWhile test, text.dropWhile test, List.takeWhile_append_dropWhile⟩

/-- Take what one cut takes and then what another takes from the rest. -/
def andThen {text : Text} (first : Cut text) (next : (rest : Text) → Cut rest) : Cut text :=
  let second := next first.rest
  ⟨first.taken ++ second.taken, second.rest, by
    rw [List.append_assoc, second.whole, first.whole]⟩

theorem length_add_length
    {text : Text}
    (cut : Cut text) :
    cut.taken.length + cut.rest.length = text.length := by
  have whole := congrArg List.length cut.whole
  simpa using whole

theorem rest_length_le
    {text : Text}
    (cut : Cut text) :
    cut.rest.length ≤ text.length := by
  have whole := cut.length_add_length
  omega

theorem rest_length_lt
    {text : Text}
    (cut : Cut text)
    (taken : cut.taken ≠ []) :
    cut.rest.length < text.length := by
  have whole := cut.length_add_length
  have positive := List.length_pos_iff.mpr taken
  omega

end Cut

end LuaFold
