import Mathlib.Data.List.Basic
import LuaFold.Json.Reader

/-!
# Written JSON is read back

The indented form of a value stands for this value.  Numbers, strings and the separators between
the items of an array or the fields of an object are read one by one, whatever is behind them as
long as it does not go on with a number.  Only the order of the fields may change, since they are
kept in the order of their names.
-/

namespace LuaFold.Json

/-! ## Characters -/

/-- What is behind a number does not go on with it. -/
def Detached (rest : Text) : Prop :=
  ∀ character ∈ rest.head?, character.isDigit = false ∧ character ≠ '.' ∧ character ≠ 'e' ∧
    character ≠ 'E'

theorem skipBlanks_lineStart
    (depth : Nat)
    (rest : Text) :
    skipBlanks ((lineStart depth).toList ++ rest) = skipBlanks rest := by
  refine List.dropWhile_append_of_pos fun character member => ?_
  simp only [lineStart, String.toList_append, String.toList_ofList, List.mem_append,
    List.mem_replicate] at member
  rcases member with lineFeed | ⟨_, rfl⟩
  · rw [List.mem_singleton.mp lineFeed]
    decide
  · decide

theorem detached_lineStart
    (depth : Nat)
    (rest : Text) :
    Detached ((lineStart depth).toList ++ rest) := by
  intro character first
  simp only [lineStart, String.toList_append, List.append_assoc] at first
  cases first
  decide

/-! ## Strings -/

/-- A control character is written with four digits, which stand for its number. -/
theorem exists_controlEscape
    {character : Char}
    (control : character.toNat < 0x20) :
    ∃ a b c d, controlEscape character = ['\\', 'u', a, b, c, d] ∧
      hexValue? [a, b, c, d] = some character.toNat := by
  have all : ∀ code : Fin 0x20, ∃ digits, controlEscape (Char.ofNat code) = '\\' :: 'u' :: digits ∧
      digits.length = 4 ∧ hexValue? digits = some code.val :=
    fun code => ⟨(controlEscape (Char.ofNat code)).drop 2, by revert code; decide⟩
  obtain ⟨digits, written, four, value⟩ := all ⟨character.toNat, control⟩
  rw [Char.ofNat_toNat] at written
  match digits, four with
  | [a, b, c, d], _ => exact ⟨a, b, c, d, written, value⟩

theorem readString_controlEscape
    {character : Char}
    (control : character.toNat < 0x20)
    (taken : List Char)
    (rest : Text) :
    readString taken (controlEscape character ++ rest) = readString (character :: taken) rest := by
  obtain ⟨a, b, c, d, written, value⟩ := exists_controlEscape control
  have scalar : scalar? character.toNat = some character := by
    rw [scalar?, if_pos (show character.toNat.isValidChar from character.valid), Char.ofNat_toNat]
  have single : ¬ (0xd800 ≤ character.toNat ∧ character.toNat < 0xdc00) := by omega
  rw [written]
  simp only [List.cons_append, List.nil_append]
  -- what follows may be another escape of this form, but the two are not a surrogate pair
  by_cases escape : ∃ e f g h behind, rest = '\\' :: 'u' :: e :: f :: g :: h :: behind
  · obtain ⟨e, f, g, h, behind, rfl⟩ := escape
    rw [readString.eq_2, value]
    simp only [Option.bind_eq_bind, Option.bind_some, if_neg single, scalar]
  · rw [readString.eq_3 taken a b c d rest
      fun e f g h behind same => escape ⟨e, f, g, h, behind, same⟩, value]
    simp only [Option.bind_eq_bind, Option.bind_some, scalar]

/-- A character of a string is read back from its written form. -/
theorem readString_escapedCharacter
    (character : Char)
    (taken : List Char)
    (rest : Text) :
    readString taken (escapedCharacter character ++ rest) =
      readString (character :: taken) rest := by
  unfold escapedCharacter
  split
  · next same => subst same; simp [readString, simpleEscape?]
  split
  · next same => subst same; simp [readString, simpleEscape?]
  split
  · next same => subst same; simp [readString, simpleEscape?]
  split
  · next same => subst same; simp [readString, simpleEscape?]
  split
  · next same => subst same; simp [readString, simpleEscape?]
  split
  · next same => subst same; simp [readString, simpleEscape?]
  split
  · next same => subst same; simp [readString, simpleEscape?]
  split
  · next control => exact readString_controlEscape control taken rest
  · next _ unescaped _ _ _ _ _ control => simp [readString, unescaped, control]

theorem readString_flatMap
    (characters : List Char)
    (taken : List Char)
    (rest : Text) :
    readString taken (characters.flatMap escapedCharacter ++ '"' :: rest) =
      some (String.ofList (taken.reverse ++ characters), rest) := by
  induction characters generalizing taken with
  | nil => simp [readString]
  | cons first more ih =>
      rw [List.flatMap_cons, List.append_assoc, readString_escapedCharacter, ih]
      simp

/-! ## Numbers -/

theorem isDigit_of_mem_toDigits
    {number : Nat}
    {digit : Char}
    (member : digit ∈ Nat.toDigits 10 number) :
    digit.isDigit = true :=
  Nat.isDigit_of_mem_toDigits (by decide) (by decide) member

/-- A number is written without a zero in front, unless it is zero itself. -/
theorem head?_toDigits
    {number : Nat}
    (positive : number ≠ 0) :
    (Nat.toDigits 10 number).head? ≠ some '0' := by
  induction number using Nat.strongRecOn with
  | ind number ih =>
      rw [Nat.toDigits_eq_if (by decide)]
      split
      · next small =>
        have all : ∀ digit : Fin 10, digit.val ≠ 0 → Nat.digitChar digit ≠ '0' := by decide
        simpa using all ⟨number, small⟩ positive
      · next large =>
        rw [List.head?_append_of_ne_nil _ Nat.toDigits_ne_nil]
        exact ih _ (Nat.div_lt_self (by omega) (by decide)) (by omega)

theorem readDigits_toDigits
    (number : Nat)
    {rest : Text}
    (detached : Detached rest) :
    readDigits [] (Nat.toDigits 10 number ++ rest) = some (Nat.toDigits 10 number, rest) := by
  have inside : ∀ digit ∈ Nat.toDigits 10 number, digit.isDigit = true :=
    fun _ member => isDigit_of_mem_toDigits member
  have stops : rest.takeWhile Char.isDigit = [] ∧ rest.dropWhile Char.isDigit = rest := by
    cases rest with
    | nil => exact ⟨rfl, rfl⟩
    | cons first more =>
        have other := (detached first rfl).1
        exact ⟨List.takeWhile_cons_of_neg (by simp [other]),
          List.dropWhile_cons_of_neg (by simp [other])⟩
  simp [readDigits, List.takeWhile_append_of_pos inside, List.dropWhile_append_of_pos inside, stops,
    Nat.toDigits_ne_nil]

theorem readNumber_toDigits
    (negative : Bool)
    (number : Nat)
    {rest : Text}
    (detached : Detached rest) :
    readNumber negative (Nat.toDigits 10 number ++ rest) =
      some (.number (if negative then -number else number), rest) := by
  have value : digitsValue (Nat.toDigits 10 number) = number := Nat.ofDigitChars_ten_toDigits
  have unpadded : ¬ ((Nat.toDigits 10 number).length > 1 &&
      (Nat.toDigits 10 number).head? = some '0') = true := by
    by_cases zero : number = 0
    · subst zero
      decide
    · simp [head?_toDigits zero]
  rw [readNumber, readDigits_toDigits number detached]
  simp only [Option.bind_eq_bind, Option.bind_some, if_neg unpadded]
  cases rest with
  | nil => simp [value]
  | cons first more =>
      obtain ⟨_, notPoint, notSmall, notLarge⟩ := detached first rfl
      simp [value, notPoint, notSmall, notLarge]

/-! ## Values -/

/-- A value without decimals whose arrays and objects nest to a number of levels at most. -/
inductive Fits : Nat → Json → Prop where
  | null {levels : Nat} : Fits levels null
  | bool {levels : Nat} (value : Bool) : Fits levels (bool value)
  | number {levels : Nat} (value : Int) : Fits levels (number value)
  | string {levels : Nat} (value : String) : Fits levels (string value)
  | array
      {levels : Nat}
      {items : List Json}
      (inside : ∀ item ∈ items, Fits levels item) :
      Fits (levels + 1) (array items)
  | object
      {levels : Nat}
      {fields : List (String × Json)}
      (inside : ∀ field ∈ fields, Fits levels field.2) :
      Fits (levels + 1) (object fields)

mutual

/-- A value with the fields of its objects in the order of their names. -/
def settled : Json → Json
  | array items => array (settledItems items)
  | object fields => object (settledFields [] fields)
  | other => other

/-- The items of an array, each with its fields in order. -/
def settledItems : List Json → List Json
  | [] => []
  | item :: rest => settled item :: settledItems rest

/-- Fields in the order of their names, added to those that are in order already. -/
def settledFields (kept : List (String × Json)) : List (String × Json) → List (String × Json)
  | [] => kept
  | (name, value) :: rest => settledFields (addField name (settled value) kept) rest

end

theorem settledItems_eq_map (items : List Json) : settledItems items = items.map settled := by
  induction items with
  | nil => rfl
  | cons item rest ih => rw [settledItems, ih, List.map_cons]

/-- What is written stands for a value, whatever follows it. -/
structure StandsFor (levels : Nat) (written : Text) (value : Json) : Prop where
  begins : ∃ first rest, written = first :: rest ∧ skipBlanks [first] = [first] ∧ first ≠ ']'
  reads : ∀ rest, Detached rest → readValue levels (written ++ rest) = some (value, rest)

theorem readValue_of_skipBlanks
    {levels : Nat}
    {first second : Text}
    (same : skipBlanks first = skipBlanks second) :
    readValue levels first = readValue levels second := by
  unfold readValue
  rw [same]

theorem skipBlanks_cons
    {first : Char}
    (solid : skipBlanks [first] = [first])
    (rest : Text) :
    skipBlanks (first :: rest) = first :: rest := by
  simp only [skipBlanks, List.dropWhile_cons] at solid ⊢
  split at solid
  · cases solid
  · next other => rw [if_neg other]

theorem skipBlanks_blank (text : Text) : skipBlanks (' ' :: text) = skipBlanks text :=
  rfl

theorem standsFor_null (levels : Nat) : StandsFor levels "null".toList null := by
  refine ⟨⟨'n', _, rfl, rfl, by decide⟩, fun rest _ => ?_⟩
  unfold readValue
  rfl

theorem standsFor_true (levels : Nat) : StandsFor levels "true".toList (bool true) := by
  refine ⟨⟨'t', _, rfl, rfl, by decide⟩, fun rest _ => ?_⟩
  unfold readValue
  rfl

theorem standsFor_false (levels : Nat) : StandsFor levels "false".toList (bool false) := by
  refine ⟨⟨'f', _, rfl, rfl, by decide⟩, fun rest _ => ?_⟩
  unfold readValue
  rfl

theorem skipBlanks_digit
    {digit : Char}
    (isDigit : digit.isDigit = true) :
    skipBlanks [digit] = [digit] := by
  have other : ∀ character : Char, character.isDigit = false → digit ≠ character := by
    rintro _ unlike rfl
    rw [isDigit] at unlike
    cases unlike
  simp [skipBlanks, other ' ' rfl, other '\n' rfl, other '\t' rfl, other '\r' rfl]

/-- A digit begins no value but a number. -/
theorem readValue_digit
    (levels : Nat)
    {digit : Char}
    (isDigit : digit.isDigit = true)
    (rest : Text) :
    readValue levels (digit :: rest) = readNumber false (digit :: rest) := by
  unfold readValue
  rw [skipBlanks_cons (skipBlanks_digit isDigit)]
  split
  all_goals first
    | rfl
    | next same => exact absurd ((List.cons.inj same).1 ▸ isDigit) (by decide)

theorem standsFor_number
    (levels : Nat)
    (value : Int) :
    StandsFor levels (toString value).toList (number value) := by
  cases value with
  | ofNat value =>
      have written : (toString (Int.ofNat value)).toList = Nat.toDigits 10 value := by
        rw [show toString (Int.ofNat value) = toString value from rfl,
          Nat.toString_eq_ofList_toDigits, String.toList_ofList]
      rw [written]
      obtain ⟨first, more, digits⟩ := List.exists_cons_of_ne_nil
        (Nat.toDigits_ne_nil (n := value) (b := 10))
      have isDigit : first.isDigit = true := isDigit_of_mem_toDigits (digits ▸ List.mem_cons_self)
      refine ⟨⟨first, more, digits, skipBlanks_digit isDigit, ?_⟩, ?_⟩
      · rintro rfl
        cases isDigit
      · intro rest detached
        have read := readNumber_toDigits false value detached
        rw [digits, List.cons_append] at read ⊢
        rw [readValue_digit levels isDigit, read]
        rfl
  | negSucc value =>
      have written : (toString (Int.negSucc value)).toList =
          '-' :: Nat.toDigits 10 (value + 1) := by
        rw [show toString (Int.negSucc value) = "-" ++ toString (value + 1) from rfl,
          Nat.toString_eq_ofList_toDigits]
        simp
      rw [written]
      refine ⟨⟨'-', _, rfl, rfl, by decide⟩, ?_⟩
      intro rest detached
      have read := readNumber_toDigits true (value + 1) detached
      unfold readValue
      rw [List.cons_append, skipBlanks_cons rfl]
      exact read

theorem standsFor_string
    (levels : Nat)
    (value : String) :
    StandsFor levels (quote value).toList (string value) := by
  constructor
  · exact ⟨'"', _, String.toList_ofList, rfl, by decide⟩
  · intro rest _
    have quoted : (quote value).toList ++ rest =
        '"' :: (value.toList.flatMap escapedCharacter ++ '"' :: rest) := by
      simp [quote]
    unfold readValue
    rw [quoted, skipBlanks_cons rfl]
    simp [readString_flatMap]

/-! ## Arrays and objects -/

/-- Go on behind an item of an array. -/
def continueItems
    (value : Text → Option (Json × Text))
    (items : List Json)
    (count : Nat)
    (text : Text) :
    Option (Json × Text) :=
  match skipBlanks text with
  | ',' :: later => readItems value items count later
  | ']' :: later => some (.array items.reverse, later)
  | _ => none

/-- Go on behind a field of an object. -/
def continueFields
    (value : Text → Option (Json × Text))
    (fields : List (String × Json))
    (count : Nat)
    (text : Text) :
    Option (Json × Text) :=
  match skipBlanks text with
  | ',' :: later => readFields value fields count later
  | '}' :: later => some (.object fields, later)
  | _ => none

/-- What is written behind an item of an array stands for the items that are left. -/
structure ContinuesItems (levels : Nat) (written : Text) (items : List Json) : Prop where
  length_le : items.length ≤ written.length
  detached : ∀ rest, Detached rest → Detached (written ++ rest)
  reads : ∀ taken count depth rest, items.length ≤ count →
    continueItems (readValue levels) taken count
        (written ++ ((lineStart depth).toList ++ ']' :: rest)) =
      some (.array (taken.reverse ++ settledItems items), rest)

/-- What is written behind a field of an object stands for the fields that are left. -/
structure ContinuesFields
    (levels : Nat)
    (written : Text)
    (fields : List (String × Json)) :
    Prop where
  length_le : fields.length ≤ written.length
  detached : ∀ rest, Detached rest → Detached (written ++ rest)
  reads : ∀ kept count depth rest, fields.length ≤ count →
    continueFields (readValue levels) kept count
        (written ++ ((lineStart depth).toList ++ '}' :: rest)) =
      some (.object (settledFields kept fields), rest)

/-- Whatever is already written, a value is written behind it and stands for itself. -/
def IsReadBack (levels : Nat) (value : Json) : Prop :=
  ∀ (written : String) (depth : Nat), ∃ text,
    (indentTo written depth value).toList = written.toList ++ text ∧
      StandsFor levels text value.settled

variable {levels : Nat}

/-- An item is read, and then what is behind it. -/
theorem readItems_of_standsFor
    {text : Text}
    {item : Json}
    (stands : StandsFor levels text item)
    (taken : List Json)
    (count : Nat)
    {front rest : Text}
    (detached : Detached rest)
    (same : skipBlanks front = skipBlanks (text ++ rest)) :
    readItems (readValue levels) taken (count + 1) front =
      continueItems (readValue levels) (item :: taken) count rest := by
  rw [readItems, readValue_of_skipBlanks same, stands.reads rest detached]
  rfl

/-- What is written stands for the items of an array, of which there is one at least. -/
structure ListsItems (levels : Nat) (written : Text) (items : List Json) : Prop where
  begins : ∃ first inside, written = first :: inside ∧ skipBlanks [first] = [first] ∧ first ≠ ']'
  length_le : items.length ≤ written.length
  reads : ∀ taken count front depth rest, items.length ≤ count →
    skipBlanks front = skipBlanks (written ++ ((lineStart depth).toList ++ ']' :: rest)) →
    readItems (readValue levels) taken count front =
      some (.array (taken.reverse ++ settledItems items), rest)

/-- The first item, and what is written behind it. -/
theorem StandsFor.listsItems
    {text more : Text}
    {item : Json}
    {others : List Json}
    (stands : StandsFor levels text item.settled)
    (continues : ContinuesItems levels more others) :
    ListsItems levels (text ++ more) (item :: others) := by
  obtain ⟨first, inside, begins, solid, notClosing⟩ := stands.begins
  refine ⟨⟨first, inside ++ more, by rw [begins, List.cons_append], solid, notClosing⟩, ?_, ?_⟩
  · have longer := continues.length_le
    simp only [begins, List.length_append, List.length_cons]
    omega
  · intro taken count front depth rest enough same
    obtain ⟨count, rfl⟩ := Nat.exists_eq_add_of_le' (Nat.le_trans (Nat.le_add_left 1 _) enough)
    have ends := continues.detached _ (detached_lineStart depth (']' :: rest))
    rw [List.append_assoc] at same
    rw [readItems_of_standsFor stands taken count ends same,
      continues.reads _ _ _ _ (Nat.le_of_succ_le_succ enough)]
    simp [settledItems]

theorem exists_continuesItems
    {items : List Json}
    (back : ∀ item ∈ items, IsReadBack levels item)
    (written : String)
    (depth : Nat) :
    ∃ text, (indentItems written depth false items).toList = written.toList ++ text ∧
      ContinuesItems levels text items := by
  induction items generalizing written with
  | nil =>
      refine ⟨[], by simp [indentItems], by simp, fun _ detached => detached, ?_⟩
      intro taken count depth rest _
      unfold continueItems
      rw [List.nil_append, skipBlanks_lineStart, skipBlanks_cons rfl]
      simp [settledItems]
  | cons item rest ih =>
      obtain ⟨text, itemWritten, stands⟩ :=
        back item List.mem_cons_self (written.push ',' ++ lineStart depth) depth
      obtain ⟨more, restWritten, continues⟩ := ih
        (fun other member => back other (List.mem_cons_of_mem _ member))
        (indentTo (written.push ',' ++ lineStart depth) depth item)
      have lists := stands.listsItems continues
      refine ⟨',' :: ((lineStart depth).toList ++ (text ++ more)), ?_, ?_, ?_, ?_⟩
      · rw [indentItems]
        simp [restWritten, itemWritten]
      · have longer := lists.length_le
        simp only [List.length_cons, List.length_append] at longer ⊢
        omega
      · intro behind _ character first
        cases first
        decide
      · intro taken count closing behind enough
        rw [List.cons_append, continueItems, skipBlanks_cons rfl]
        refine lists.reads taken count _ closing behind enough ?_
        rw [List.append_assoc, skipBlanks_lineStart]

theorem readValue_bracket
    {rest inside : Text}
    (skipped : skipBlanks rest = inside)
    (nonempty : inside.head? ≠ some ']') :
    readValue (levels + 1) ('[' :: rest) =
      readItems (readValue levels) [] inside.length inside := by
  conv_lhs => unfold readValue
  rw [skipBlanks_cons rfl]
  simp only [skipped]
  split
  · next same => exact absurd rfl nonempty
  · rfl

theorem isReadBack_array
    {items : List Json}
    (back : ∀ item ∈ items, IsReadBack levels item) :
    IsReadBack (levels + 1) (array items) := by
  intro written depth
  cases items with
  | nil =>
      refine ⟨['[', ']'], by simp [indentTo], ⟨'[', _, rfl, rfl, by decide⟩, fun rest _ => ?_⟩
      rfl
  | cons item rest =>
      obtain ⟨text, itemWritten, stands⟩ :=
        back item List.mem_cons_self (written.push '[' ++ lineStart (depth + 1)) (depth + 1)
      obtain ⟨more, restWritten, continues⟩ := exists_continuesItems
        (fun other member => back other (List.mem_cons_of_mem _ member))
        (indentTo (written.push '[' ++ lineStart (depth + 1)) (depth + 1) item) (depth + 1)
      have lists := stands.listsItems continues
      obtain ⟨first, inside, begins, solid, notClosing⟩ := lists.begins
      refine ⟨'[' :: ((lineStart (depth + 1)).toList ++
        ((text ++ more) ++ ((lineStart depth).toList ++ [']']))), ?_, ⟨'[', _, rfl, rfl, by decide⟩,
        ?_⟩
      · rw [indentTo, indentItems]
        · simp [restWritten, itemWritten]
        · simp
      · intro behind _
        have whole : '[' :: ((lineStart (depth + 1)).toList ++
              ((text ++ more) ++ ((lineStart depth).toList ++ [']']))) ++ behind =
            '[' :: ((lineStart (depth + 1)).toList ++
              ((text ++ more) ++ ((lineStart depth).toList ++ ']' :: behind))) := by simp
        have skipped : skipBlanks ((lineStart (depth + 1)).toList ++
              ((text ++ more) ++ ((lineStart depth).toList ++ ']' :: behind))) =
            (text ++ more) ++ ((lineStart depth).toList ++ ']' :: behind) := by
          rw [skipBlanks_lineStart, begins, List.cons_append, skipBlanks_cons solid]
        rw [whole, readValue_bracket skipped (by simpa [begins] using notClosing), settled]
        -- there are as many characters as items at least
        exact lists.reads [] _ _ depth behind
          (Nat.le_trans lists.length_le (List.sublist_append_left _ _).length_le) rfl

/-- A field is read, and then what is behind it. -/
theorem readFields_of_standsFor
    {text : Text}
    {item : Json}
    (stands : StandsFor levels text item)
    (name : String)
    (kept : List (String × Json))
    (count : Nat)
    {front rest : Text}
    (detached : Detached rest)
    (same : skipBlanks front = (quote name).toList ++ ':' :: ' ' :: (text ++ rest)) :
    readFields (readValue levels) kept (count + 1) front =
      continueFields (readValue levels) (addField name item kept) count rest := by
  have quoted : (quote name).toList ++ ':' :: ' ' :: (text ++ rest) =
      '"' :: (name.toList.flatMap escapedCharacter ++ '"' :: ':' :: ' ' :: (text ++ rest)) := by
    simp [quote]
  rw [readFields, same, quoted]
  simp only [readString_flatMap, Option.bind_eq_bind, Option.bind_some, List.reverse_nil,
    List.nil_append, String.ofList_toList]
  rw [skipBlanks_cons rfl]
  simp only
  rw [readValue_of_skipBlanks (skipBlanks_blank _), stands.reads rest detached]
  rfl

theorem skipBlanks_quote
    (name : String)
    (rest : Text) :
    skipBlanks ((quote name).toList ++ rest) = (quote name).toList ++ rest := by
  rw [quote, String.toList_ofList, List.cons_append, skipBlanks_cons rfl]

/-- What is written stands for the fields of an object, of which there is one at least. -/
structure ListsFields
    (levels : Nat)
    (written : Text)
    (fields : List (String × Json)) :
    Prop where
  begins : ∃ inside, written = '"' :: inside
  length_le : fields.length ≤ written.length
  reads : ∀ kept count front depth rest, fields.length ≤ count →
    skipBlanks front = written ++ ((lineStart depth).toList ++ '}' :: rest) →
    readFields (readValue levels) kept count front =
      some (.object (settledFields kept fields), rest)

/-- The first field, and what is written behind it. -/
theorem StandsFor.listsFields
    {text more : Text}
    {item : Json}
    {others : List (String × Json)}
    (stands : StandsFor levels text item.settled)
    (name : String)
    (continues : ContinuesFields levels more others) :
    ListsFields levels ((quote name).toList ++ ':' :: ' ' :: (text ++ more))
      ((name, item) :: others) := by
  refine ⟨⟨_, by rw [quote, String.toList_ofList, List.cons_append]⟩, ?_, ?_⟩
  · have longer := continues.length_le
    simp only [List.length_append, List.length_cons]
    omega
  · intro kept count front depth rest enough same
    obtain ⟨count, rfl⟩ := Nat.exists_eq_add_of_le' (Nat.le_trans (Nat.le_add_left 1 _) enough)
    have ends := continues.detached _ (detached_lineStart depth ('}' :: rest))
    rw [List.append_assoc, List.cons_append, List.cons_append, List.append_assoc] at same
    rw [readFields_of_standsFor stands name kept count ends same,
      continues.reads _ _ _ _ (Nat.le_of_succ_le_succ enough)]
    rfl

theorem exists_continuesFields
    {fields : List (String × Json)}
    (back : ∀ field ∈ fields, IsReadBack levels field.2)
    (written : String)
    (depth : Nat) :
    ∃ text, (indentFields written depth false fields).toList = written.toList ++ text ∧
      ContinuesFields levels text fields := by
  induction fields generalizing written with
  | nil =>
      refine ⟨[], by simp [indentFields], by simp, fun _ detached => detached, ?_⟩
      intro kept count depth rest _
      unfold continueFields
      rw [List.nil_append, skipBlanks_lineStart, skipBlanks_cons rfl]
      rfl
  | cons field rest ih =>
      obtain ⟨name, item⟩ := field
      let front := written.push ',' ++ lineStart depth ++ quote name ++ ": "
      obtain ⟨text, itemWritten, stands⟩ := back (name, item) List.mem_cons_self front depth
      obtain ⟨more, restWritten, continues⟩ := ih
        (fun other member => back other (List.mem_cons_of_mem _ member))
        (indentTo front depth item)
      have lists := stands.listsFields name continues
      refine ⟨',' :: ((lineStart depth).toList ++ ((quote name).toList ++
        ':' :: ' ' :: (text ++ more))), ?_, ?_, ?_, ?_⟩
      · rw [indentFields]
        refine restWritten.trans ?_
        rw [itemWritten]
        simp [front]
      · have longer := lists.length_le
        simp only [List.length_cons, List.length_append] at longer ⊢
        omega
      · intro behind _ character first
        cases first
        decide
      · intro kept count closing behind enough
        rw [List.cons_append, continueFields, skipBlanks_cons rfl]
        refine lists.reads kept count _ closing behind enough ?_
        rw [List.append_assoc, skipBlanks_lineStart, List.append_assoc, skipBlanks_quote]

theorem readValue_brace
    {rest inside : Text}
    (skipped : skipBlanks rest = inside)
    (nonempty : inside.head? ≠ some '}') :
    readValue (levels + 1) ('{' :: rest) =
      readFields (readValue levels) [] inside.length inside := by
  conv_lhs => unfold readValue
  rw [skipBlanks_cons rfl]
  simp only [skipped]
  split
  · next same => exact absurd rfl nonempty
  · rfl

theorem isReadBack_object
    {fields : List (String × Json)}
    (back : ∀ field ∈ fields, IsReadBack levels field.2) :
    IsReadBack (levels + 1) (object fields) := by
  intro written depth
  cases fields with
  | nil =>
      refine ⟨['{', '}'], by simp [indentTo], ⟨'{', _, rfl, rfl, by decide⟩, fun rest _ => ?_⟩
      rfl
  | cons field rest =>
      obtain ⟨name, item⟩ := field
      let front := written.push '{' ++ lineStart (depth + 1) ++ quote name ++ ": "
      obtain ⟨text, itemWritten, stands⟩ := back (name, item) List.mem_cons_self front (depth + 1)
      obtain ⟨more, restWritten, continues⟩ := exists_continuesFields
        (fun other member => back other (List.mem_cons_of_mem _ member))
        (indentTo front (depth + 1) item) (depth + 1)
      have lists := stands.listsFields name continues
      generalize fieldWritten : (quote name).toList ++ ':' :: ' ' :: (text ++ more) = own at lists
      obtain ⟨inside, begins⟩ := lists.begins
      refine ⟨'{' :: ((lineStart (depth + 1)).toList ++
        (own ++ ((lineStart depth).toList ++ ['}']))), ?_, ⟨'{', _, rfl, rfl, by decide⟩, ?_⟩
      · rw [indentTo, indentFields, String.toList_append, String.toList_append, ← fieldWritten]
        · refine (congrArg (fun text => text ++ (lineStart depth).toList ++ ['}'])
            restWritten).trans ?_
          rw [itemWritten]
          simp [front]
        · simp
      · intro behind _
        have whole : '{' :: ((lineStart (depth + 1)).toList ++
              (own ++ ((lineStart depth).toList ++ ['}']))) ++ behind =
            '{' :: ((lineStart (depth + 1)).toList ++
              (own ++ ((lineStart depth).toList ++ '}' :: behind))) := by simp
        have skipped : skipBlanks ((lineStart (depth + 1)).toList ++
              (own ++ ((lineStart depth).toList ++ '}' :: behind))) =
            own ++ ((lineStart depth).toList ++ '}' :: behind) := by
          rw [skipBlanks_lineStart, begins, List.cons_append, skipBlanks_cons rfl]
        rw [whole, readValue_brace skipped (by simp [begins]), settled]
        -- there are as many characters as fields at least
        refine lists.reads [] _ _ depth behind
          (Nat.le_trans lists.length_le (List.sublist_append_left _ _).length_le) ?_
        rw [begins, List.cons_append, skipBlanks_cons rfl]

/-- A value that nests to so many levels is written so that it stands for itself. -/
theorem Fits.isReadBack {value : Json} (fits : Fits levels value) : IsReadBack levels value := by
  induction fits with
  | null =>
      exact fun written depth =>
        ⟨"null".toList, by simp [indentTo, writeTo], standsFor_null _⟩
  | bool value =>
      cases value with
      | true =>
          exact fun written depth =>
            ⟨"true".toList, by simp [indentTo, writeTo], standsFor_true _⟩
      | false =>
          exact fun written depth =>
            ⟨"false".toList, by simp [indentTo, writeTo], standsFor_false _⟩
  | number value =>
      exact fun written depth =>
        ⟨(toString value).toList, by simp [indentTo, writeTo], standsFor_number _ value⟩
  | string value =>
      exact fun written depth =>
        ⟨(quote value).toList, by simp [indentTo, writeTo], standsFor_string _ value⟩
  | array inside ih => exact isReadBack_array ih
  | object inside ih => exact isReadBack_object ih

/--
A writer of values whose written forms stand for the values, up to the order of their fields and
with any blank space behind them.
-/
def Faithful (write : Json → String) : Prop :=
  ∀ value, Fits maximalNesting value → ∀ rest, skipBlanks rest = [] →
    read? ((write value).toList ++ rest) = some value.settled

/-- The indented form is faithful. -/
theorem faithful_indented : Faithful indented := by
  intro value fits rest blank
  have detached : Detached rest := by
    rintro first begins
    obtain ⟨more, rfl⟩ := List.head?_eq_some_iff.mp begins
    rw [skipBlanks, List.dropWhile_cons] at blank
    split at blank
    · next isBlank =>
      simp only [Bool.or_eq_true, decide_eq_true_eq] at isBlank
      rcases isBlank with ((rfl | rfl) | rfl) | rfl
      all_goals decide
    · cases blank
  obtain ⟨text, written, stands⟩ := fits.isReadBack "" 0
  rw [indented, written, String.toList_empty, List.nil_append, read?, stands.reads rest detached]
  simp only [blank, List.isEmpty_nil, if_true]

/-! ## Fields -/

theorem field?_cons
    (other : String)
    (entry : String × Json)
    (rest : List (String × Json)) :
    field? other (object (entry :: rest)) =
      if entry.1 = other then some entry.2 else field? other (object rest) := by
  by_cases found : entry.1 = other <;> simp [field?, found]

/-- A field that is added to an object is found there, and the others as before. -/
theorem field?_addField
    (other name : String)
    (value : Json)
    (fields : List (String × Json)) :
    field? other (object (addField name value fields)) =
      if name = other then some value else field? other (object fields) := by
  induction fields with
  | nil => rw [addField, field?_cons]
  | cons entry rest ih =>
      rw [addField]
      by_cases found : name = other
      · rw [if_pos found] at ih ⊢
        subst found
        split_ifs with same less
        · rw [field?_cons, if_pos rfl]
        · rw [field?_cons, if_pos rfl]
        · rw [field?_cons, if_neg (Ne.symm same), ih]
      · rw [if_neg found] at ih ⊢
        split_ifs with same less
        · rw [field?_cons, if_neg found, field?_cons, if_neg (same ▸ found)]
        · rw [field?_cons, if_neg found]
        · rw [field?_cons, ih, ← field?_cons]

end LuaFold.Json
