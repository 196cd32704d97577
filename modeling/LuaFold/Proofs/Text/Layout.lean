import LuaFold.Token
import Mathlib.Algebra.GroupWithZero.Nat

/-!
# Layouts and cuts of texts

Items laid end to end begin where the ones before them stop, so a layout splits where its
list of items splits.  The widths of trivia and tokens are the sizes of their texts, which is
why cutting a text after the width of a piece gives the piece back.
-/

namespace LuaFold

namespace Text

theorem size_pos {text : Text} (nonempty : text ≠ []) : 0 < size text :=
  Nat.pos_of_ne_zero fun empty => nonempty (size_eq_zero_iff.mp empty)

variable {Item : Type}

private theorem layOut_go
    (width : Item → Nat)
    (offset : Nat)
    (placed : List (Nat × Item))
    (items : List Item) :
    layOut.go width offset placed items =
      placed.reverse ++ layOut.go width offset [] items := by
  induction items generalizing offset placed with
  | nil => simp [layOut.go]
  | cons item rest ih =>
      rw [layOut.go, layOut.go, ih, ih _ [(offset, item)]]
      simp

@[simp]
theorem layOut_nil
    (width : Item → Nat)
    (offset : Nat) :
    layOut width offset [] = [] :=
  rfl

@[simp]
theorem layOut_cons
    (width : Item → Nat)
    (offset : Nat)
    (item : Item)
    (rest : List Item) :
    layOut width offset (item :: rest) =
      (offset, item) :: layOut width (offset + width item) rest := by
  rw [layOut, layOut.go, layOut_go]
  rfl

/-- A layout of two lists of items is the layout of the first and then of the second. -/
theorem layOut_append
    (width : Item → Nat)
    (offset : Nat)
    (first second : List Item) :
    layOut width offset (first ++ second) =
      layOut width offset first
        ++ layOut width (offset + (first.map width).sum) second := by
  induction first generalizing offset with
  | nil => simp
  | cons item rest ih => simp [ih, Nat.add_assoc]

theorem map_snd_layOut
    (width : Item → Nat)
    (offset : Nat)
    (items : List Item) :
    (layOut width offset items).map Prod.snd = items := by
  induction items generalizing offset with
  | nil => rfl
  | cons item rest ih => simp [ih]

theorem length_layOut
    (width : Item → Nat)
    (offset : Nat)
    (items : List Item) :
    (layOut width offset items).length = items.length := by
  have lengths := congrArg List.length (map_snd_layOut width offset items)
  rwa [List.length_map] at lengths

theorem mem_of_mem_layOut
    {width : Item → Nat}
    {offset : Nat}
    {items : List Item}
    {placed : Nat × Item}
    (member : placed ∈ layOut width offset items) :
    placed.2 ∈ items := by
  rw [← map_snd_layOut width offset items]
  exact List.mem_map_of_mem member

/-- Every item is laid out somewhere. -/
theorem exists_mem_layOut
    (width : Item → Nat)
    (offset : Nat)
    {items : List Item}
    {item : Item}
    (member : item ∈ items) :
    ∃ place, (place, item) ∈ layOut width offset items := by
  rw [← map_snd_layOut width offset items] at member
  obtain ⟨⟨place, _⟩, listed, rfl⟩ := List.mem_map.mp member
  exact ⟨place, listed⟩

/-- What items contribute does not depend on where they are laid out. -/
theorem flatMap_layOut
    {Other : Type}
    (width : Item → Nat)
    (offset : Nat)
    (items : List Item)
    (content : Item → List Other) :
    ((layOut width offset items).flatMap fun placed => content placed.2) =
      items.flatMap content := by
  induction items generalizing offset with
  | nil => rfl
  | cons item rest ih => simp [ih]

private theorem cut?_go (taken left right : Text) :
    cut?.go (size left) taken (left ++ right) = some (taken.reverse ++ left, right) := by
  induction left generalizing taken with
  | nil => cases right <;> simp [cut?.go]
  | cons character rest ih =>
      have positive := character.utf8Size_pos
      simp [cut?.go, Nat.ne_of_gt positive, ih]

/-- Cutting a text after the bytes of its front part gives this part and the rest. -/
theorem cut?_size_append (left right : Text) :
    cut? (size left) (left ++ right) = some (left, right) := by
  simpa [cut?] using cut?_go [] left right

end Text

namespace Trivia

private theorem foldl_width
    (pieces : List Trivia)
    (start : Nat) :
    pieces.foldl (fun total piece => total + piece.width) start =
      start + Text.size (pieces.flatMap Trivia.text) := by
  induction pieces generalizing start with
  | nil => simp
  | cons piece rest ih =>
      rw [List.foldl_cons, ih]
      simp [width, Nat.add_assoc]

/-- The width of a run of trivia is the size of its text. -/
theorem runWidth_eq_size (pieces : List Trivia) :
    runWidth pieces = Text.size (pieces.flatMap Trivia.text) := by
  simpa [runWidth] using foldl_width pieces 0

theorem sum_width (pieces : List Trivia) :
    (pieces.map width).sum = Text.size (pieces.flatMap Trivia.text) := by
  induction pieces with
  | nil => rfl
  | cons piece rest ih => simp [ih, width]

end Trivia

namespace Token

/-- The width of a token is the size of its text, trivia included. -/
theorem width_eq_size (token : Token) : token.width = Text.size token.fullText := by
  simp [width, fullText, innerWidth, Trivia.runWidth_eq_size, Nat.add_assoc]

/-- The widths of tokens add up to the size of their texts. -/
theorem sum_width (tokens : List Token) :
    (tokens.map Token.width).sum = Text.size (tokens.flatMap Token.fullText) := by
  induction tokens with
  | nil => rfl
  | cons token rest ih => simp [ih, width_eq_size]

end Token

end LuaFold
