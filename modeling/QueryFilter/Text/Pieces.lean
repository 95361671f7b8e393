/-!
# Pieces between separators

A text with `n` separators falls into `n + 1` pieces, empty ones included; joining them with the
separator gives the text back. The same holds for any list, such as the bytes of an input.
-/

namespace QueryFilter

namespace Text

/-- The pieces of a list between its separators; a list without one is a single piece. -/
def pieces {α : Type} [DecidableEq α] (separator : α) : List α → List (List α)
  | [] => [[]]
  | c :: cs =>
    if c = separator then [] :: pieces separator cs
    else match pieces separator cs with
      | [] => [[c]]
      | piece :: more => (c :: piece) :: more

/-- Pieces with the separator between them. -/
def joinPieces {α : Type} (separator : α) (ps : List (List α)) : List α :=
  List.intercalate [separator] ps

end Text

end QueryFilter
