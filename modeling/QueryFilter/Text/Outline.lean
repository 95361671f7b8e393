/-!
# Outlines

A tree of named values, as it is listed for a reader who wants to see its structure: on one line,
or with every component on a line of its own.

## Main definitions

* `Outline` — a word, a name with arguments, a name with named fields, or a list
* `Outline.compact`, `Outline.pretty` — an outline on one line, and on several
-/

namespace QueryFilter

/-- The structure of a value. -/
inductive Outline where
  | word (text : String)
  | call (name : String) (arguments : List Outline)
  | record (name : String) (fields : List (String × Outline))
  | list (items : List Outline)

namespace Outline

mutual

/-- An outline on one line. -/
def compact : Outline → String
  | word text => text
  | call name arguments => name ++ "(" ++ ", ".intercalate (compactItems arguments) ++ ")"
  | record name fields => name ++ " \x7b " ++ ", ".intercalate (compactFields fields) ++ " \x7d"
  | list items => "[" ++ ", ".intercalate (compactItems items) ++ "]"

/-- Outlines on one line each. -/
def compactItems : List Outline → List String
  | [] => []
  | o :: os => o.compact :: compactItems os

/-- Named outlines on one line each. -/
def compactFields : List (String × Outline) → List String
  | [] => []
  | (name, o) :: fields => (name ++ ": " ++ o.compact) :: compactFields fields

end

/-- A line break and the indentation of a level. -/
def lineBreak (level : Nat) : String := String.ofList ('\n' :: List.replicate (4 * level) ' ')

mutual

/-- An outline with each component on a line of its own, one level deeper than the outline. -/
def prettyAt (level : Nat) : Outline → String
  | word text => text
  | call name arguments =>
    if arguments.isEmpty then name ++ "()"
    else name ++ "(" ++ prettyItems (level + 1) arguments ++ lineBreak level ++ ")"
  | record name fields =>
    if fields.isEmpty then name
    else name ++ " \x7b" ++ prettyFields (level + 1) fields ++ lineBreak level ++ "\x7d"
  | list items =>
    if items.isEmpty then "[]"
    else "[" ++ prettyItems (level + 1) items ++ lineBreak level ++ "]"

/-- Outlines on lines of their own. -/
def prettyItems (level : Nat) : List Outline → String
  | [] => ""
  | o :: os => lineBreak level ++ o.prettyAt level ++ "," ++ prettyItems level os

/-- Named outlines on lines of their own. -/
def prettyFields (level : Nat) : List (String × Outline) → String
  | [] => ""
  | (name, o) :: fields =>
    lineBreak level ++ name ++ ": " ++ o.prettyAt level ++ "," ++ prettyFields level fields

end

/-- An outline with each component on a line of its own. -/
def pretty (o : Outline) : String := o.prettyAt 0

end Outline

end QueryFilter
