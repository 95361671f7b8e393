import QueryFilter.Json.Number
import QueryFilter.Entries
import QueryFilter.Text.CodeUnit

/-!
# Reading JSON text

JSON as its standard has it: no comments, no comma before a closing bracket, no control characters
in strings, and surrogates only in pairs. Containers may be nested 127 deep. Of entries with the
same key the first gives the place and the last the value.

A reader takes the text that is left and gives what it read and the text after it. The reader of
values is a recursion on how many containers may still be opened; within a container, each item
takes at least one character, so the length of the text bounds their number.

## Main definitions

* `Json.readString` — a string after its opening quote
* `Json.readValue` — a value
* `Json.read` — the value that is a whole text
-/

namespace QueryFilter

namespace Json

open Text

/-- The blanks of JSON. -/
def isSpace (c : Char) : Bool := c = ' ' || c = '\n' || c = '\t' || c = '\r'

/-- The text from its first character that is not blank. -/
def skipSpace (cs : List Char) : List Char := cs.dropWhile isSpace

/-! ### Strings -/

/-- A code unit of four hexadecimal digits. Fewer than four bytes are an end of text, other
characters an error behind four bytes. -/
def readUnit (cs : List Char) : Result Nat :=
  if utf8Length cs < 4 then .error (.atEnd .endInString)
  else match hex4? cs with
    | some found => .ok found
    | none => .error ⟨.invalidEscape, utf8Length cs - 4⟩

/-- The text after a character that has to follow a high surrogate. -/
def readPairMark (mark : Char) : List Char → Except Fault (List Char)
  | [] => .error (.atEnd .endInString)
  | c :: cs => if c = mark then .ok cs else .error (.within .unfinishedPair (c :: cs))

/-- The character of a code unit that has been read, together with the second half of a pair. -/
def readPair (unit : Nat) (cs : List Char) : Result Char :=
  if isLowSurrogate unit then .error (.before .loneSurrogate cs)
  else if isHighSurrogate unit then
    match readPairMark '\\' cs with
    | .error e => .error e
    | .ok cs =>
      match readPairMark 'u' cs with
      | .error e => .error e
      | .ok cs =>
        match readUnit cs with
        | .error e => .error e
        | .ok (low, rest) =>
          if isLowSurrogate low then .ok (Char.ofNat (pairCode unit low), rest)
          else .error (.before .loneSurrogate rest)
  else .ok (Char.ofNat unit, cs)

/-- The character of an escape of one letter. -/
def simpleEscape? (c : Char) : Option Char :=
  if c = '"' || c = '\\' || c = '/' then some c
  else if c = 'b' then some '\x08'
  else if c = 'f' then some '\x0c'
  else if c = 'n' then some '\n'
  else if c = 'r' then some '\r'
  else if c = 't' then some '\t'
  else none

/-- The character of an escape, given the text after the backslash. -/
def readEscape : List Char → Result Char
  | [] => .error (.atEnd .endInString)
  | c :: cs =>
    if c = 'u' then
      match readUnit cs with
      | .error e => .error e
      | .ok (unit, rest) => readPair unit rest
    else match simpleEscape? c with
      | some d => .ok (d, cs)
      | none => .error (.within .invalidEscape (c :: cs))

theorem suffix_of_readUnit {cs rest : List Char} {unit : Nat} (h : readUnit cs = .ok (unit, rest)) :
    rest <:+ cs := by
  unfold readUnit at h
  split at h
  · cases h
  · split at h
    · rename_i hx
      cases h
      exact suffix_of_hex4? hx
    · cases h

theorem suffix_of_readPairMark {mark : Char} {cs rest : List Char}
    (h : readPairMark mark cs = .ok rest) : rest <:+ cs := by
  unfold readPairMark at h
  split at h
  · cases h
  · split at h
    · cases h
      exact List.suffix_cons _ _
    · cases h

theorem suffix_of_readPair {unit : Nat} {cs rest : List Char} {c : Char}
    (h : readPair unit cs = .ok (c, rest)) : rest <:+ cs := by
  unfold readPair at h
  split at h
  · cases h
  · split at h
    · split at h
      · cases h
      · rename_i h₁
        split at h
        · cases h
        · rename_i h₂
          split at h
          · cases h
          · rename_i h₃
            split at h
            · rw [Except.ok.injEq, Prod.mk.injEq] at h
              rw [← h.2]
              exact (suffix_of_readUnit h₃).trans
                ((suffix_of_readPairMark h₂).trans (suffix_of_readPairMark h₁))
            · cases h
    · rw [Except.ok.injEq, Prod.mk.injEq] at h
      exact h.2 ▸ List.suffix_rfl

theorem suffix_of_readEscape {cs rest : List Char} {c : Char} (h : readEscape cs = .ok (c, rest)) :
    rest <:+ cs := by
  unfold readEscape at h
  split at h
  · cases h
  · split at h
    · split at h
      · cases h
      · rename_i hu
        exact (suffix_of_readPair h).trans ((suffix_of_readUnit hu).trans (List.suffix_cons _ _))
    · split at h
      · cases h
        exact List.suffix_cons _ _
      · cases h

/-- The content of a string, given the text after its opening quote. -/
def readChars (cs : List Char) : Result (List Char) :=
  match cs with
  | [] => .error (.atEnd .endInString)
  | c :: rest =>
    if c = '"' then .ok ([], rest)
    else if c = '\\' then
      match h : readEscape rest with
      | .error e => .error e
      | .ok (d, more) =>
        have := (suffix_of_readEscape h).length_le
        (readChars more).map fun (text, after) => (d :: text, after)
    else if c.toNat < 0x20 then .error (.before .controlCharacter rest)
    else (readChars rest).map fun (text, after) => (c :: text, after)
termination_by cs.length
decreasing_by
  · simp only [List.length_cons]
    omega
  · simp only [List.length_cons]
    omega

/-- A string, given the text after its opening quote. -/
def readString (cs : List Char) : Result String :=
  (readChars cs).map fun (text, rest) => (String.ofList text, rest)

/-! ### Containers -/

/-- The rest of a word whose first letter has been read. -/
def readWord : List Char → List Char → Except Fault (List Char)
  | [], cs => .ok cs
  | _ :: _, [] => .error (.atEnd .endInValue)
  | w :: word, c :: cs =>
    if w = c then readWord word cs else .error (.within .expectedWord (c :: cs))

/-- The text of the next item after a comma, where a closing bracket is an error. -/
def afterComma (close : Char) (cs : List Char) : Except Fault (List Char) :=
  match skipSpace cs with
  | [] => .error (.atEnd .endInValue)
  | c :: rest => if c = close then .error (.within .trailingComma (c :: rest)) else .ok (c :: rest)

/-- What follows an item of an array: the text of the next one, or after the end of the array. -/
def afterItem (cs : List Char) : Except Fault (List Char ⊕ List Char) :=
  match skipSpace cs with
  | [] => .error (.atEnd .endInList)
  | c :: rest =>
    if c = ']' then .ok (.inr rest)
    else if c = ',' then (afterComma ']' rest).map .inl
    else .error (.within .expectedListEnd (c :: rest))

/-- The items of an array from a first one to the end, at most `fuel` of them. -/
def readItems (item : List Char → Result Json) : Nat → List Char → Result (List Json)
  | 0, cs => .error (.before .expectedListEnd cs)
  | fuel + 1, cs =>
    match item cs with
    | .error e => .error e
    | .ok (v, rest) =>
      match afterItem rest with
      | .error e => .error e
      | .ok (.inr rest) => .ok ([v], rest)
      | .ok (.inl more) => (readItems item fuel more).map fun (vs, rest) => (v :: vs, rest)

/-- An array, given the text after its opening bracket. -/
def readArray (item : List Char → Result Json) (cs : List Char) : Result (List Json) :=
  match skipSpace cs with
  | [] => .error (.atEnd .endInList)
  | c :: rest =>
    if c = ']' then .ok ([], rest) else readItems item (c :: rest).length (c :: rest)

/-- A key of an object. -/
def readKey : List Char → Result String
  | [] => .error (.atEnd .endInValue)
  | c :: cs => if c = '"' then readString cs else .error (.within .keyNotString (c :: cs))

/-- The text after the colon that follows a key. -/
def readColon (cs : List Char) : Except Fault (List Char) :=
  match skipSpace cs with
  | [] => .error (.atEnd .endInObject)
  | c :: rest => if c = ':' then .ok rest else .error (.within .expectedColon (c :: rest))

/-- What follows an entry of an object: the text of the next one, or after the end of the
object. -/
def afterEntry (cs : List Char) : Except Fault (List Char ⊕ List Char) :=
  match skipSpace cs with
  | [] => .error (.atEnd .endInObject)
  | c :: rest =>
    if c = '\x7d' then .ok (.inr rest)
    else if c = ',' then (afterComma '\x7d' rest).map .inl
    else .error (.within .expectedObjectEnd (c :: rest))

/-- The entries of an object from a first one to the end, at most `fuel` of them. -/
def readEntries (item : List Char → Result Json) : Nat → List Char → Result (List (String × Json))
  | 0, cs => .error (.before .expectedObjectEnd cs)
  | fuel + 1, cs =>
    match readKey cs with
    | .error e => .error e
    | .ok (key, rest) =>
      match readColon rest with
      | .error e => .error e
      | .ok rest =>
        match item rest with
        | .error e => .error e
        | .ok (v, rest) =>
          match afterEntry rest with
          | .error e => .error e
          | .ok (.inr rest) => .ok ([(key, v)], rest)
          | .ok (.inl more) =>
            (readEntries item fuel more).map fun (vs, rest) => ((key, v) :: vs, rest)

/-- An object, given the text after its opening bracket. -/
def readObject (item : List Char → Result Json) (cs : List Char) : Result (List (String × Json)) :=
  match skipSpace cs with
  | [] => .error (.atEnd .endInObject)
  | c :: rest =>
    if c = '\x7d' then .ok ([], rest) else readEntries item (c :: rest).length (c :: rest)

/-! ### Values -/

/-- A value, given the reader of the values in it; there is none if no container may be opened. -/
def readWith (inner : Option (List Char → Result Json)) (cs : List Char) : Result Json :=
  match skipSpace cs with
  | [] => .error (.atEnd .endInValue)
  | c :: rest =>
    if c = 'n' then (readWord ['u', 'l', 'l'] rest).map (.null, ·)
    else if c = 't' then (readWord ['r', 'u', 'e'] rest).map (.boolean true, ·)
    else if c = 'f' then (readWord ['a', 'l', 's', 'e'] rest).map (.boolean false, ·)
    else if c = '"' then (readString rest).map fun (text, rest) => (.string text, rest)
    else if c = '-' then readNumber true rest
    else if isDigit c then readNumber false (c :: rest)
    else if c = '[' || c = '\x7b' then
      match inner with
      | none => .error (.within .tooDeep (c :: rest))
      | some item =>
        if c = '[' then (readArray item rest).map fun (vs, rest) => (.array vs, rest)
        else (readObject item rest).map fun (vs, rest) => (.object (Entries.ofPairs vs), rest)
    else .error (.within .expectedValue (c :: rest))

/-- A value with at most `depth` containers nested in it. -/
def readValue : Nat → List Char → Result Json
  | 0 => readWith none
  | depth + 1 => readWith (some (readValue depth))

/-- How deep containers may be nested. -/
def maxDepth : Nat := 127

/-- The value that a text is after a reader has taken its front: nothing but blanks may be left. -/
def finish {α : Type} (result : Result α) : Except Fault α :=
  match result with
  | .error e => .error e
  | .ok (a, rest) =>
    match skipSpace rest with
    | [] => .ok a
    | c :: more => .error (.within .trailingCharacters (c :: more))

/-- The value of a whole text. -/
def read (cs : List Char) : Except Fault Json := finish (readValue maxDepth cs)

end Json

end QueryFilter
