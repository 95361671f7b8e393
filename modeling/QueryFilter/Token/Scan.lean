import QueryFilter.Token.Error
import QueryFilter.Token.Numeral
import QueryFilter.Text.Blank
import QueryFilter.Text.CodeUnit

/-!
# Scanning a text into tokens

Tokens are read one after the other at a cursor: the text that is left, and the byte offset at which
it starts. The offset places tokens and errors; what is read does not depend on it. Between tokens
stand blanks.

The one token whose extent depends on more than the characters it is made of is the name of a
typed literal: `date` is a field, unless the next character that is not blank is a parenthesis.

## Main definitions

* `Cursor` — a place in a text
* `Token.readString`, `Token.readPath`, `Token.readName`, `Token.readSymbol?` — the token classes
* `Token.read` — one token
* `Token.scan` — the tokens up to the end or to the first error
* `Token.ofText` — all tokens of a text, or the first error
-/

namespace QueryFilter

open Text

/-- A place in a text: its byte offset, and the text from there. -/
structure Cursor where
  position : Nat
  rest : List Char

/-- The place of the first character that is not blank. -/
def Cursor.skipBlanks (cursor : Cursor) : Cursor :=
  ⟨cursor.position + utf8Length (cursor.rest.takeWhile isBlank), Text.skipBlanks cursor.rest⟩

namespace Token

/-! ### Strings -/

/-- A quotation mark that opens a string. -/
def isQuote (c : Char) : Bool := c = '"' || c = '\''

/-- The character that stands for itself or for a control after a backslash. -/
def simpleEscape? (c : Char) : Option Char :=
  if c = '\\' || c = '"' || c = '\'' || c = '/' then some c
  else if c = 'n' then some '\n'
  else if c = 't' then some '\t'
  else if c = 'r' then some '\r'
  else if c = 'b' then some '\x08'
  else if c = 'f' then some '\x0c'
  else none

/-- The character that an escape stands for, given what follows the backslash: the character, how
many characters write it, and the text after them. -/
def escape? : List Char → Option (Char × Nat × List Char)
  | [] => none
  | c :: rest =>
    if c = 'u' then (unicodeEscape? rest).map fun (d, n, more) => (d, n + 1, more)
    else (simpleEscape? c).map fun d => (d, 1, rest)

theorem suffix_of_escape? {cs rest : List Char} {c : Char} {n : Nat}
    (h : escape? cs = some (c, n, rest)) : rest <:+ cs := by
  unfold escape? at h
  split at h
  · cases h
  · split at h
    · simp only [Option.map_eq_some_iff, Prod.mk.injEq] at h
      obtain ⟨⟨d, k, more⟩, hu, _, _, rfl⟩ := h
      exact (suffix_of_unicodeEscape? hu).trans (List.suffix_cons _ _)
    · simp only [Option.map_eq_some_iff, Prod.mk.injEq] at h
      obtain ⟨_, _, _, _, rfl⟩ := h
      exact List.suffix_cons _ _

/-- The error of a backslash that starts no escape. -/
def badEscape (start position : Nat) : List Char → LexError
  | [] => .unterminatedString start
  | c :: _ => .invalidEscape position c

/-- The content of a string up to its closing quote, and the place after that. The opening quote
stands at `start`, and the text that is left at `position`. -/
def readString (start : Nat) (quote : Char) (position : Nat) (cs : List Char) :
    Except LexError (List Char × Cursor) :=
  match cs with
  | [] => .error (.unterminatedString start)
  | c :: rest =>
    if c = quote then .ok ([], ⟨position + c.utf8Size, rest⟩)
    else if c = '\\' then
      match h : escape? rest with
      | some (d, n, more) =>
        have := (suffix_of_escape? h).length_le
        (readString start quote (position + 1 + n) more).map fun (text, next) => (d :: text, next)
      | none => .error (badEscape start position rest)
    else
      (readString start quote (position + c.utf8Size) rest).map
        fun (text, next) => (c :: text, next)
termination_by cs.length
decreasing_by
  · simp only [List.length_cons]
    omega
  · simp only [List.length_cons]
    omega

/-! ### Numbers -/

/-- A number, and the place after it. -/
def readNumber (position : Nat) (cs : List Char) : Except LexError (TokenKind × Cursor) :=
  let (numeral, rest) := Numeral.take cs
  match numeral.number? with
  | some n => .ok (.number n, ⟨position + utf8Length numeral.text, rest⟩)
  | none => .error (.invalidNumber position (String.ofList numeral.text))

/-! ### Names -/

/-- The first character of a path segment after a dot: of a name, or of an array index. -/
def isSegmentStart (c : Char) : Bool := isNameStart c || isDigit c

/-- The characters of a dotted path, and the text after it. A segment has to follow each dot. -/
def readPath (position : Nat) : List Char → Except LexError (List Char × List Char)
  | [] => .ok ([], [])
  | c :: cs =>
    if c = '.' && !cs.head?.any isSegmentStart then
      .error <| match cs.head? with
        | none => .unexpectedChar position '.'
        | some d => .unexpectedChar (position + 1) d
    else if c = '.' || isNameChar c then
      (readPath (position + 1) cs).map fun (path, rest) => (c :: path, rest)
    else .ok ([], c :: cs)

/-- The kind of typed literal that a name stands for in front of a parenthesis. -/
def markerKind? (name : List Char) : Option MarkerKind :=
  let lower := String.ofList (name.map Char.toLower)
  if lower = "date" || lower = "isodate" then some .date
  else if lower = "oid" || lower = "objectid" then some .objectId
  else none

/-- The token of a name: a keyword in any case, or a field. -/
def ofName (name : List Char) : TokenKind :=
  let lower := String.ofList (name.map Char.toLower)
  if lower = "and" then .and
  else if lower = "or" then .or
  else if lower = "not" then .not
  else if lower = "in" then .member
  else if lower = "exists" then .present
  else if lower = "true" then .boolean true
  else if lower = "false" then .boolean false
  else if lower = "null" then .null
  else .field (String.ofList name)

/-- The quoted text in the parentheses of a typed literal, given the place after the opening one,
and the place after the closing one. What is not of that form is `malformed`. -/
def readArgument (malformed : LexError) (cursor : Cursor) : Except LexError (String × Cursor) :=
  let start := cursor.skipBlanks
  match start.rest with
  | [] => .error malformed
  | quote :: body =>
    if isQuote quote then
      match readString start.position quote (start.position + 1) body with
      | .error e => .error e
      | .ok (raw, next) =>
        match next.skipBlanks with
        | ⟨position, ')' :: rest⟩ => .ok (String.ofList raw, ⟨position + 1, rest⟩)
        | _ => .error malformed
    else .error malformed

/-- A field, a keyword or a typed literal, and the place after it. -/
def readName (position : Nat) (cs : List Char) : Except LexError (TokenKind × Cursor) :=
  match readPath position cs with
  | .error e => .error e
  | .ok (name, rest) =>
    let next : Cursor := ⟨position + utf8Length name, rest⟩
    match markerKind? name, next.skipBlanks with
    | some kind, ⟨here, '(' :: argument⟩ =>
      (readArgument (.malformedMarker position (String.ofList name)) ⟨here + 1, argument⟩).map
        fun (raw, next) => (.marker kind raw, next)
    | _, _ => .ok (ofName name, next)

/-! ### Operators and punctuation -/

/-- The spellings of operators and punctuation; one that begins another comes after it. -/
def symbols : List (List Char × TokenKind) :=
  [(['=', '='], .equal), (['='], .equal), (['<', '='], .lessEqual), (['<', '>'], .notEqual),
    (['<'], .less), (['>', '='], .greaterEqual), (['>'], .greater), (['!', '='], .notEqual),
    (['!'], .not), (['&', '&'], .and), (['|', '|'], .or), (['~'], .pattern), (['('], .leftParen),
    ([')'], .rightParen), (['['], .leftBracket), ([']'], .rightBracket), ([','], .comma)]

/-- The text after a given front part. -/
def after? : List Char → List Char → Option (List Char)
  | [], cs => some cs
  | _ :: _, [] => none
  | p :: ps, c :: cs => if p = c then after? ps cs else none

/-- The operator or punctuation at the front of a text, and the place after it. -/
def readSymbol? (position : Nat) (cs : List Char) : Option (TokenKind × Cursor) :=
  symbols.findSome? fun (spelling, kind) =>
    (after? spelling cs).map fun rest => (kind, ⟨position + utf8Length spelling, rest⟩)

/-! ### One token -/

/-- The token that a character and the text after it start with, and the place after it. -/
def read (position : Nat) (c : Char) (cs : List Char) : Except LexError (TokenKind × Cursor) :=
  match readSymbol? position (c :: cs) with
  | some found => .ok found
  | none =>
    if isQuote c then
      (readString position c (position + 1) cs).map
        fun (text, next) => (.string (String.ofList text), next)
    else if isDigit c || (c = '-' && cs.head?.any isDigit) then readNumber position (c :: cs)
    else if isNameStart c then readName position (c :: cs)
    else .error (.unexpectedChar position c)

/-! ### Reading leaves an end of the text -/

theorem suffix_of_readString {start position : Nat} {quote : Char} {cs text : List Char}
    {next : Cursor} (h : readString start quote position cs = .ok (text, next)) :
    next.rest <:+ cs := by
  fun_induction readString start quote position cs generalizing text next with
  | case1 => cases h
  | case2 =>
    cases h
    exact List.suffix_cons _ _
  | case3 _ cs d n more he _ _ ih =>
    simp only [Except.map] at h
    split at h
    · cases h
    · rename_i hr
      cases h
      exact (ih hr).trans ((suffix_of_escape? he).trans (List.suffix_cons _ _))
  | case4 => cases h
  | case5 _ c cs _ _ ih =>
    simp only [Except.map] at h
    split at h
    · cases h
    · rename_i hr
      cases h
      exact (ih hr).trans (List.suffix_cons _ _)

theorem suffix_of_readNumber {position : Nat} {c : Char} {cs : List Char} {kind : TokenKind}
    {next : Cursor} (hc : isDigit c || c = '-')
    (h : readNumber position (c :: cs) = .ok (kind, next)) : next.rest <:+ cs := by
  unfold readNumber at h
  simp only at h
  split at h
  · cases h
    exact Numeral.suffix_take hc cs
  · cases h

theorem eq_append_of_readPath {position : Nat} {cs path rest : List Char}
    (h : readPath position cs = .ok (path, rest)) : cs = path ++ rest := by
  fun_induction readPath position cs generalizing path rest with
  | case1 =>
    cases h
    rfl
  | case2 => cases h
  | case3 _ c cs _ _ ih =>
    simp only [Except.map] at h
    split at h
    · cases h
    · rename_i hr
      cases h
      rw [ih hr, List.cons_append]
  | case4 =>
    cases h
    rfl

theorem suffix_skipBlanks (cursor : Cursor) : cursor.skipBlanks.rest <:+ cursor.rest :=
  List.dropWhile_suffix _

theorem suffix_of_readArgument {malformed : LexError} {cursor next : Cursor} {raw : String}
    (h : readArgument malformed cursor = .ok (raw, next)) : next.rest <:+ cursor.rest := by
  unfold readArgument at h
  simp only at h
  split at h
  · cases h
  · rename_i quote body hbody
    split at h
    · split at h
      · cases h
      · rename_i middle hs
        split at h
        · rename_i position rest hrest
          cases h
          have h₁ := hrest ▸ suffix_skipBlanks middle
          have h₂ := (suffix_of_readString hs).trans (List.suffix_cons quote body)
          have h₃ := hbody ▸ suffix_skipBlanks cursor
          exact (List.suffix_cons ')' rest).trans (h₁.trans (h₂.trans h₃))
        · cases h
    · cases h

theorem isNameChar_of_isNameStart {c : Char} (h : isNameStart c) : isNameChar c := by
  simp only [isNameStart, isNameChar, Char.isAlphanum, Bool.or_eq_true] at h ⊢
  rcases h with h | h
  · exact .inl (.inl (.inl (.inl h)))
  · exact .inl (.inl (.inr h))

/-- A path that starts with the first character of a name has that character in it. -/
theorem readPath_cons {position : Nat} {c : Char} {cs path rest : List Char} (hc : isNameStart c)
    (h : readPath position (c :: cs) = .ok (path, rest)) : ∃ tail, path = c :: tail := by
  have hdot : c ≠ '.' := by
    rintro rfl
    exact absurd hc (by decide)
  rw [readPath, if_neg (by simp [hdot]), if_pos (by simp [isNameChar_of_isNameStart hc])] at h
  simp only [Except.map] at h
  split at h
  · cases h
  · cases h
    exact ⟨_, rfl⟩

theorem suffix_of_readName {position : Nat} {c : Char} {cs : List Char} {kind : TokenKind}
    {next : Cursor} (hc : isNameStart c) (h : readName position (c :: cs) = .ok (kind, next)) :
    next.rest <:+ cs := by
  unfold readName at h
  split at h
  · cases h
  · rename_i name left hp
    have hleft : left <:+ cs := by
      obtain ⟨tail, rfl⟩ := readPath_cons hc hp
      have := eq_append_of_readPath hp
      simp only [List.cons_append, List.cons.injEq] at this
      exact ⟨tail, this.2.symm⟩
    simp only at h
    split at h
    · rename_i here argument _ hskip
      simp only [Except.map] at h
      split at h
      · cases h
      · rename_i hm
        cases h
        have h₁ := hskip ▸ suffix_skipBlanks ⟨position + utf8Length name, left⟩
        have h₂ := (suffix_of_readArgument hm).trans (List.suffix_cons '(' argument)
        exact h₂.trans (h₁.trans hleft)
    · cases h
      exact hleft

theorem eq_append_of_after? {p cs rest : List Char} (h : after? p cs = some rest) :
    cs = p ++ rest := by
  induction p generalizing cs with
  | nil =>
    cases h
    rfl
  | cons d p ih =>
    cases cs with
    | nil => cases h
    | cons c cs =>
      rw [after?] at h
      split at h
      · rename_i hd
        rw [hd, ih h]
        rfl
      · cases h

theorem suffix_of_readSymbol? {position : Nat} {c : Char} {cs : List Char} {kind : TokenKind}
    {next : Cursor} (h : readSymbol? position (c :: cs) = some (kind, next)) :
    next.rest <:+ cs := by
  obtain ⟨⟨spelling, k⟩, hmem, hk⟩ := List.exists_of_findSome?_eq_some h
  simp only [Option.map_eq_some_iff, Prod.mk.injEq] at hk
  obtain ⟨rest, ha, _, rfl⟩ := hk
  have happ := eq_append_of_after? ha
  cases spelling with
  | nil => exact absurd hmem (by simp [symbols])
  | cons d spelling =>
    simp only [List.cons_append, List.cons.injEq] at happ
    exact ⟨spelling, happ.2.symm⟩

/-- A token takes at least its first character. -/
theorem suffix_of_read {position : Nat} {c : Char} {cs : List Char} {kind : TokenKind}
    {next : Cursor} (h : read position c cs = .ok (kind, next)) : next.rest <:+ cs := by
  unfold read at h
  split at h
  · rename_i hs
    cases h
    exact suffix_of_readSymbol? hs
  · split at h
    · simp only [Except.map] at h
      split at h
      · cases h
      · rename_i hs
        cases h
        exact suffix_of_readString hs
    · split at h
      · rename_i hc
        refine suffix_of_readNumber ?_ h
        simp only [Bool.or_eq_true, Bool.and_eq_true] at hc ⊢
        exact hc.imp_right (·.1)
      · split at h
        · rename_i hc
          exact suffix_of_readName hc h
        · cases h

/-! ### All tokens -/

/-- The tokens of a text up to its end or to the first error. -/
structure Scan where
  tokens : List Token
  fault : Option LexError
deriving DecidableEq

/-- The same scan with one more token in front. -/
def Scan.cons (token : Token) (s : Scan) : Scan := { s with tokens := token :: s.tokens }

/-- The tokens at a cursor and after it. The last one is the end of input. -/
def scanFrom (cursor : Cursor) : Scan :=
  match hstart : cursor.skipBlanks with
  | ⟨start, []⟩ => ⟨[⟨.endOfInput, .point start⟩], none⟩
  | ⟨start, c :: body⟩ =>
    match hread : read start c body with
    | .error e => ⟨[], some e⟩
    | .ok (kind, next) =>
      have : next.rest.length < cursor.rest.length := by
        have h₁ := (suffix_of_read hread).length_le
        have h₂ := (hstart ▸ suffix_skipBlanks cursor).length_le
        simp only [List.length_cons] at h₂
        omega
      (scanFrom next).cons ⟨kind, start, next.position⟩
termination_by cursor.rest.length

/-- The tokens of a text up to its end or to the first error. -/
def scan (source : String) : Scan := scanFrom ⟨0, source.toList⟩

/-- All tokens of a text, ending with the end of input, or the first lexical error. -/
def ofText (source : String) : Except LexError (List Token) :=
  match (scan source).fault with
  | none => .ok (scan source).tokens
  | some e => .error e

end Token

end QueryFilter
