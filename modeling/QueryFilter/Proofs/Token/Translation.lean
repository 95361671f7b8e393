import QueryFilter.Proofs.Token.Tiling

/-!
# A text that starts further on

The readers of tokens carry an offset along, from which tokens and errors get their places. They
decide nothing by it. So a text that starts `n` bytes further on has the same tokens `n` bytes
further on, or the same error there.

The statement is one about failures as much as about tokens, so it is an equation between whole
results: each reader commutes with moving what it starts from and what it gives.

## Main definitions

* `Cursor.shift`, `Token.shift`, `Token.Scan.shift` — places, tokens and scans further on
* `Token.shiftResult` — what a reader gives, further on

## Main results

* `Token.read_shift` — one token
* `Token.scanFrom_shift` — all tokens
-/

namespace QueryFilter

open Text

/-- The place moved behind `n` more bytes. -/
def Cursor.shift (n : Nat) (cursor : Cursor) : Cursor := ⟨cursor.position + n, cursor.rest⟩

theorem Cursor.skipBlanks_shift (n : Nat) (cursor : Cursor) :
    (cursor.shift n).skipBlanks = cursor.skipBlanks.shift n := by
  simp only [skipBlanks, shift, Nat.add_right_comm]

theorem LexError.shift_shift (m n : Nat) (e : LexError) :
    (e.shift m).shift n = e.shift (n + m) := by
  cases e with
  | _ => simp only [shift, Nat.add_assoc, Nat.add_comm n m]

namespace Token

/-- The token moved behind `n` more bytes. -/
def shift (n : Nat) (token : Token) : Token := { token with span := token.span.shift n }

theorem shift_shift (m n : Nat) (token : Token) :
    (token.shift m).shift n = token.shift (n + m) := by
  simp only [shift, Span.shift, Nat.add_assoc, Nat.add_comm n m]

theorem comp_shift (m n : Nat) : Token.shift n ∘ Token.shift m = Token.shift (n + m) :=
  funext (shift_shift m n)

/-- The tokens of a scan and its error moved behind `n` more bytes. -/
def Scan.shift (n : Nat) (s : Scan) : Scan := ⟨s.tokens.map (Token.shift n), s.fault.map (.shift n)⟩

/-- What a reader gives, moved behind `n` more bytes: the place after what it read, or its error. -/
def shiftResult {α : Type} (n : Nat) : Except LexError (α × Cursor) → Except LexError (α × Cursor)
  | .ok (a, next) => .ok (a, next.shift n)
  | .error e => .error (e.shift n)

theorem shiftResult_map {α β : Type} {n : Nat} (f : α → β) (x : Except LexError (α × Cursor)) :
    shiftResult n (x.map fun (a, next) => (f a, next)) =
      (shiftResult n x).map fun (a, next) => (f a, next) := by
  cases x with
  | error e => rfl
  | ok found => rfl

/-! ### Strings and numbers -/

theorem badEscape_shift (n start position : Nat) (cs : List Char) :
    badEscape (start + n) (position + n) cs = (badEscape start position cs).shift n := by
  cases cs with
  | nil => rfl
  | cons c cs => rfl

theorem readString_shift (n start : Nat) (quote : Char) (position : Nat) (cs : List Char) :
    readString (start + n) quote (position + n) cs =
      shiftResult n (readString start quote position cs) := by
  fun_induction readString start quote position cs with
  | case1 position =>
    rw [readString]
    rfl
  | case2 position rest =>
    rw [readString, if_pos rfl, Nat.add_right_comm]
    rfl
  | case3 position cs d k more he _ hquote ih =>
    rw [readString_escape hquote he, shiftResult_map, ← ih]
    congr 2
    omega
  | case4 position cs he hquote =>
    rw [readString, if_neg hquote, if_pos rfl]
    split
    · rename_i hsome
      rw [he] at hsome
      cases hsome
    · rw [badEscape_shift]
      rfl
  | case5 position c cs hquote hslash ih =>
    rw [readString, if_neg hquote, if_neg hslash, shiftResult_map, ← ih, Nat.add_right_comm]

theorem readNumber_shift (n position : Nat) (cs : List Char) :
    readNumber (position + n) cs = shiftResult n (readNumber position cs) := by
  rw [readNumber, readNumber]
  simp only
  split
  · rw [Nat.add_right_comm]
    rfl
  · rfl

/-! ### Names -/

theorem readPath_shift (n position : Nat) (cs : List Char) :
    readPath (position + n) cs = (readPath position cs).mapError (.shift n) := by
  fun_induction readPath position cs with
  | case1 => rfl
  | case2 position c cs hdot =>
    rw [readPath, if_pos hdot]
    cases cs with
    | nil => rfl
    | cons d cs =>
      simp only [List.head?_cons, Except.mapError, LexError.shift, Nat.add_right_comm]
  | case3 position c cs hdot hname ih =>
    rw [readPath, if_neg hdot, if_pos hname, Except.mapError_map, ← ih, Nat.add_right_comm]
  | case4 position c cs hdot hname =>
    rw [readPath, if_neg hdot, if_neg hname]
    rfl

theorem readArgument_shift (n : Nat) (malformed : LexError) (cursor : Cursor) :
    readArgument (malformed.shift n) (cursor.shift n) =
      shiftResult n (readArgument malformed cursor) := by
  rw [readArgument, readArgument, Cursor.skipBlanks_shift]
  obtain ⟨start, rest⟩ := cursor.skipBlanks
  cases rest with
  | nil => rfl
  | cons quote body =>
    simp only [Cursor.shift]
    by_cases hquote : isQuote quote
    · rw [if_pos hquote, if_pos hquote, Nat.add_right_comm, readString_shift]
      cases readString start quote (start + 1) body with
      | error e => rfl
      | ok found =>
        obtain ⟨raw, closed⟩ := found
        simp only [shiftResult, Cursor.skipBlanks_shift]
        obtain ⟨here, left⟩ := closed.skipBlanks
        rcases left with _ | ⟨c, left⟩
        · rfl
        · by_cases hc : c = ')'
          · subst hc
            simp only [Cursor.shift, Nat.add_right_comm]
          · simp [Cursor.shift, hc]
    · rw [if_neg hquote, if_neg hquote]
      rfl

theorem readName_shift (n position : Nat) (cs : List Char) :
    readName (position + n) cs = shiftResult n (readName position cs) := by
  rw [readName, readName, readPath_shift]
  cases readPath position cs with
  | error e => rfl
  | ok found =>
    obtain ⟨name, left⟩ := found
    have hskip : Cursor.skipBlanks ⟨position + n + utf8Length name, left⟩ =
        (Cursor.skipBlanks ⟨position + utf8Length name, left⟩).shift n := by
      rw [← Cursor.skipBlanks_shift, Cursor.shift, Nat.add_right_comm]
    have hmalformed : LexError.malformedMarker (position + n) (String.ofList name) =
        (LexError.malformedMarker position (String.ofList name)).shift n := rfl
    simp only [Except.mapError, hskip]
    obtain ⟨here, left'⟩ := Cursor.skipBlanks ⟨position + utf8Length name, left⟩
    cases markerKind? name with
    | none => simp only [shiftResult, Cursor.shift, Nat.add_right_comm]
    | some kind =>
      rcases left' with _ | ⟨c, argument⟩
      · simp only [shiftResult, Cursor.shift, Nat.add_right_comm]
      · by_cases hc : c = '('
        · subst hc
          have hargument := readArgument_shift n
            (.malformedMarker position (String.ofList name)) ⟨here + 1, argument⟩
          simp only [Cursor.shift] at hargument ⊢
          rw [Nat.add_right_comm here n 1, hmalformed, hargument, shiftResult_map]
        · simp [shiftResult, Cursor.shift, hc, Nat.add_right_comm]

/-! ### One token, and all of them -/

theorem readSymbol?_shift (n position : Nat) (cs : List Char) :
    readSymbol? (position + n) cs =
      (readSymbol? position cs).map fun (kind, next) => (kind, next.shift n) := by
  rw [readSymbol?, readSymbol?, List.map_findSome?]
  congr 1
  funext s
  simp only [Function.comp_apply, Option.map_map]
  congr 1
  funext rest
  simp only [Function.comp_apply, Cursor.shift, Nat.add_right_comm]

/-- **One token** is read alike, wherever it stands. -/
theorem read_shift (n position : Nat) (c : Char) (cs : List Char) :
    read (position + n) c cs = shiftResult n (read position c cs) := by
  by_cases hquote : isQuote c
  · rw [read_of_isQuote hquote, read_of_isQuote hquote, Nat.add_right_comm, readString_shift]
    exact (shiftResult_map (fun text => TokenKind.string (String.ofList text)) _).symm
  by_cases hdigit : isDigit c || (c = '-' && cs.head?.any isDigit)
  · rw [read_of_isDigit hdigit, read_of_isDigit hdigit, readNumber_shift]
  by_cases hname : isNameStart c
  · rw [read_of_isNameStart hname, read_of_isNameStart hname, readName_shift]
  -- what is left is an operator, punctuation or no token at all
  rw [read, read, readSymbol?_shift]
  cases readSymbol? position (c :: cs) with
  | some found => rfl
  | none =>
    simp only [hquote, hdigit, hname]
    rfl

theorem scanFrom_of_error {cursor : Cursor} {start : Nat} {c : Char} {cs : List Char}
    {e : LexError} (hstart : cursor.skipBlanks = ⟨start, c :: cs⟩)
    (hread : read start c cs = .error e) : scanFrom cursor = ⟨[], some e⟩ := by
  rw [scanFrom]
  split
  · rename_i hend
    cases hstart.symm.trans hend
  · rename_i hstart'
    cases hstart.symm.trans hstart'
    split
    · rename_i hread'
      cases hread.symm.trans hread'
      rfl
    · rename_i hread'
      cases hread.symm.trans hread'

/-- **All tokens** are read alike, wherever the text starts. -/
theorem scanFrom_shift (n : Nat) (cursor : Cursor) :
    scanFrom (cursor.shift n) = (scanFrom cursor).shift n := by
  fun_induction scanFrom cursor with
  | case1 cursor stop hend =>
    have hend' : (cursor.shift n).skipBlanks = ⟨stop + n, []⟩ := by
      rw [Cursor.skipBlanks_shift, hend]
      rfl
    rw [scanFrom_of_end hend']
    rfl
  | case2 cursor start c cs hstart e hread =>
    have hstart' : (cursor.shift n).skipBlanks = ⟨start + n, c :: cs⟩ := by
      rw [Cursor.skipBlanks_shift, hstart]
      rfl
    have hread' : read (start + n) c cs = .error (e.shift n) := by
      rw [read_shift, hread]
      rfl
    rw [scanFrom_of_error hstart' hread']
    rfl
  | case3 cursor start c cs hstart kind next hread _ ih =>
    have hstart' : (cursor.shift n).skipBlanks = ⟨start + n, c :: cs⟩ := by
      rw [Cursor.skipBlanks_shift, hstart]
      rfl
    have hread' : read (start + n) c cs = .ok (kind, next.shift n) := by
      rw [read_shift, hread]
      rfl
    rw [scanFrom_of_read hstart' hread', ih]
    rfl

end Token

end QueryFilter
