import Mathlib.Data.List.Basic
import QueryFilter.Proofs.Query.FieldPath
import QueryFilter.Proofs.Text.Blanks
import QueryFilter.Text.Offset

/-!
# Lines of bytes and lines of text

An input is read as bytes and cut into lines at line feeds before any of it is taken for text. This
does no harm to characters of several bytes: in UTF-8 all bytes of such a character are above those
of ASCII, so a byte that looks like a line feed is one. So the lines of the bytes are the bytes of
the lines.

What ends a line is blank. Whether the carriage return before a line feed belongs to the line or to
its end makes no difference once the line is trimmed, and an empty piece after the last line feed is
no line with anything in it.

## Main definitions

* `Text.utf8` — the bytes of a text

## Main results

* `Text.pieces_utf8` — cutting bytes and cutting text into lines is the same
* `Text.trim_pieces_eq` — trimmed lines do not depend on how line ends are read
-/

namespace QueryFilter

namespace Text

/-! ### Bytes -/

/-- The bytes of a text in UTF-8. -/
def utf8 (cs : List Char) : List UInt8 := cs.flatMap String.utf8EncodeChar

theorem utf8_cons (c : Char) (cs : List Char) :
    utf8 (c :: cs) = String.utf8EncodeChar c ++ utf8 cs := List.flatMap_cons

theorem toList_data_toUTF8 (text : String) : text.toUTF8.data.toList = utf8 text.toList := by
  rw [String.toUTF8_eq_toByteArray, ← String.utf8Encode_toList]
  exact List.toList_data_toByteArray

theorem fromUTF8?_toUTF8 (text : String) : String.fromUTF8? text.toUTF8 = some text := by
  rw [String.toUTF8_eq_toByteArray, String.fromUTF8?, dif_pos text.isValidUTF8]
  rfl

theorem fromUTF8?_utf8 (cs : List Char) :
    String.fromUTF8? ⟨(utf8 cs).toArray⟩ = some (String.ofList cs) := by
  have hbytes : (⟨(utf8 cs).toArray⟩ : ByteArray) = (String.ofList cs).toUTF8 := by
    rw [String.toUTF8_eq_toByteArray, String.toByteArray_ofList]
    exact ByteArray.ext List.data_toByteArray.symm
  rw [hbytes, fromUTF8?_toUTF8]

/-- A character of ASCII is its own byte, and all bytes of another one are above those of ASCII. -/
theorem utf8EncodeChar_cases (c : Char) :
    (c.val.toNat ≤ 127 ∧ String.utf8EncodeChar c = [UInt8.ofNat c.val.toNat]) ∨
      ∀ b ∈ String.utf8EncodeChar c, 128 ≤ b.toNat := by
  have hofNat : ∀ n k m, UInt8.toNat (UInt8.ofNat (n % k + m)) = (n % k + m) % 256 := by
    intro n k m
    rw [UInt8.toNat_ofNat']
  fun_cases String.utf8EncodeChar c with
  | case1 v hv => exact .inl ⟨hv, rfl⟩
  | case2 v h1 h2 | case3 v h1 h2 h3 | case4 v h1 h2 h3 =>
    right
    simp only [List.forall_mem_cons, List.not_mem_nil, false_implies, implies_true, and_true, hofNat]
    omega

/-- The byte of a line feed occurs in no character but the line feed. -/
theorem eq_lineFeed_of_mem_utf8EncodeChar {c : Char}
    (h : (10 : UInt8) ∈ String.utf8EncodeChar c) : c = '\n' := by
  rcases utf8EncodeChar_cases c with ⟨hle, hbyte⟩ | hhigh
  · rw [hbyte, List.mem_singleton] at h
    have hcode : 10 = c.val.toNat % 256 := by
      rw [← UInt8.toNat_ofNat', ← h]
      rfl
    apply Char.ext
    apply UInt32.toNat_inj.mp
    exact (show c.val.toNat = 10 by omega)
  · exact absurd (hhigh 10 h) (by decide)

/-! ### Lines of bytes -/

section Pieces

variable {α : Type} [DecidableEq α] {separator : α}

theorem pieces_cons_of_ne {c : α} (hc : c ≠ separator) (cs : List α) :
    pieces separator (c :: cs) = (pieces separator cs).modifyHead (c :: ·) := by
  rw [pieces, if_neg hc]
  cases h : pieces separator cs with
  | nil => exact absurd h (pieces_ne_nil _ _)
  | cons piece more => rfl

/-- What has no separator in it goes to the first piece. -/
theorem pieces_append_of_not_mem {as : List α} (has : separator ∉ as) (bs : List α) :
    pieces separator (as ++ bs) = (pieces separator bs).modifyHead (as ++ ·) := by
  induction as with
  | nil => exact (congrFun List.modifyHead_id _).symm
  | cons c as ih =>
    rw [List.mem_cons, not_or] at has
    rw [List.cons_append, pieces_cons_of_ne (Ne.symm has.1), ih has.2, List.modifyHead_modifyHead]
    rfl

end Pieces

/-- **The lines of the bytes are the bytes of the lines.** -/
theorem pieces_utf8 (cs : List Char) : pieces 10 (utf8 cs) = (pieces '\n' cs).map utf8 := by
  induction cs with
  | nil => rfl
  | cons c cs ih =>
    rw [utf8_cons]
    by_cases hc : c = '\n'
    · rw [hc, pieces, if_pos rfl, List.map_cons, ← ih]
      exact if_pos rfl
    · have hbytes : (10 : UInt8) ∉ String.utf8EncodeChar c :=
        fun h => hc (eq_lineFeed_of_mem_utf8EncodeChar h)
      rw [pieces_append_of_not_mem hbytes, pieces_cons_of_ne hc, ih]
      cases pieces '\n' cs with
      | nil => rfl
      | cons piece more => rfl

/-! ### Line ends -/

/-- A carriage return at the end of a line is trimmed away. -/
theorem trimChars_dropReturn (line : List Char) : trimChars (dropReturn line) = trimChars line := by
  rw [dropReturn]
  split
  · rename_i hlast
    obtain ⟨front, rfl⟩ := List.getLast?_eq_some_iff.mp hlast
    rw [List.dropLast_concat, trimChars_append_blanks (List.all_eq_true.mp (by decide))]
  · rfl

/-- Trimmed lines do not depend on how line ends are read, but for an empty line at the end. -/
theorem trim_pieces_eq (cs : List Char) :
    (pieces '\n' cs).map trimChars = (shownLines cs).map trimChars ∨
      (pieces '\n' cs).map trimChars = (shownLines cs).map trimChars ++ [[]] := by
  obtain ⟨front, last, hpieces⟩ :=
    (List.eq_nil_or_concat' (pieces '\n' cs)).resolve_left (pieces_ne_nil _ _)
  have hfront : (front.map dropReturn).map trimChars = front.map trimChars := by
    rw [List.map_map]
    exact List.map_congr_left fun line _ => trimChars_dropReturn line
  rw [shownLines, hpieces, List.dropLast_concat, List.getLast?_concat, List.map_append]
  cases last with
  | nil => exact .inr (by rw [hfront]; rfl)
  | cons c line => exact .inl (by rw [List.map_append, hfront])

end Text

end QueryFilter
