import QueryFilter.Proofs.Json.Inversion
import QueryFilter.Proofs.Json.RoundTrip
import QueryFilter.Proofs.Text.Lines
import QueryFilter.Settings

/-!
# Settings are kept in a file

Settings that can be used and whose depth fits 64 bits are read back from the file that they are
written to. And whatever a file holds, in whatever form, order and layout, the settings that are
loaded from it are of that kind: a depth is an integer that fits 64 bits, and the check refuses
zero. So saving what has been loaded and loading it again changes nothing.

The reader goes through the fields of an object and puts each into a draft. One field keeps the
depth of the draft within 64 bits, so any number of them do.

## Main definitions

* `Settings.saved` — the file that settings are written to
* `Settings.Draft.Fits` — a draft whose depth fits 64 bits

## Main results

* `Settings.readFields_write`, `Settings.ofText_write` — a field and all settings are read back
* `Settings.fits_of_readField`, `Settings.fits_of_readFields` — one field and several keep the depth
  within 64 bits
* `Settings.survive_saving` — settings survive saving and loading
-/

namespace QueryFilter

namespace Settings

open Json (Result Fault)
open Text

/-! ### Settings that are written -/

/-- The file that settings are written to. -/
def saved (s : Settings) : FileContent := .bytes s.toJson.compact.toUTF8

/-- The value of a field as JSON. -/
def fieldJson (s : Settings) : Field → Json
  | .maxDepth => .integer s.maxDepth
  | .mergeConjunctions => .boolean s.mergeConjunctions

theorem Field.ofKey?_key (field : Field) : Field.ofKey? field.key = some field := by
  cases field with
  | maxDepth => rfl
  | mergeConjunctions => rfl

/-- The key of a field that is not given yet is read back. -/
theorem readFieldKey_writeString {d : Draft} {field : Field} (h : d.has field = false)
    (rest : List Char) :
    readFieldKey d (Json.writeString field.key ++ rest) = .ok (field, rest) := by
  simp only [readFieldKey, Json.readKey_writeString, Field.ofKey?_key, h]
  rfl

/-- A scalar is read as any value is. -/
theorem readScalar_eq_readWith {c : Char} (hspace : Json.isSpace c = false) (hlist : c ≠ '[')
    (hobject : c ≠ '\x7b') (expected : String) (cs : List Char) :
    readScalar expected (c :: cs) = Json.readWith none (c :: cs) := by
  rw [readScalar, Json.skipSpace_of_not_isSpace hspace]
  simp only [if_neg hlist, if_neg hobject]

/-- The text of a natural number starts with a digit. -/
theorem exists_cons_intText (n : Nat) : ∃ c cs, (intText n).toList = c :: cs ∧ isDigit c := by
  have htext : (intText n).toList = Nat.toDigits 10 n := by
    rw [intText, if_neg (by omega), natText, String.toList_ofList]
    rfl
  obtain ⟨c, cs, hdigits⟩ := List.exists_cons_of_ne_nil (Nat.toDigits_ne_nil (b := 10) (n := n))
  exact ⟨c, cs, htext.trans hdigits, isDigit_of_mem_toDigits (hdigits ▸ List.mem_cons_self)⟩

/-- A depth that fits 64 bits is read back. -/
theorem readDepth_intText {n : Nat} (hn : n < 2 ^ 64) {rest : List Char}
    (h : Json.endsNumber rest) : readDepth ((intText n).toList ++ rest) = .ok (n, rest) := by
  have hread : Json.readWith none ((intText n).toList ++ rest) = .ok (.integer n, rest) :=
    Json.readWith_intText (by omega) (by omega) h
  obtain ⟨c, cs, htext, hdigit⟩ := exists_cons_intText n
  have hlist : c ≠ '[' := by
    rintro rfl
    exact absurd hdigit (by decide)
  have hobject : c ≠ '\x7b' := by
    rintro rfl
    exact absurd hdigit (by decide)
  rw [htext, List.cons_append] at hread ⊢
  rw [readDepth, readScalar_eq_readWith (Json.ne_of_isDigit hdigit).1 hlist hobject, hread]
  simp

theorem readChoice_write (b : Bool) (rest : List Char) :
    readChoice ((Json.boolean b).write ++ rest) = .ok (b, rest) := by
  cases b with
  | true => rfl
  | false => rfl

/-- A draft that has been given one of the settings. -/
def Draft.give (d : Draft) (s : Settings) : Field → Draft
  | .maxDepth => { d with maxDepth := some s.maxDepth }
  | .mergeConjunctions => { d with mergeConjunctions := some s.mergeConjunctions }

/-- **A field is read back**, whatever has been given before. -/
theorem readField_write {s : Settings} (hs : s.maxDepth < 2 ^ 64) (d : Draft) (field : Field)
    {rest : List Char} (h : Json.endsNumber rest) :
    readField d ((s.fieldJson field).write ++ rest) field = .ok (d.give s field, rest) := by
  cases field with
  | maxDepth =>
    have hwrite : (s.fieldJson .maxDepth).write = (intText s.maxDepth).toList := rfl
    rw [hwrite, readField, readDepth_intText hs h]
    rfl
  | mergeConjunctions =>
    rw [fieldJson, readField, readChoice_write]
    rfl

/-- A field of an object that is not given yet is read back, and what stands behind it says whether
there are more. -/
theorem readFields_write {s : Settings} (hs : s.maxDepth < 2 ^ 64) (fuel : Nat) {d : Draft}
    {field : Field} (hnew : d.has field = false) {rest : List Char} (h : Json.endsNumber rest) :
    readFields (fuel + 1) d
        (Json.writeString field.key ++ ':' :: ((s.fieldJson field).write ++ rest)) =
      (Json.afterEntry rest).bind
        (Sum.elim (readFields fuel (d.give s field)) fun after => .ok (d.give s field, after)) := by
  have hcolon : ∀ cs, Json.readColon (':' :: cs) = .ok cs := fun cs => rfl
  have hvalue := readField_write hs d field h
  rcases hafter : Json.afterEntry rest with e | more | after
  all_goals
    simp only [readFields, readFieldKey_writeString hnew, hcolon, hvalue, hafter]
    rfl

/-- An object that starts with a key is read field by field. Each field takes a character, so the
length of the text bounds their number. -/
theorem readObject_writeString (key : String) (rest : List Char) :
    ∃ fuel, rest.length ≤ fuel ∧ readObject (Json.writeString key ++ rest) =
      readFields (fuel + 1) {} (Json.writeString key ++ rest) := by
  refine ⟨(key.toList.flatMap Json.writeChar ++ ['"'] ++ rest).length, ?_, rfl⟩
  rw [List.length_append]
  omega

/-- **Settings are read back** from their text. -/
theorem ofText_write {s : Settings} (hs : s.maxDepth < 2 ^ 64) : ofText s.toJson.write = .ok s := by
  have htext : s.toJson.write = '\x7b' :: (Json.writeString Field.maxDepth.key ++
      ':' :: ((s.fieldJson .maxDepth).write ++ ',' ::
        (Json.writeString Field.mergeConjunctions.key ++
          ':' :: ((s.fieldJson .mergeConjunctions).write ++ ['\x7d'])))) := by
    simp only [toJson, Json.write, Json.writeEntries, fieldJson, List.cons_append,
      List.append_assoc]
  have hdraft : readDraft s.toJson.write =
      .ok (({} : Draft).give s .maxDepth |>.give s .mergeConjunctions, []) := by
    rw [htext]
    obtain ⟨fuel, hfuel, hread⟩ := readObject_writeString Field.maxDepth.key
      (':' :: ((s.fieldJson .maxDepth).write ++ ',' ::
        (Json.writeString Field.mergeConjunctions.key ++
          ':' :: ((s.fieldJson .mergeConjunctions).write ++ ['\x7d']))))
    obtain ⟨fuel, rfl⟩ := Nat.exists_eq_add_one.mpr (Nat.lt_of_lt_of_le (Nat.succ_pos _) hfuel)
    refine Eq.trans hread ?_
    rw [readFields_write hs _ rfl rfl]
    exact readFields_write hs fuel rfl rfl
  rw [ofText, hdraft]
  rfl

/-! ### Depths that are read -/

/-- A draft whose depth fits 64 bits, if one has been given. -/
def Draft.Fits (d : Draft) : Prop := ∀ n ∈ d.maxDepth, n < 2 ^ 64

theorem Draft.fits_empty : ({} : Draft).Fits := fun n hn => absurd hn (Option.not_mem_none n)

/-- An integer that is read fits 64 bits. -/
theorem le_of_readWith_integer {inner : Option (List Char → Result Json)} {n : Int}
    {cs rest : List Char} (h : Json.readWith inner cs = .ok (.integer n, rest)) :
    n ≤ 18446744073709551615 := by
  rcases Json.readWith_cases h with hnull | ⟨b, hb⟩ | ⟨body, text, -, -, htext⟩ |
    ⟨negative, body, hnumber⟩ | ⟨items, hitems⟩ | ⟨entries, hentries⟩
  · cases hnull
  · cases hb
  · cases htext
  · rcases Json.readNumber_cases hnumber with ⟨x, hx⟩ | ⟨m, hm, hn⟩
    · cases hx
    · rw [Json.integerOf] at hn
      split_ifs at hn
      · cases hn
        omega
      · cases hn
        omega
  · cases hitems
  · cases hentries

theorem exists_readWith_of_readScalar {expected : String} {j : Json} {cs rest : List Char}
    (h : readScalar expected cs = .ok (j, rest)) :
    ∃ more, Json.readWith none more = .ok (j, rest) := by
  rw [readScalar] at h
  split at h
  · cases h
  · split at h
    · cases h
    · split at h
      · cases h
      · exact ⟨_, h⟩

/-- **A depth that is read fits 64 bits.** -/
theorem lt_of_readDepth {cs rest : List Char} {n : Nat} (h : readDepth cs = .ok (n, rest)) :
    n < 2 ^ 64 := by
  rw [readDepth] at h
  split at h
  · cases h
  · rename_i m more hscalar
    obtain ⟨text, hread⟩ := exists_readWith_of_readScalar hscalar
    have hm := le_of_readWith_integer hread
    split at h
    · cases h
      omega
    · cases h
  · cases h

variable {d d' : Draft} {cs rest : List Char}

/-- One field keeps the depth within 64 bits. -/
theorem fits_of_readField {field : Field} (h : readField d cs field = .ok (d', rest))
    (hd : d.Fits) : d'.Fits := by
  cases field with
  | maxDepth =>
    obtain ⟨⟨n, more⟩, hdepth, heq⟩ := Except.map_eq_ok_iff.mp h
    cases heq
    rintro m ⟨⟩
    exact lt_of_readDepth hdepth
  | mergeConjunctions =>
    obtain ⟨⟨b, more⟩, -, heq⟩ := Except.map_eq_ok_iff.mp h
    cases heq
    exact hd

/-- So do several fields. -/
theorem fits_of_readFields {fuel : Nat} (h : readFields fuel d cs = .ok (d', rest))
    (hd : d.Fits) : d'.Fits := by
  induction fuel generalizing d cs with
  | zero => cases h
  | succ fuel ih =>
    rw [readFields] at h
    split at h
    · cases h
    · split at h
      · cases h
      · split at h
        · cases h
        · rename_i hfield
          have hnext := fits_of_readField hfield hd
          split at h
          · cases h
          · cases h
            exact hnext
          · exact ih h hnext

theorem fits_of_readObject (h : readObject cs = .ok (d, rest)) : d.Fits := by
  rw [readObject] at h
  split at h
  · cases h
  · split at h
    · cases h
      exact Draft.fits_empty
    · exact fits_of_readFields h Draft.fits_empty

theorem fits_of_readArray (h : readArray cs = .ok (d, rest)) : d.Fits := by
  rw [readArray] at h
  split at h
  · cases h
  · split at h
    · cases h
      exact Draft.fits_empty
    · split at h
      · cases h
      · rename_i hdepth
        have hfits := fits_of_readField hdepth Draft.fits_empty
        split at h
        · cases h
        · cases h
          exact hfits
        · split at h
          · cases h
          · rename_i hchoice
            obtain ⟨more, -, heq⟩ := Except.map_eq_ok_iff.mp h
            cases heq
            exact fits_of_readField hchoice hfits

theorem fits_of_readDraft (h : readDraft cs = .ok (d, rest)) : d.Fits := by
  rw [readDraft] at h
  split at h
  · cases h
  · split at h
    · exact fits_of_readArray h
    · split at h
      · exact fits_of_readObject h
      · split at h
        · cases h
        · cases h

/-- What has not been given has a default, and that fits too. -/
theorem Draft.Fits.complete (hd : d.Fits) : d.complete.maxDepth < 2 ^ 64 := by
  cases hdepth : d.maxDepth with
  | none =>
    rw [Draft.complete, hdepth]
    exact (by decide : 64 < 2 ^ 64)
  | some n =>
    rw [Draft.complete, hdepth]
    exact hd n hdepth

/-- **Settings that are read have a depth that fits 64 bits**, whatever the text is. -/
theorem lt_of_ofText {s : Settings} (h : ofText cs = .ok s) : s.maxDepth < 2 ^ 64 := by
  obtain ⟨d, hfinish, rfl⟩ := Except.map_eq_ok_iff.mp h
  obtain ⟨rest, hdraft, -⟩ := Json.exists_of_finish hfinish
  exact (fits_of_readDraft hdraft).complete

/-! ### Files -/

theorem check_eq_ok_iff {s s' : Settings} : s.check = .ok s' ↔ s' = s ∧ 1 ≤ s.maxDepth := by
  rw [check]
  split
  · rename_i hzero
    simp [hzero]
  · rename_i hzero
    simp [Nat.one_le_iff_ne_zero, hzero, eq_comm]

theorem parse_eq_ok_iff {text : String} {s : Settings} :
    parse text = .ok s ↔ ofText text.toList = .ok s ∧ 1 ≤ s.maxDepth := by
  rw [parse]
  cases hread : ofText text.toList with
  | error fault => simp
  | ok found =>
    simp only [check_eq_ok_iff, Except.ok.injEq]
    constructor
    · rintro ⟨rfl, hdepth⟩
      exact ⟨rfl, hdepth⟩
    · rintro ⟨rfl, hdepth⟩
      exact ⟨rfl, hdepth⟩

/-- A file that settings are loaded from holds a text. -/
theorem load_eq_ok_iff {file : FileContent} {s : Settings} : load file = .ok s ↔
    ∃ bytes text, file = .bytes bytes ∧ String.fromUTF8? bytes = some text ∧
      parse text = .ok s := by
  cases file with
  | bytes content =>
    rw [load]
    cases hutf8 : String.fromUTF8? content with
    | none => simp [hutf8]
    | some text => simp [hutf8]
  | _ => simp [load]

/-- Settings that can be used are read back from the file that they are written to. -/
theorem load_saved {s : Settings} (hpos : 1 ≤ s.maxDepth) (hs : s.maxDepth < 2 ^ 64) :
    load s.saved = .ok s := by
  refine load_eq_ok_iff.mpr ⟨_, _, rfl, fromUTF8?_toUTF8 _, parse_eq_ok_iff.mpr ⟨?_, hpos⟩⟩
  rw [Json.compact, String.toList_ofList, ofText_write hs]

/-- Settings that are loaded can be used and have a depth that fits 64 bits. -/
theorem bounds_of_load {file : FileContent} {s : Settings} (h : load file = .ok s) :
    1 ≤ s.maxDepth ∧ s.maxDepth < 2 ^ 64 := by
  obtain ⟨bytes, text, -, -, hparse⟩ := load_eq_ok_iff.mp h
  obtain ⟨htext, hpos⟩ := parse_eq_ok_iff.mp hparse
  exact ⟨hpos, lt_of_ofText htext⟩

/-- **Settings survive saving and loading.** Those that can be used and whose depth fits 64 bits are
loaded from the file that they are written to; all that are loaded, whatever the file holds, are of
that kind, and loading them from a file of their own gives them again. -/
theorem survive_saving :
    (∀ s : Settings, 1 ≤ s.maxDepth → s.maxDepth < 2 ^ 64 → load s.saved = .ok s) ∧
    ∀ (file : FileContent) (s : Settings), load file = .ok s →
      1 ≤ s.maxDepth ∧ s.maxDepth < 2 ^ 64 ∧ load s.saved = .ok s := by
  refine ⟨fun s => load_saved, fun file s h => ?_⟩
  obtain ⟨hpos, hs⟩ := bounds_of_load h
  exact ⟨hpos, hs, load_saved hpos hs⟩

/-- The greatest depth is read back, and so is what a file gives whose fields are in the other order
with blanks between them, or a list with the depth alone. -/
theorem survive_saving_of_files :
    (1 ≤ 2 ^ 64 - 1 ∧ 2 ^ 64 - 1 < 2 ^ 64 ∧
      load (saved ⟨2 ^ 64 - 1, false⟩) = .ok ⟨2 ^ 64 - 1, false⟩) ∧
    ∀ text ∈ ["\x7b \"merge_conjunctions\" : true,\n \"max_depth\":5\x7d ", " [5]"],
      load (.bytes text.toUTF8) = .ok ⟨5, true⟩ ∧ load (saved ⟨5, true⟩) = .ok ⟨5, true⟩ := by
  refine ⟨⟨by decide, by decide, survive_saving.1 ⟨2 ^ 64 - 1, false⟩ (by decide) (by decide)⟩, ?_⟩
  intro text htext
  have hload : load (.bytes text.toUTF8) = .ok ⟨5, true⟩ := by
    refine load_eq_ok_iff.mpr ⟨_, _, rfl, fromUTF8?_toUTF8 text, ?_⟩
    revert text
    decide +kernel
  exact ⟨hload, (survive_saving.2 _ _ hload).2.2⟩

end Settings

end QueryFilter
