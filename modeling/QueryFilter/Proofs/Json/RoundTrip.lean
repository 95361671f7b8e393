import QueryFilter.Proofs.Json.Scalars

/-!
# JSON values read back

A value is read back from its text if it has no doubles, its whole numbers fit 64 bits, and the keys
of every object are different. There is one thing more that can go wrong: the reader gives up on a
value that is nested too deep. So the statement has two halves, and it is proved with both of them
at once, as a container is too deep if something in it is.

## Main definitions

* `Json.nesting` — how many containers are open at the deepest place
* `Json.isReadable` — the values that are read back
* `Json.ReadsBack` — what a reader makes of a text: the value if it fits, or too much nesting

## Main results

* `Json.readValue_write` — values are read back if they are not nested too deep
* `Json.read_write` — the same for whole texts
-/

namespace QueryFilter

namespace Json

open Text

/-- Induction on JSON values: an array has the hypothesis for all of its items, and an object for
the values of all of its entries. -/
@[elab_as_elim, induction_eliminator]
theorem induction {motive : Json → Prop} (null : motive .null)
    (boolean : ∀ b, motive (.boolean b)) (integer : ∀ n, motive (.integer n))
    (real : ∀ x, motive (.real x)) (string : ∀ text, motive (.string text))
    (array : ∀ items, (∀ v ∈ items, motive v) → motive (.array items))
    (object : ∀ entries, (∀ e ∈ entries, motive e.2) → motive (.object entries))
    (v : Json) : motive v :=
  @Json.rec motive (fun vs => ∀ v ∈ vs, motive v) (fun es => ∀ e ∈ es, motive e.2)
    (fun e => motive e.2) null boolean integer real string array object
    (fun _ h => absurd h List.not_mem_nil) (fun _ _ hv hvs => List.forall_mem_cons.mpr ⟨hv, hvs⟩)
    (fun _ h => absurd h List.not_mem_nil) (fun _ _ he hes => List.forall_mem_cons.mpr ⟨he, hes⟩)
    (fun _ _ h => h) v

/-! ### Nesting -/

mutual

/-- How many containers are open at the deepest place of a value. -/
def nesting : Json → Nat
  | array items => 1 + maxNesting items
  | object entries => 1 + entriesNesting entries
  | _ => 0

/-- The nesting of the most deeply nested item. -/
def maxNesting : List Json → Nat
  | [] => 0
  | v :: vs => max v.nesting (maxNesting vs)

/-- The nesting of the most deeply nested entry. -/
def entriesNesting : List (String × Json) → Nat
  | [] => 0
  | (_, v) :: rest => max v.nesting (entriesNesting rest)

end

theorem nesting_array_le_iff {items : List Json} {n : Nat} :
    (array items).nesting ≤ n + 1 ↔ ∀ v ∈ items, v.nesting ≤ n := by
  rw [nesting, Nat.add_comm, Nat.add_le_add_iff_right]
  induction items with
  | nil => simp [maxNesting]
  | cons v vs ih => rw [maxNesting, Nat.max_le, ih, List.forall_mem_cons]

theorem nesting_object_le_iff {entries : List (String × Json)} {n : Nat} :
    (object entries).nesting ≤ n + 1 ↔ ∀ e ∈ entries, e.2.nesting ≤ n := by
  rw [nesting, Nat.add_comm, Nat.add_le_add_iff_right]
  induction entries with
  | nil => simp [entriesNesting]
  | cons e es ih => rw [entriesNesting, Nat.max_le, ih, List.forall_mem_cons]

/-! ### Readable values -/

mutual

/-- Whether a value has no doubles, only whole numbers that fit 64 bits, and only objects with
different keys. -/
def isReadable : Json → Bool
  | real _ => false
  | integer n => -9223372036854775808 ≤ n && n ≤ 18446744073709551615
  | array items => areReadable items
  | object entries => decide (Entries.keys entries).Nodup && entriesReadable entries
  | _ => true

/-- Whether all items are readable. -/
def areReadable : List Json → Bool
  | [] => true
  | v :: vs => v.isReadable && areReadable vs

/-- Whether the values of all entries are readable. -/
def entriesReadable : List (String × Json) → Bool
  | [] => true
  | (_, v) :: rest => v.isReadable && entriesReadable rest

end

theorem isReadable_array_iff {items : List Json} :
    (array items).isReadable ↔ ∀ v ∈ items, v.isReadable := by
  rw [isReadable]
  induction items with
  | nil => simp [areReadable]
  | cons v vs ih => rw [areReadable, Bool.and_eq_true, ih, List.forall_mem_cons]

theorem isReadable_object_iff {entries : List (String × Json)} : (object entries).isReadable ↔
    (Entries.keys entries).Nodup ∧ ∀ e ∈ entries, e.2.isReadable := by
  have hall : entriesReadable entries ↔ ∀ e ∈ entries, e.2.isReadable := by
    induction entries with
    | nil => simp [entriesReadable]
    | cons e es ih => rw [entriesReadable, Bool.and_eq_true, ih, List.forall_mem_cons]
  rw [isReadable, Bool.and_eq_true, decide_eq_true_iff, hall]

/-- The text of a readable value does not start with a blank or a closing bracket. -/
theorem exists_cons_of_write {j : Json} (hj : j.isReadable) :
    ∃ c cs, j.write = c :: cs ∧ isSpace c = false ∧ c ≠ ']' ∧ c ≠ '\x7d' := by
  cases j with
  | null => exact ⟨'n', ['u', 'l', 'l'], rfl, by decide⟩
  | boolean b =>
    cases b with
    | true => exact ⟨'t', ['r', 'u', 'e'], rfl, by decide⟩
    | false => exact ⟨'f', ['a', 'l', 's', 'e'], rfl, by decide⟩
  | integer n =>
    change ∃ c cs, (intText n).toList = c :: cs ∧ _
    rw [intText]
    split
    · exact ⟨'-', _, String.toList_ofList, by decide⟩
    · obtain ⟨d, ds, hdigits⟩ :=
        List.exists_cons_of_ne_nil (Nat.toDigits_ne_nil (b := 10) (n := n.natAbs))
      have hd : isDigit d := isDigit_of_mem_toDigits (hdigits ▸ List.mem_cons_self)
      obtain ⟨hspace, -, -, -, -, -, hbracket, hbrace⟩ := ne_of_isDigit hd
      exact ⟨d, ds, by rw [natText, String.toList_ofList, hdigits], hspace, hbracket, hbrace⟩
  | real x => cases hj
  | string text => exact ⟨'"', _, rfl, by decide⟩
  | array items =>
    cases items with
    | nil => exact ⟨'[', [']'], by rw [write], by decide⟩
    | cons v vs => exact ⟨'[', _, by rw [write]; rfl, by decide⟩
  | object entries =>
    cases entries with
    | nil => exact ⟨'\x7b', ['\x7d'], by rw [write], by decide⟩
    | cons e es => exact ⟨'\x7b', _, by rw [write]; rfl, by decide⟩

/-! ### Items and entries -/

/-- What a reader makes of the text of `a` with `rest` after it: it gives both back if `a` fits, and
otherwise notices that something is nested too deep. -/
def ReadsBack {α : Type} (result : Result α) (fits : Prop) (a : α) (rest : List Char) : Prop :=
  (fits → result = .ok (a, rest)) ∧ (¬ fits → ∃ left, result = .error ⟨.tooDeep, left⟩)

theorem ReadsBack.map {α β : Type} {result : Result α} {fits : Prop} {a : α} {rest : List Char}
    (h : ReadsBack result fits a rest) (f : α × List Char → β × List Char) {b : β}
    (hf : f (a, rest) = (b, rest)) : ReadsBack (result.map f) fits b rest := by
  constructor
  · intro hfits
    rw [h.1 hfits, Except.map, hf]
  · intro hfits
    obtain ⟨left, hleft⟩ := h.2 hfits
    exact ⟨left, by rw [hleft, Except.map]⟩

theorem endsNumber_writeItems (vs : List Json) (rest : List Char) :
    endsNumber (writeItems vs ++ rest) := by
  cases vs with
  | nil => rw [writeItems]; rfl
  | cons v vs => rw [writeItems]; rfl

theorem endsNumber_writeEntries (es : List (String × Json)) (rest : List Char) :
    endsNumber (writeEntries es ++ rest) := by
  cases es with
  | nil => rw [writeEntries]; rfl
  | cons e es => rw [writeEntries]; rfl

/-- After a comma, the text of the next item is found. -/
theorem afterComma_of_ne {close c : Char} {cs : List Char} (hspace : isSpace c = false)
    (hclose : c ≠ close) : afterComma close (c :: cs) = .ok (c :: cs) := by
  rw [afterComma, skipSpace_of_not_isSpace hspace]
  exact if_neg hclose

/-- The items of an array are read back one by one. -/
theorem readItems_write {item : List Char → Result Json} {fits : Json → Prop} {fuel : Nat}
    {v : Json} {vs : List Json} {rest : List Char} (hvs : ∀ w ∈ v :: vs, w.isReadable)
    (hitem : ∀ w ∈ v :: vs, ∀ rest, endsNumber rest →
      ReadsBack (item (w.write ++ rest)) (fits w) w rest)
    (hfuel : vs.length < fuel) :
    ReadsBack (readItems item fuel (v.write ++ writeItems vs ++ rest)) (∀ w ∈ v :: vs, fits w)
      (v :: vs) rest := by
  induction vs generalizing v fuel with
  | nil =>
    obtain ⟨fuel, rfl⟩ := Nat.exists_eq_add_one.mpr hfuel
    obtain ⟨hok, hdeep⟩ :=
      hitem v List.mem_cons_self (writeItems [] ++ rest) (endsNumber_writeItems [] rest)
    rw [List.append_assoc, readItems]
    constructor
    · intro hfits
      rw [hok (hfits v List.mem_cons_self), writeItems]
      rfl
    · intro hfits
      obtain ⟨left, hleft⟩ := hdeep (by simpa using hfits)
      exact ⟨left, by rw [hleft]⟩
  | cons w ws ih =>
    obtain ⟨fuel, rfl⟩ := Nat.exists_eq_add_one.mpr (Nat.zero_lt_of_lt hfuel)
    obtain ⟨hok, hdeep⟩ := hitem v List.mem_cons_self (writeItems (w :: ws) ++ rest)
      (endsNumber_writeItems (w :: ws) rest)
    obtain ⟨hv, hws⟩ := List.forall_mem_cons.mp hvs
    obtain ⟨-, hitems⟩ := List.forall_mem_cons.mp hitem
    have hmore := ih hws hitems (by simpa using hfuel)
    -- behind the comma stands the text of the next item
    obtain ⟨c, cs, hwrite, hspace, hbracket, -⟩ :=
      exists_cons_of_write (hws w List.mem_cons_self)
    have hafter : afterItem (writeItems (w :: ws) ++ rest) =
        .ok (.inl (w.write ++ writeItems ws ++ rest)) := by
      rw [writeItems, hwrite]
      change (afterComma ']' (c :: (cs ++ writeItems ws ++ rest))).map Sum.inl = _
      rw [afterComma_of_ne hspace hbracket]
      rfl
    rw [List.append_assoc, readItems]
    by_cases hfv : fits v
    · rw [hok hfv]
      simp only [hafter]
      rw [List.forall_mem_cons, and_iff_right hfv]
      exact hmore.map _ rfl
    · obtain ⟨left, hleft⟩ := hdeep hfv
      rw [hleft]
      exact ⟨fun hfits => absurd (hfits v List.mem_cons_self) hfv, fun _ => ⟨left, rfl⟩⟩

/-- The key of an entry and the colon after it are read back. -/
theorem readKey_writeString (key : String) (rest : List Char) :
    readKey (writeString key ++ rest) = .ok (key, rest) := by
  rw [writeString, List.append_assoc, List.singleton_append]
  exact readString_writeString key rest

/-- The entries of an object are read back one by one. -/
theorem readEntries_write {item : List Char → Result Json} {fits : String × Json → Prop}
    {fuel : Nat} {e : String × Json} {es : List (String × Json)} {rest : List Char}
    (hitem : ∀ f ∈ e :: es, ∀ rest, endsNumber rest →
      ReadsBack (item (f.2.write ++ rest)) (fits f) f.2 rest)
    (hfuel : es.length < fuel) :
    ReadsBack (readEntries item fuel
        (writeString e.1 ++ ':' :: e.2.write ++ writeEntries es ++ rest))
      (∀ f ∈ e :: es, fits f) (e :: es) rest := by
  have hcolon : ∀ cs, readColon (':' :: cs) = .ok cs := fun cs => rfl
  have hsplit : ∀ (e : String × Json) (cs : List Char),
      writeString e.1 ++ ':' :: e.2.write ++ cs ++ rest =
        writeString e.1 ++ ':' :: (e.2.write ++ (cs ++ rest)) := by
    intro e cs
    simp
  induction es generalizing e fuel with
  | nil =>
    obtain ⟨fuel, rfl⟩ := Nat.exists_eq_add_one.mpr hfuel
    obtain ⟨hok, hdeep⟩ :=
      hitem e List.mem_cons_self (writeEntries [] ++ rest) (endsNumber_writeEntries [] rest)
    rw [hsplit, readEntries, readKey_writeString]
    simp only [hcolon]
    constructor
    · intro hfits
      rw [hok (hfits e List.mem_cons_self), writeEntries]
      rfl
    · intro hfits
      obtain ⟨left, hleft⟩ := hdeep (by simpa using hfits)
      exact ⟨left, by rw [hleft]⟩
  | cons f fs ih =>
    obtain ⟨fuel, rfl⟩ := Nat.exists_eq_add_one.mpr (Nat.zero_lt_of_lt hfuel)
    obtain ⟨hok, hdeep⟩ := hitem e List.mem_cons_self (writeEntries (f :: fs) ++ rest)
      (endsNumber_writeEntries (f :: fs) rest)
    obtain ⟨-, hitems⟩ := List.forall_mem_cons.mp hitem
    have hmore := ih hitems (by simpa using hfuel)
    have hafter : afterEntry (writeEntries (f :: fs) ++ rest) =
        .ok (.inl (writeString f.1 ++ ':' :: f.2.write ++ writeEntries fs ++ rest)) := by
      rw [writeEntries]
      change (afterComma '\x7d' ('"' :: _)).map Sum.inl = _
      rw [afterComma_of_ne (by decide) (by decide)]
      rfl
    rw [hsplit, readEntries, readKey_writeString]
    simp only [hcolon]
    by_cases hfe : fits e
    · rw [hok hfe]
      simp only [hafter]
      rw [List.forall_mem_cons, and_iff_right hfe]
      exact hmore.map _ rfl
    · obtain ⟨left, hleft⟩ := hdeep hfe
      rw [hleft]
      exact ⟨fun hfits => absurd (hfits e List.mem_cons_self) hfe, fun _ => ⟨left, rfl⟩⟩

/-! ### Values -/

/-- Every reader of values is `readWith` for some reader of what is in them. -/
theorem exists_readWith (depth : Nat) : ∃ inner, readValue depth = readWith inner := by
  cases depth with
  | zero => exact ⟨none, rfl⟩
  | succ depth => exact ⟨some (readValue depth), rfl⟩

/-- A value that opens no container fits every depth. -/
theorem ReadsBack.of_scalar {depth : Nat} {j : Json} {cs rest : List Char} (hj : j.nesting = 0)
    (h : ∀ inner, readWith inner cs = .ok (j, rest)) :
    ReadsBack (readValue depth cs) (j.nesting ≤ depth) j rest := by
  obtain ⟨inner, hinner⟩ := exists_readWith depth
  rw [hinner, hj]
  exact ⟨fun _ => h inner, fun hfits => absurd (Nat.zero_le depth) hfits⟩

/-- An item of an array takes at least one character, so the length of a text bounds the items. -/
theorem length_lt_writeItems (vs : List Json) : vs.length < (writeItems vs).length := by
  induction vs with
  | nil => rw [writeItems]; decide
  | cons v vs ih =>
    rw [writeItems, List.cons_append, List.length_cons, List.length_cons, List.length_append]
    omega

theorem length_lt_writeEntries (es : List (String × Json)) :
    es.length < (writeEntries es).length := by
  induction es with
  | nil => rw [writeEntries]; decide
  | cons e es ih =>
    rw [writeEntries, List.length_append, List.cons_append, List.length_cons, List.length_cons]
    omega

/-- The text of an array is read back after its opening bracket. -/
theorem readArray_write {item : List Char → Result Json} {fits : Json → Prop} {items : List Json}
    (hitems : ∀ w ∈ items, w.isReadable)
    (hitem : ∀ w ∈ items, ∀ rest, endsNumber rest →
      ReadsBack (item (w.write ++ rest)) (fits w) w rest) :
    ∃ body, (array items).write = '[' :: body ∧ ∀ rest,
      ReadsBack (readArray item (body ++ rest)) (∀ w ∈ items, fits w) items rest := by
  cases items with
  | nil =>
    refine ⟨[']'], by rw [write], fun rest => ⟨fun _ => rfl, fun hfits => absurd ?_ hfits⟩⟩
    exact fun w hw => absurd hw List.not_mem_nil
  | cons v vs =>
    refine ⟨v.write ++ writeItems vs, by rw [write, List.cons_append], fun rest => ?_⟩
    obtain ⟨c, cs, hwrite, hspace, hbracket, -⟩ :=
      exists_cons_of_write (hitems v List.mem_cons_self)
    have hread : readArray item (v.write ++ writeItems vs ++ rest) =
        readItems item (v.write ++ writeItems vs ++ rest).length
          (v.write ++ writeItems vs ++ rest) := by
      rw [hwrite, List.cons_append, List.cons_append, readArray, skipSpace_of_not_isSpace hspace]
      exact if_neg hbracket
    rw [hread]
    refine readItems_write hitems hitem ?_
    have hlength := length_lt_writeItems vs
    rw [List.length_append, List.length_append]
    omega

/-- The text of an object is read back after its opening bracket. -/
theorem readObject_write {item : List Char → Result Json} {fits : String × Json → Prop}
    {entries : List (String × Json)}
    (hitem : ∀ e ∈ entries, ∀ rest, endsNumber rest →
      ReadsBack (item (e.2.write ++ rest)) (fits e) e.2 rest) :
    ∃ body, (object entries).write = '\x7b' :: body ∧ ∀ rest,
      ReadsBack (readObject item (body ++ rest)) (∀ e ∈ entries, fits e) entries rest := by
  cases entries with
  | nil =>
    refine ⟨['\x7d'], by rw [write], fun rest => ⟨fun _ => rfl, fun hfits => absurd ?_ hfits⟩⟩
    exact fun e he => absurd he List.not_mem_nil
  | cons e es =>
    refine ⟨writeString e.1 ++ ':' :: e.2.write ++ writeEntries es, by rw [write]; rfl,
      fun rest => ?_⟩
    have hread : ∀ cs, readObject item ('"' :: cs) =
        readEntries item ('"' :: cs).length ('"' :: cs) := fun cs => rfl
    rw [writeString, List.cons_append, List.cons_append, List.cons_append, List.cons_append, hread]
    refine readEntries_write hitem ?_
    have hlength := length_lt_writeEntries es
    simp only [List.length_append, List.length_cons]
    omega

/-- **Values are read back.** The text of a readable value gives the value and what follows it, if
the value is not nested deeper than the reader allows; otherwise that is what the reader reports. -/
theorem readValue_write {j : Json} (hj : j.isReadable) (depth : Nat) {rest : List Char}
    (hrest : endsNumber rest) :
    ReadsBack (readValue depth (j.write ++ rest)) (j.nesting ≤ depth) j rest := by
  induction j generalizing depth rest with
  | null => exact .of_scalar rfl fun inner => rfl
  | boolean b =>
    cases b with
    | true => exact .of_scalar rfl fun inner => rfl
    | false => exact .of_scalar rfl fun inner => rfl
  | integer n =>
    obtain ⟨hlower, hupper⟩ := Bool.and_eq_true_iff.mp hj
    exact .of_scalar rfl fun inner =>
      readWith_intText (of_decide_eq_true hlower) (of_decide_eq_true hupper) hrest
  | real x => cases hj
  | string text =>
    refine .of_scalar rfl fun inner => ?_
    change (readString (text.toList.flatMap writeChar ++ ['"'] ++ rest)).map _ = _
    rw [List.append_assoc, List.singleton_append, readString_writeString]
    rfl
  | array items ih =>
    have hitems := isReadable_array_iff.mp hj
    cases depth with
    | zero =>
      obtain ⟨body, hbody, -⟩ := readArray_write hitems
        fun w hw rest' hrest' => ih w hw (hitems w hw) 0 hrest'
      rw [hbody]
      exact ⟨fun hfits => absurd hfits (by rw [nesting]; omega), fun _ => ⟨_, rfl⟩⟩
    | succ depth =>
      obtain ⟨body, hbody, hread⟩ := readArray_write hitems
        fun w hw rest' hrest' => ih w hw (hitems w hw) depth hrest'
      rw [nesting_array_le_iff, hbody]
      exact (hread rest).map _ rfl
  | object entries ih =>
    obtain ⟨hkeys, hentries⟩ := isReadable_object_iff.mp hj
    cases depth with
    | zero =>
      obtain ⟨body, hbody, -⟩ := readObject_write
        fun e he rest' hrest' => ih e he (hentries e he) 0 hrest'
      rw [hbody]
      exact ⟨fun hfits => absurd hfits (by rw [nesting]; omega), fun _ => ⟨_, rfl⟩⟩
    | succ depth =>
      obtain ⟨body, hbody, hread⟩ := readObject_write
        fun e he rest' hrest' => ih e he (hentries e he) depth hrest'
      rw [nesting_object_le_iff, hbody]
      refine (hread rest).map _ ?_
      simp only [Entries.ofPairs_of_nodup hkeys]

/-- **Whole texts are read back**, unless they are nested too deep. -/
theorem read_write {j : Json} (hj : j.isReadable) :
    (j.nesting ≤ maxDepth → read j.write = .ok j) ∧
      (¬ j.nesting ≤ maxDepth → ∃ left, read j.write = .error ⟨.tooDeep, left⟩) := by
  have hread : ReadsBack (readValue maxDepth (j.write ++ [])) (j.nesting ≤ maxDepth) j [] :=
    readValue_write hj maxDepth rfl
  rw [List.append_nil] at hread
  constructor
  · intro hfits
    rw [read, hread.1 hfits]
    rfl
  · intro hfits
    obtain ⟨left, hleft⟩ := hread.2 hfits
    exact ⟨left, by rw [read, hleft]; rfl⟩

end Json

end QueryFilter
