/-!
# Entries

The entries of a document or of a JSON object: pairs of a key and a value in the order in which the
keys first came. A key that is entered again keeps its place and takes the new value.

## Main definitions

* `Entries` — keys and values in order
* `Entries.keys`, `Entries.get?`, `Entries.insert` — the keys, the value of a key, and entering one
-/

namespace QueryFilter

/-- Keys and their values, in order. -/
abbrev Entries (α : Type) := List (String × α)

namespace Entries

/-- The keys in order. -/
def keys {α : Type} (entries : Entries α) : List String := entries.map Prod.fst

/-- The value of a key. -/
def get? {α : Type} (entries : Entries α) (key : String) : Option α :=
  match entries with
  | [] => none
  | (k, v) :: rest => if k = key then some v else get? rest key

/-- Gives a key a value: in its place if it has one, otherwise at the end. -/
def insert {α : Type} (entries : Entries α) (key : String) (value : α) : Entries α :=
  match entries with
  | [] => [(key, value)]
  | (k, v) :: rest => if k = key then (k, value) :: rest else (k, v) :: insert rest key value

/-- The entries of pairs that are entered one after the other. -/
def ofPairs {α : Type} (pairs : List (String × α)) : Entries α :=
  pairs.foldl (fun entries (key, value) => insert entries key value) []

/-- A new key goes to the end. -/
theorem insert_of_not_mem_keys {α : Type} {entries : Entries α} {key : String} (value : α)
    (h : key ∉ keys entries) : insert entries key value = entries ++ [(key, value)] := by
  induction entries with
  | nil => rfl
  | cons entry rest ih =>
    have hkey : ¬ (entry.1 = key ∨ key ∈ keys rest) := by
      simpa [keys, eq_comm] using h
    rw [insert, if_neg (fun heq => hkey (.inl heq)), ih (fun hmem => hkey (.inr hmem)),
      List.cons_append]

/-- Pairs of new and different keys are entered as they stand. -/
theorem foldl_insert_of_nodup {α : Type} {pairs : List (String × α)} {entries : Entries α}
    (h : (keys (entries ++ pairs)).Nodup) :
    pairs.foldl (fun entries (key, value) => insert entries key value) entries =
      entries ++ pairs := by
  induction pairs generalizing entries with
  | nil => exact (List.append_nil entries).symm
  | cons pair pairs ih =>
    obtain ⟨key, value⟩ := pair
    have hnew : key ∉ keys entries := by
      intro hmem
      rw [keys, List.map_append, List.nodup_append] at h
      exact h.2.2 key hmem key (by simp) rfl
    have hsplit : entries ++ (key, value) :: pairs = (entries ++ [(key, value)]) ++ pairs := by
      rw [List.append_assoc, List.singleton_append]
    rw [hsplit] at h ⊢
    rw [← ih h, ← insert_of_not_mem_keys value hnew, List.foldl_cons]

/-- Entering pairs of different keys gives the pairs. -/
theorem ofPairs_of_nodup {α : Type} {pairs : List (String × α)} (h : (keys pairs).Nodup) :
    ofPairs pairs = pairs :=
  @foldl_insert_of_nodup α pairs [] h

end Entries

end QueryFilter
