import QueryFilter.Json.Reader
import QueryFilter.Json.Writer
import QueryFilter.Text.Quoted

/-!
# Settings

How deep a query may be nested, and whether conjunctions are merged. Settings are kept in a file of
JSON: an object with a field for each, or an array of the two in order; what is missing has its
default. Whatever else stands in the file is an error.

## Main definitions

* `Settings` — the settings and their defaults
* `Settings.ofText` — the settings of a JSON text
* `Settings.check` — settings that can be used
* `Settings.load` — the settings of a file
* `Settings.toJson` — settings to be kept in a file
-/

namespace QueryFilter

/-- What can be set. -/
structure Settings where
  /-- How many negations, groups and arrays may be open in a query. -/
  maxDepth : Nat := 64
  /-- Whether conjunctions without a common key become one document. -/
  mergeConjunctions : Bool := true
deriving DecidableEq

namespace Settings

open Json (Fault Problem Result)

/-! ### Fields -/

/-- The names of the settings. -/
inductive Field where
  | maxDepth
  | mergeConjunctions
deriving DecidableEq

/-- The key of a setting. -/
def Field.key : Field → String
  | maxDepth => "max_depth"
  | mergeConjunctions => "merge_conjunctions"

/-- The setting with a key. -/
def Field.ofKey? (key : String) : Option Field :=
  if key = maxDepth.key then some maxDepth
  else if key = mergeConjunctions.key then some mergeConjunctions
  else none

/-- Settings of which some have been given. -/
structure Draft where
  maxDepth : Option Nat := none
  mergeConjunctions : Option Bool := none

namespace Draft

/-- Whether a setting has been given. -/
def has (d : Draft) : Field → Bool
  | .maxDepth => d.maxDepth.isSome
  | .mergeConjunctions => d.mergeConjunctions.isSome

/-- The settings that have been given, and the defaults of the others. -/
def complete (d : Draft) : Settings :=
  let defaults : Settings := {}
  { maxDepth := d.maxDepth.getD defaults.maxDepth
    mergeConjunctions := d.mergeConjunctions.getD defaults.mergeConjunctions }

end Draft

/-! ### Values -/

/-- A JSON scalar in messages. -/
def describe : Json → String
  | .null => "null"
  | .boolean b => "boolean `" ++ (if b then "true" else "false") ++ "`"
  | .integer n => "integer `" ++ Text.intText n ++ "`"
  | .real x => "floating point `" ++ x.text NumberStyle.json ++ "`"
  | .string text => "string " ++ Text.quoted text
  | .array _ => "sequence"
  | .object _ => "map"

/-- The problem of a value of the wrong type. -/
def invalidType (value : Json) (expected : String) : Problem :=
  .unsuitable ("invalid type: " ++ describe value ++ ", expected " ++ expected)

/-- A scalar; an array or an object is refused before it is opened. -/
def readScalar (expected : String) (cs : List Char) : Result Json :=
  match Json.skipSpace cs with
  | [] => .error (.atEnd .endInValue)
  | c :: rest =>
    if c = '[' then .error (.before (invalidType (.array []) expected) (c :: rest))
    else if c = '\x7b' then .error (.before (invalidType (.object []) expected) (c :: rest))
    else Json.readWith none (c :: rest)

/-- A depth: an integer that is not negative. -/
def readDepth (cs : List Char) : Result Nat :=
  match readScalar "usize" cs with
  | .error e => .error e
  | .ok (.integer n, rest) =>
    if 0 ≤ n then .ok (n.toNat, rest)
    else .error (.before
      (.unsuitable ("invalid value: " ++ describe (.integer n) ++ ", expected usize")) rest)
  | .ok (v, rest) => .error (.before (invalidType v "usize") rest)

/-- A choice: a boolean. -/
def readChoice (cs : List Char) : Result Bool :=
  match readScalar "a boolean" cs with
  | .error e => .error e
  | .ok (.boolean b, rest) => .ok (b, rest)
  | .ok (v, rest) => .error (.before (invalidType v "a boolean") rest)

/-- The value of a setting. -/
def readField (d : Draft) (cs : List Char) : Field → Result Draft
  | .maxDepth => (readDepth cs).map fun (n, rest) => ({ d with maxDepth := some n }, rest)
  | .mergeConjunctions =>
    (readChoice cs).map fun (b, rest) => ({ d with mergeConjunctions := some b }, rest)

/-! ### Objects -/

/-- The fault of a key that is not wanted. It is placed behind the key, the blanks after it and a
bracket that closes the object there. -/
def unwanted (text : String) (cs : List Char) : Fault :=
  match Json.skipSpace cs with
  | [] => .before (.unsuitable text) []
  | c :: rest =>
    if c = '\x7d' then .before (.unsuitable text) rest else .before (.unsuitable text) (c :: rest)

/-- A key that names a setting which has not been given yet. -/
def readFieldKey (d : Draft) (cs : List Char) : Result Field :=
  match Json.readKey cs with
  | .error e => .error e
  | .ok (key, rest) =>
    match Field.ofKey? key with
    | none => .error (unwanted
        ("unknown field `" ++ key ++ "`, expected `max_depth` or `merge_conjunctions`") rest)
    | some field =>
      if d.has field then .error (unwanted ("duplicate field `" ++ field.key ++ "`") rest)
      else .ok (field, rest)

/-- The fields of an object from a first one to the end, at most `fuel` of them. -/
def readFields : Nat → Draft → List Char → Result Draft
  | 0, _, cs => .error (.before .expectedObjectEnd cs)
  | fuel + 1, d, cs =>
    match readFieldKey d cs with
    | .error e => .error e
    | .ok (field, rest) =>
      match Json.readColon rest with
      | .error e => .error e
      | .ok rest =>
        match readField d rest field with
        | .error e => .error e
        | .ok (d, rest) =>
          match Json.afterEntry rest with
          | .error e => .error e
          | .ok (.inr rest) => .ok (d, rest)
          | .ok (.inl more) => readFields fuel d more

/-- Settings as an object, given the text after its opening bracket. -/
def readObject (cs : List Char) : Result Draft :=
  match Json.skipSpace cs with
  | [] => .error (.atEnd .endInObject)
  | c :: rest => if c = '\x7d' then .ok ({}, rest) else readFields (c :: rest).length {} (c :: rest)

/-! ### Arrays -/

/-- The end of an array that may have no more items. -/
def readArrayEnd (cs : List Char) : Except Fault (List Char) :=
  match Json.skipSpace cs with
  | [] => .error (.atEnd .endInList)
  | c :: rest =>
    if c = ']' then .ok rest
    else if c = ',' then
      match Json.skipSpace rest with
      | [] => .error (.atEnd .trailingCharacters)
      | d :: more =>
        .error (.within (if d = ']' then .trailingComma else .trailingCharacters) (d :: more))
    else .error (.within .trailingCharacters (c :: rest))

/-- Settings as an array, given the text after its opening bracket. -/
def readArray (cs : List Char) : Result Draft :=
  match Json.skipSpace cs with
  | [] => .error (.atEnd .endInList)
  | c :: rest =>
    if c = ']' then .ok ({}, rest)
    else match readField {} (c :: rest) .maxDepth with
      | .error e => .error e
      | .ok (d, rest) =>
        match Json.afterItem rest with
        | .error e => .error e
        | .ok (.inr rest) => .ok (d, rest)
        | .ok (.inl more) =>
          match readField d more .mergeConjunctions with
          | .error e => .error e
          | .ok (d, rest) => (readArrayEnd rest).map (d, ·)

/-! ### Files -/

/-- Settings at the front of a text. -/
def readDraft (cs : List Char) : Result Draft :=
  match Json.skipSpace cs with
  | [] => .error (.atEnd .endInValue)
  | c :: rest =>
    if c = '[' then readArray rest
    else if c = '\x7b' then readObject rest
    else match Json.readWith none (c :: rest) with
      | .error e => .error e
      | .ok (v, rest) => .error (.before (invalidType v "struct CompilerConfig") rest)

/-- The settings of a JSON text. -/
def ofText (cs : List Char) : Except Fault Settings :=
  (Json.finish (readDraft cs)).map Draft.complete

end Settings

/-- Why settings cannot be loaded. -/
inductive SettingsError where
  | notFound
  /-- The file cannot be read. -/
  | unreadable (cause : String)
  /-- The file does not hold settings. -/
  | malformed (cause : String)
  /-- The settings cannot be used. -/
  | invalid (reason : String)
deriving DecidableEq

namespace SettingsError

/-- The error in words, for a file with the given path. -/
def message (path : String) : SettingsError → String
  | notFound => "config file not found: " ++ path
  | unreadable cause => "cannot read config file " ++ path ++ ": " ++ cause
  | malformed cause => "cannot parse config file " ++ path ++ ": " ++ cause
  | invalid reason => "invalid config: " ++ reason

/-- What lies behind an error. -/
def cause? : SettingsError → Option String
  | unreadable cause | malformed cause => some cause
  | _ => none

end SettingsError

/-- What is found at a path. -/
inductive FileContent where
  | missing
  | directory
  | bytes (content : ByteArray)
  /-- Reading failed for another reason, which the system names. -/
  | failed (cause : String)

namespace Settings

/-- Settings that can be used: at least one level of nesting. -/
def check (s : Settings) : Except SettingsError Settings :=
  if s.maxDepth = 0 then .error (.invalid "max_depth must be at least 1") else .ok s

/-- The settings that a text holds. -/
def parse (text : String) : Except SettingsError Settings :=
  match ofText text.toList with
  | .error fault => .error (.malformed (fault.message text.toList))
  | .ok s => s.check

/-- The settings of a file. -/
def load : FileContent → Except SettingsError Settings
  | .missing => .error .notFound
  | .directory => .error (.unreadable "Is a directory (os error 21)")
  | .failed cause => .error (.unreadable cause)
  | .bytes content =>
    match String.fromUTF8? content with
    | none => .error (.unreadable "stream did not contain valid UTF-8")
    | some text => parse text

/-- Settings as JSON. -/
def toJson (s : Settings) : Json :=
  .object [(Field.maxDepth.key, .integer s.maxDepth),
    (Field.mergeConjunctions.key, .boolean s.mergeConjunctions)]

end Settings

end QueryFilter
