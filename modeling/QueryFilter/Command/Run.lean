import QueryFilter.Command.Session

/-!
# The command

The command loads its settings, then answers the query it is given, or without one the lines of its
input. All that it does is computed here, from its options, the settings file and its input.

## Main definitions

* `Command.Options` — all that can be asked of the command
* `Command.loadSettings` — the settings, or why there are none
* `Command.run` — everything that the command prints, and its exit code
-/

namespace QueryFilter

namespace Command

/-- A settings file: its path, and what is found there. -/
structure SettingsFile where
  path : String
  content : FileContent

/-- All that can be asked of the command. -/
structure Options where
  query : Option String := none
  settings : Option SettingsFile := none
  mode : OutputMode := .filter
  style : Style := {}

/-- What a command leaves behind. -/
structure Outcome where
  exitCode : Nat
  output : String
  errors : String

/-- Lines with their line ends. -/
def unlines (lines : List String) : String := String.join (lines.map (· ++ "\n"))

/-- The outcome of a transcript. -/
def Transcript.outcome (t : Transcript) (succeeded : Bool) : Outcome :=
  ⟨if succeeded then 0 else 1, unlines t.output, unlines t.errors⟩

/-- A text with four spaces before each of its lines, empty lines included, so that a cause of
several lines stands apart from what it explains. -/
def indented (text : String) : String :=
  "\n".intercalate ((Text.pieces '\n' text.toList).map fun line => "    " ++ String.ofList line)

/-- The settings of a file and the record of loading them. Without a file, and if it is missing,
they are the defaults. -/
def loadSettings : Option SettingsFile → Except String (Settings × List LogRecord)
  | none => .ok ({}, [])
  | some file =>
    match Settings.load file.content with
    | .ok s => .ok (s, [⟨.info, "loaded compiler config from " ++ file.path⟩])
    | .error .notFound =>
      .ok ({}, [⟨.warn, SettingsError.notFound.message file.path ++ ", using default config"⟩])
    | .error e =>
      .error ("Error: " ++ e.message file.path ++
        match e.cause? with
        | some cause => "\n\nCaused by:\n" ++ indented cause
        | none => "")

/-- A line as text, if it is any. -/
def lineText? (line : List UInt8) : Option String := String.fromUTF8? ⟨line.toArray⟩

/-- The byte that ends a line. -/
def lineFeed : UInt8 := 10

/-- The command with its settings loaded: the answer to its query, or to the lines of its input. -/
def runWith (c : Compiler) (options : Options) (input : List UInt8) : Transcript × Bool :=
  match options.query with
  | some source =>
    (answer c options.style options.mode source,
      (runQuery c options.style options.mode source).toBool)
  | none =>
    let lines := (Text.pieces lineFeed input).map lineText?
    let (t, readable) := session c options.style options.mode lines
    (.append ⟨[banner], []⟩ t, readable)

/-- Everything that the command prints, and its exit code. -/
def run (options : Options) (input : List UInt8) : Outcome :=
  match loadSettings options.settings with
  | .error text => Transcript.outcome ⟨[], [text]⟩ false
  | .ok (settings, records) =>
    let (t, succeeded) := runWith { settings } options input
    (Transcript.append ⟨[], LogRecord.shown options.style.verbosity records⟩ t).outcome succeeded

end Command

end QueryFilter
