import QueryFilter.Command.Answer
import QueryFilter.Text.Blank

/-!
# Interactive sessions

In a session every line is a query, and is answered as the command answers a single query. Lines
that start with a colon change what is shown from then on, or end the session. A failing query
changes nothing.

## Main definitions

* `Command.Line` — what a line asks for
* `Command.respond` — the answer to a line, and how the session goes on
* `Command.session` — the answers to all lines
-/

namespace QueryFilter

namespace Command

/-- What a line of a session asks for. -/
inductive Line where
  | blank
  | quit
  | mode (m : OutputMode)
  | query (source : String)
deriving DecidableEq

/-- The meaning of a line, blanks around it left out. -/
def Line.ofText (text : String) : Line :=
  let text := Text.trim text
  if text = "" then blank
  else if text = ":quit" || text = ":q" then quit
  else if text = ":tokens" then mode .tokens
  else if text = ":ast" then mode .tree
  else if text = ":filter" then mode .filter
  else query text

/-- How a session goes on after a line. -/
inductive Next where
  /-- The next line is read, in a mode. -/
  | go (mode : OutputMode)
  /-- The session is over; `readable` says whether the line was text. -/
  | stop (readable : Bool)
deriving DecidableEq

/-- The error of a line that is not text. -/
def unreadableLine : String :=
  "Error: cannot read line\n\nCaused by:\n" ++
    "    0: stream did not contain valid UTF-8\n    1: stream did not contain valid UTF-8"

/-- The answer to a line, and how the session goes on. A line that is not text ends it. -/
def respond (c : Compiler) (style : Style) (mode : OutputMode) : Option String → Transcript × Next
  | none => ({ errors := [unreadableLine] }, .stop false)
  | some text =>
    match Line.ofText text with
    | .blank => ({}, .go mode)
    | .quit => ({}, .stop true)
    | .mode m => ({}, .go m)
    | .query source => (answer c style mode source, .go mode)

/-- The answers to the lines of a session, and whether all lines that it read were text. -/
def session (c : Compiler) (style : Style) (mode : OutputMode) :
    List (Option String) → Transcript × Bool
  | [] => ({}, true)
  | line :: lines =>
    match respond c style mode line with
    | (t, .stop readable) => (t, readable)
    | (t, .go mode) =>
      let (rest, readable) := session c style mode lines
      (t.append rest, readable)

/-- The first line of a session. -/
def banner : String := "hrq2mongoq: enter a query, or :tokens, :ast, :filter, :quit"

end Command

end QueryFilter
