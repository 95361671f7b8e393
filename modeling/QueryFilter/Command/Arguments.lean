import QueryFilter.Command.Answer

/-!
# Command line arguments

A query, and options before or after it:

* `-c PATH`, `--config PATH` — a settings file
* `-p`, `--pretty` — filters with line breaks
* `--tokens`, `--ast` — the tokens or the tree instead of the filter
* `-v`, `--verbose` — more log records, up to three times
* `--` — what follows is the query
-/

namespace QueryFilter

namespace Command

/-- What the arguments say. -/
structure Arguments where
  query : Option String := none
  settingsPath : Option String := none
  mode : OutputMode := .filter
  style : Style := {}

namespace Arguments

/-- The error of an argument that is not wanted. -/
def unexpected (arg : String) : String := "error: unexpected argument '" ++ arg ++ "' found"

/-- The arguments with a query; there may be only one. -/
def withQuery (a : Arguments) (query : String) : Except String Arguments :=
  match a.query with
  | none => .ok { a with query := some query }
  | some _ => .error (unexpected query)

/-- The arguments with a mode; there may be only one. -/
def withMode (a : Arguments) (mode : OutputMode) : Except String Arguments :=
  if a.mode = .filter || a.mode = mode then .ok { a with mode }
  else .error "error: the argument '--tokens' cannot be used with '--ast'"

/-- The arguments with more verbosity. -/
def louder (a : Arguments) (n : Nat) : Arguments :=
  { a with style := { a.style with verbosity := a.style.verbosity + n } }

/-- The count of an option `-v`, `-vv` and so on. -/
def verbosity? (arg : String) : Option Nat :=
  match arg.toList with
  | '-' :: 'v' :: cs => if cs.all (· = 'v') then some (cs.length + 1) else none
  | _ => none

/-- Reads the arguments that are left. -/
def readFrom (a : Arguments) : List String → Except String Arguments
  | [] => .ok a
  | arg :: rest =>
    if arg = "--" then
      match rest with
      | [] => .ok a
      | [query] => a.withQuery query
      | _ :: extra :: _ => .error (unexpected extra)
    else if arg = "-c" || arg = "--config" then
      match rest with
      | [] => .error ("error: a value is required for '" ++ arg ++ "' but none was supplied")
      | path :: rest => readFrom { a with settingsPath := some path } rest
    else if arg = "-p" || arg = "--pretty" then
      readFrom { a with style := { a.style with pretty := true } } rest
    else if arg = "--tokens" then do (← a.withMode .tokens).readFrom rest
    else if arg = "--ast" then do (← a.withMode .tree).readFrom rest
    else if arg = "--verbose" then readFrom (a.louder 1) rest
    else match verbosity? arg with
      | some n => readFrom (a.louder n) rest
      | none =>
        if arg.toList.head? = some '-' && arg ≠ "-" then
          .error (unexpected arg)
        else do (← a.withQuery arg).readFrom rest

/-- What a list of arguments says. -/
def ofList (args : List String) : Except String Arguments := readFrom {} args

end Arguments

end Command

end QueryFilter
