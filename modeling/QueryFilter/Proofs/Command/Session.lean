import Mathlib.Data.List.Infix
import Mathlib.Data.List.TakeWhile
import QueryFilter.Command.Run
import QueryFilter.Proofs.Outcome
import QueryFilter.Proofs.Text.Lines

/-!
# A session answers each line like a single query

A session goes through its input line by line, with a mode that commands change on the way and two
outputs that it writes to in turn. From the outside it is simpler: which lines are queries, and in
which mode each of them is asked, can be told from the lines alone. The answers are those that the
command gives to each of these queries on its own, results and diagnostics apart.

In particular nothing that a query gives has a say in what comes after it. A query that fails leaves
its diagnostic, and the rest of the session is what it would have been without the line.

## Main definitions

* `Command.inputLines` — the lines of an input, trimmed
* `Command.heard` — the lines up to the end of the session, without the empty ones
* `Command.modeAfter` — the mode that the last command sets
* `Command.askedQueries` — the queries of a session, each with its mode

## Main results

* `Command.respond_eq` — what one line does
* `Command.session_eq` — what a whole session does
* `Command.session_answers_as_single_queries` — the answers of a session to a text
-/

namespace QueryFilter

namespace Command

/-! ### What the lines of a session say -/

/-- The commands that end a session. -/
def quitCommands : List String := [":quit", ":q"]

/-- The mode that a command sets from then on. -/
def commandMode? (line : String) : Option OutputMode :=
  if line = ":tokens" then some .tokens
  else if line = ":ast" then some .tree
  else if line = ":filter" then some .filter
  else none

/-- The lines of an input without the blanks around them. -/
def inputLines (text : String) : List String :=
  (Text.shownLines text.toList).map fun line => Text.trim (String.ofList line)

/-- The lines that a session gets to and that are not empty. -/
def heard (lines : List String) : List String :=
  (lines.takeWhile (· ∉ quitCommands)).filter (· ≠ "")

/-- The mode after some lines: what the last command among them sets, or the mode before them. -/
def modeAfter (start : OutputMode) (lines : List String) : OutputMode :=
  ((lines.filterMap commandMode?).getLast?).getD start

/-- What a line asks after the lines before it: nothing if it is a command. -/
def queryAfter? (start : OutputMode) (before : List String) (line : String) :
    Option (OutputMode × String) :=
  if commandMode? line = none then some (modeAfter start before, line) else none

/-- The queries among some lines, each with the mode in which it is asked. -/
def askedQueries (start : OutputMode) (lines : List String) : List (OutputMode × String) :=
  (lines.inits.zip lines).filterMap fun p => queryAfter? start p.1 p.2

/-- A line that is neither empty nor a command. -/
def IsQuery (line : String) : Prop :=
  line ≠ "" ∧ line ∉ quitCommands ∧ commandMode? line = none

/-! ### Line after line -/

theorem heard_cons_empty (lines : List String) : heard ("" :: lines) = heard lines := rfl

theorem heard_cons_quit {line : String} (h : line ∈ quitCommands) (lines : List String) :
    heard (line :: lines) = [] := by
  rw [heard, List.takeWhile_cons_of_neg (by simpa using h), List.filter_nil]

theorem heard_cons {line : String} (hne : line ≠ "") (hquit : line ∉ quitCommands)
    (lines : List String) : heard (line :: lines) = line :: heard lines := by
  rw [heard, List.takeWhile_cons_of_pos (by simpa using hquit),
    List.filter_cons_of_pos (by simpa using hne), heard]

/-- Without the end of the session in the first of two parts, both are heard. -/
theorem heard_append {lines : List String} (h : ∀ line ∈ lines, line ∉ quitCommands)
    (more : List String) : heard (lines ++ more) = heard lines ++ heard more := by
  have hall : ∀ line ∈ lines, decide (line ∉ quitCommands) := fun line hline =>
    decide_eq_true (h line hline)
  rw [heard, List.takeWhile_append_of_pos hall, List.filter_append, heard, heard,
    List.takeWhile_eq_self_iff.mpr hall]

theorem modeAfter_append (start : OutputMode) (lines more : List String) :
    modeAfter start (lines ++ more) = modeAfter (modeAfter start lines) more := by
  rw [modeAfter, List.filterMap_append, List.getLast?_append, modeAfter, modeAfter]
  cases (more.filterMap commandMode?).getLast? with
  | none => rfl
  | some mode => rfl

theorem queryAfter?_append (start : OutputMode) (lines before : List String) (line : String) :
    queryAfter? start (lines ++ before) line = queryAfter? (modeAfter start lines) before line := by
  rw [queryAfter?, modeAfter_append, queryAfter?]

/-- The first line is asked in the mode at the start, and the rest in the mode after it. -/
theorem askedQueries_cons (start : OutputMode) (line : String) (lines : List String) :
    askedQueries start (line :: lines) =
      (queryAfter? start [] line).toList ++ askedQueries (modeAfter start [line]) lines := by
  have hrest : (lines.inits.zip lines).filterMap (fun p => queryAfter? start (line :: p.1) p.2) =
      askedQueries (modeAfter start [line]) lines :=
    List.filterMap_congr fun p _ => queryAfter?_append start [line] p.1 p.2
  rw [askedQueries, List.inits_cons, List.zip_cons_cons, List.zip_map_left, List.filterMap_cons,
    List.filterMap_map, ← hrest]
  cases queryAfter? start [] line with
  | none => rfl
  | some query => rfl

theorem askedQueries_append (start : OutputMode) (lines more : List String) :
    askedQueries start (lines ++ more) =
      askedQueries start lines ++ askedQueries (modeAfter start lines) more := by
  induction lines generalizing start with
  | nil => rfl
  | cons line lines ih =>
    rw [List.cons_append, askedQueries_cons, ih, askedQueries_cons, List.append_assoc,
      ← modeAfter_append, List.singleton_append]

/-- A query is asked in its turn, and the queries after it are asked as they would be without it. -/
theorem askedQueries_insert (start : OutputMode) {before : List String} {line : String}
    (hbefore : ∀ l ∈ before, l ∉ quitCommands) (hquery : IsQuery line) (after : List String) :
    let mode := modeAfter start (heard before)
    let later := askedQueries mode (heard after)
    askedQueries start (heard (before ++ after)) = askedQueries start (heard before) ++ later ∧
      askedQueries start (heard (before ++ line :: after)) =
        askedQueries start (heard before) ++ (mode, line) :: later := by
  intro mode later
  obtain ⟨hne, hquit, hcommand⟩ := hquery
  have hmode : modeAfter mode [line] = mode := by simp [modeAfter, hcommand]
  constructor
  · rw [heard_append hbefore, askedQueries_append]
  · rw [heard_append hbefore, askedQueries_append, heard_cons hne hquit, askedQueries_cons, hmode,
      queryAfter?, if_pos hcommand]
    rfl

/-! ### From the lines to the answers -/

/-- **What one line does.** An empty line does nothing, a command sets the mode or ends the session,
and any other line is answered and leaves the mode as it is. -/
theorem respond_eq (c : Compiler) (style : Style) (mode : OutputMode) (line : String) :
    respond c style mode (some line) =
      if Text.trim line = "" then ({}, .go mode)
      else if Text.trim line ∈ quitCommands then ({}, .stop true)
      else match commandMode? (Text.trim line) with
        | some m => ({}, .go m)
        | none => (answer c style mode (Text.trim line), .go mode) := by
  simp only [respond, Line.ofText, quitCommands, commandMode?, List.mem_cons, List.not_mem_nil,
    or_false, Bool.or_eq_true, decide_eq_true_eq]
  split_ifs <;> rfl

/-- The answers to queries that are asked one after the other. -/
def answersTo (c : Compiler) (style : Style) (queries : List (OutputMode × String)) : Transcript :=
  ⟨queries.flatMap fun q => (answer c style q.1 q.2).output,
    queries.flatMap fun q => (answer c style q.1 q.2).errors⟩

/-- **A session answers its queries one after the other**, until a line ends it. -/
theorem session_eq (c : Compiler) (style : Style) (mode : OutputMode) (lines : List String) :
    session c style mode (lines.map some) =
      (answersTo c style (askedQueries mode (heard (lines.map Text.trim))), true) := by
  induction lines generalizing mode with
  | nil => rfl
  | cons line lines ih =>
    rw [List.map_cons, session, respond_eq, List.map_cons]
    generalize Text.trim line = text
    by_cases hne : text = ""
    · rw [if_pos hne, hne, heard_cons_empty]
      exact ih mode
    · by_cases hquit : text ∈ quitCommands
      · rw [if_neg hne, if_pos hquit, heard_cons_quit hquit]
        rfl
      · rw [if_neg hne, if_neg hquit, heard_cons hne hquit, askedQueries_cons, queryAfter?]
        cases hmode : commandMode? text with
        | some m =>
          have hafter : modeAfter mode [text] = m := by simp [modeAfter, hmode]
          rw [hafter]
          exact ih m
        | none =>
          have hafter : modeAfter mode [text] = mode := by simp [modeAfter, hmode]
          rw [hafter]
          simp only [ih mode]
          rfl

/-! ### Single queries -/

/-- Records of answering a query are for those who ask for them. -/
theorem verbosity_of_mem_queryLog {c : Compiler} {mode : OutputMode} {source : String}
    {record : LogRecord} (h : record ∈ queryLog c mode source) : 2 ≤ record.level.verbosity := by
  have hparse : ∀ r ∈ c.parseLog source, 2 ≤ r.level.verbosity := by
    intro r hr
    rw [Compiler.parseLog] at hr
    split at hr
    · cases hr
    · rcases List.mem_cons.mp hr with rfl | hr
      · exact Nat.le_refl 2
      · split at hr
        · cases hr
        · rw [List.mem_singleton.mp hr]
          exact Nat.le_succ 2
  cases mode with
  | tokens => cases h
  | tree => exact hparse record h
  | filter =>
    rcases List.mem_append.mp h with h | h
    · exact hparse record h
    · split at h
      · cases h
      · rw [List.mem_singleton.mp h]
        exact Nat.le_refl 2

/-- Without more verbosity, the transcript of a query is its answer. -/
theorem answer_eq (c : Compiler) (pretty : Bool) (mode : OutputMode) (source : String) :
    answer c { pretty } mode source = .ofAnswer (runQuery c { pretty } mode source) := by
  have hshown : LogRecord.shown 0 (queryLog c mode source) = [] := by
    rw [LogRecord.shown, List.map_eq_nil_iff, List.filter_eq_nil_iff]
    intro record hrecord
    have := verbosity_of_mem_queryLog hrecord
    simp only [decide_eq_true_eq]
    omega
  rw [answer, hshown]
  cases runQuery c { pretty } mode source with
  | error text => rfl
  | ok text => rfl

/-- Results go to one output and diagnostics to the other. -/
theorem answersTo_eq (c : Compiler) (pretty : Bool) (queries : List (OutputMode × String)) :
    answersTo c { pretty } queries =
      ⟨queries.filterMap fun q => (runQuery c { pretty } q.1 q.2).toOption,
        queries.filterMap fun q => Except.fault? (runQuery c { pretty } q.1 q.2)⟩ := by
  have houtput : ∀ a : Answer, (Transcript.ofAnswer a).output = a.toOption.toList := by
    intro a
    cases a with
    | error text => rfl
    | ok text => rfl
  have herrors : ∀ a : Answer, (Transcript.ofAnswer a).errors = (Except.fault? a).toList := by
    intro a
    cases a with
    | error text => rfl
    | ok text => rfl
  simp only [answersTo, answer_eq, houtput, herrors, ← List.filterMap_eq_flatMap_toList]

/-! ### From the text to the lines -/

/-- A line of bytes is the text that it is in UTF-8. -/
theorem lineText?_pieces (text : String) :
    (Text.pieces lineFeed text.toUTF8.data.toList).map lineText? =
      ((Text.pieces '\n' text.toList).map String.ofList).map some := by
  have hline : ∀ cs : List Char, lineText? (Text.utf8 cs) = some (String.ofList cs) :=
    Text.fromUTF8?_utf8
  rw [Text.toList_data_toUTF8, lineFeed, Text.pieces_utf8, List.map_map, List.map_map]
  exact List.map_congr_left fun cs _ => hline cs

theorem heard_concat_empty (lines : List String) : heard (lines ++ [""]) = heard lines := by
  induction lines with
  | nil => rfl
  | cons line lines ih =>
    by_cases hquit : line ∈ quitCommands
    · rw [List.cons_append, heard_cons_quit hquit, heard_cons_quit hquit]
    · by_cases hne : line = ""
      · rw [hne, List.cons_append, heard_cons_empty, heard_cons_empty, ih]
      · rw [List.cons_append, heard_cons hne hquit, heard_cons hne hquit, ih]

/-- What is heard of a text does not depend on how line ends are read. -/
theorem heard_trim_pieces (text : String) :
    heard (((Text.pieces '\n' text.toList).map String.ofList).map Text.trim) =
      heard (inputLines text) := by
  have htrim : ∀ ls : List (List Char), ls.map (fun cs => Text.trim (String.ofList cs)) =
      (ls.map Text.trimChars).map String.ofList := by
    intro ls
    rw [List.map_map]
    refine List.map_congr_left fun cs _ => ?_
    rw [Text.trim, String.toList_ofList, Function.comp_apply]
  rw [List.map_map, Function.comp_def, inputLines, htrim, htrim]
  rcases Text.trim_pieces_eq text.toList with h | h
  · rw [h]
  · rw [h, List.map_append]
    exact heard_concat_empty _

/-! ### Whole sessions -/

/-- The answers to the lines of a text, after the banner. -/
theorem runWith_text (c : Compiler) (style : Style) (start : OutputMode) (text : String) :
    runWith c { mode := start, style } text.toUTF8.data.toList =
      (.append ⟨[banner], []⟩ (answersTo c style (askedQueries start (heard (inputLines text)))),
        true) := by
  rw [runWith, lineText?_pieces]
  simp only [session_eq, heard_trim_pieces]

/-- **A session answers each line like a single query.** For every input that is text, a session
gives the banner and then the results of the queries in its lines, and on the other output the
diagnostics of those that fail, each in the mode that the last command before it sets. What a query
gives is what the command gives if it is called with that query alone. A query that fails adds its
diagnostic and changes nothing else: of two texts that differ in that line only, the results are the
same, and so are the diagnostics before and after it. -/
theorem session_answers_as_single_queries (c : Compiler) (pretty : Bool) (start : OutputMode) :
    let style : Style := { pretty }
    let answers (text : String) := runWith c { mode := start, style } text.toUTF8.data.toList
    let diagnostics (queries : List (OutputMode × String)) :=
      queries.filterMap fun q => Except.fault? (runQuery c style q.1 q.2)
    (∀ text,
      let asked := askedQueries start (heard (inputLines text))
      answers text =
        (⟨banner :: asked.filterMap fun q => (runQuery c style q.1 q.2).toOption,
          diagnostics asked⟩, true)) ∧
      (∀ mode source input, runWith c { query := some source, mode, style } input =
        (.ofAnswer (runQuery c style mode source), (runQuery c style mode source).toBool)) ∧
      ∀ whole without before line after diagnostic,
        inputLines whole = before ++ line :: after → inputLines without = before ++ after →
        (∀ l ∈ before, l ∉ quitCommands) → IsQuery line →
        runQuery c style (modeAfter start (heard before)) line = .error diagnostic →
        (answers whole).1.output = (answers without).1.output ∧
          ∃ later,
            (answers without).1.errors =
              diagnostics (askedQueries start (heard before)) ++ later ∧
            (answers whole).1.errors =
              diagnostics (askedQueries start (heard before)) ++ diagnostic :: later := by
  intro style answers diagnostics
  have hanswers : ∀ text, answers text =
      (⟨banner :: (askedQueries start (heard (inputLines text))).filterMap
          fun q => (runQuery c style q.1 q.2).toOption,
        diagnostics (askedQueries start (heard (inputLines text)))⟩, true) := by
    intro text
    rw [show answers text = _ from runWith_text c style start text, answersTo_eq]
    rfl
  refine ⟨hanswers, ?_, ?_⟩
  · intro mode source input
    exact Prod.ext (answer_eq c pretty mode source) rfl
  · intro whole without before line after diagnostic hwhole hwithout hbefore hquery hfails
    obtain ⟨hskipped, hasked⟩ := askedQueries_insert start hbefore hquery after
    rw [hanswers, hanswers, hwhole, hwithout, hskipped, hasked]
    simp only [diagnostics, List.filterMap_append, List.filterMap_cons, hfails]
    exact ⟨rfl, _, rfl, rfl⟩

/-- Three queries are asked here, the last two after a command, and one of these fails; the line
after the end of the session is not answered. Without the failing line the results are the same. -/
theorem session_answers_around_failing_line :
    let whole := "a = 1\r\n:tokens\n b = 'x \nNOT\n\n:q\nc = 1"
    let without := "a = 1\r\n:tokens\nNOT\n\n:q\nc = 1"
    let before := ["a = 1", ":tokens"]
    let after := ["NOT", "", ":q", "c = 1"]
    let diagnostic :=
      "error: unterminated string starting at offset 4\n  --> 1:5\n  |\n1 | b = 'x\n  |     ^"
    let answers (text : String) := runWith {} {} text.toUTF8.data.toList
    inputLines whole = before ++ "b = 'x" :: after ∧ inputLines without = before ++ after ∧
      (∀ l ∈ before, l ∉ quitCommands) ∧ IsQuery "b = 'x" ∧
      askedQueries .filter (heard (inputLines whole)) =
        [(.filter, "a = 1"), (.tokens, "b = 'x"), (.tokens, "NOT")] ∧
      (answers whole).1.output = [banner, "\x7b\"a\":1\x7d", "   0..3    Not\n   3..3    Eof"] ∧
      (answers whole).1.errors = [diagnostic] ∧
      (answers whole).1.output = (answers without).1.output := by
  intro whole without before after diagnostic answers
  have hwhole : inputLines whole = before ++ "b = 'x" :: after := by decide +kernel
  have hwithout : inputLines without = before ++ after := by decide +kernel
  have hbefore : ∀ l ∈ before, l ∉ quitCommands := by decide
  have hquery : IsQuery "b = 'x" := ⟨by decide, by decide, by decide⟩
  have hasked : askedQueries .filter (heard (inputLines whole)) =
      [(.filter, "a = 1"), (.tokens, "b = 'x"), (.tokens, "NOT")] := by decide +kernel
  have hfails : runQuery {} {} (modeAfter .filter (heard before)) "b = 'x" = .error diagnostic :=
    Except.fault?_eq_some_iff.mp (by decide +kernel)
  obtain ⟨hall, -, hfailing⟩ := session_answers_as_single_queries {} false .filter
  obtain ⟨hsame, -⟩ := hfailing whole without before "b = 'x" after diagnostic hwhole hwithout
    hbefore hquery hfails
  have hanswers : answers whole = _ := hall whole
  rw [hasked] at hanswers
  refine ⟨hwhole, hwithout, hbefore, hquery, hasked, ?_, ?_, hsame⟩
  · rw [hanswers]
    decide +kernel
  · rw [hanswers]
    decide +kernel

end Command

end QueryFilter
