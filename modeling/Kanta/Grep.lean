import Kanta.Lib.Search
import Kanta.Tty
import Kanta.Value
import Mathlib.Data.List.Sort
import Mathlib.Data.Prod.Lex

/-!
# Matching and marking of `--grep`

A term is matched against the case-folded value and located in the lower-case text, and the text is wrapped
in a background color where it is located.  Spans are offsets into the visible text, without escape
sequences.
-/

namespace Kanta

open Kanta.Lib Kanta.Lib.Ansi

/-- A span of the visible text. -/
abbrev Span := ℤ × ℤ

/-- `_MARK_BG`. -/
def markBg : Text := escText ++ "48;5;220m".toList

/-- `_UNMARK_BG`. -/
def unmarkBg : Text := escText ++ "49m".toList

/-! ### Marking spans -/

/-- `sorted(spans)`: by the starts, and by the ends among equal starts. -/
def sortedSpans (spans : List Span) : List Span := spans.insertionSort fun a b => toLex a ≤ toLex b

/-- The loop body of `_merge_spans`; `merged` holds the last span first. -/
def mergeStep (merged : List Span) (span : Span) : List Span :=
  if span.1 ≥ span.2 then merged
  else
    match merged with
    | [] => [span]
    | last :: rest =>
      if span.1 ≤ last.2 then (last.1, max span.2 last.2) :: rest else span :: last :: rest

/-- `_merge_spans`. -/
def mergeSpans (spans : List Span) : List Span := ((sortedSpans spans).foldl mergeStep []).reverse

/-- The loop of `_wrap_run`, behind position `pos`. -/
def wrapLoop (run : Text) (plainStart : ℤ) : List Span → ℕ → Text
  | [], pos => run.drop pos
  | (start, stop) :: spans, pos =>
    let s := max (start - plainStart) 0
    let e := min (stop - plainStart) run.length
    if s ≥ e ∨ e ≤ pos then wrapLoop run plainStart spans pos
    else
      (run.take s.toNat).drop pos ++ (markBg ++ (run.take e.toNat).drop s.toNat ++ unmarkBg) ++
        wrapLoop run plainStart spans e.toNat

/-- `_wrap_run`. -/
def wrapRun (run : Text) (plainStart : ℤ) (spans : List Span) : Text :=
  if run = [] then run else wrapLoop run plainStart spans 0

/-- `ANSI_RE.finditer`: the run before the first match, and each match with the run behind it. -/
def finditer : List Piece → Text × List (Sequence × Text)
  | [] => ([], [])
  | .char c :: ps => (c :: (finditer ps).1, (finditer ps).2)
  | .seq s :: ps => ([], (s, (finditer ps).1) :: (finditer ps).2)

/-- The matches and the runs behind them, each run wrapped. -/
def markLoop (spans : List Span) : List (Sequence × Text) → ℕ → Text
  | [], _ => []
  | (s, run) :: rest, plainPos =>
    s.text ++ wrapRun run plainPos spans ++ markLoop spans rest (plainPos + run.length)

/-- `mark_spans`. -/
def markSpans (styled : Text) (spans : List Span) : Text :=
  let spans := mergeSpans spans
  if spans = [] then styled
  else
    let (run, rest) := finditer (pieces styled)
    wrapRun run 0 spans ++ markLoop spans rest run.length

/-! ### Matching and finding -/

/-- Python's case tables.  `str.lower` looks at the characters around one (the final sigma), `str.casefold`
does not, and it takes a character and its lower-case form for the same. -/
structure CaseTables where
  lowerAt : Text → Char → Text → Text
  foldOf : Char → Text
  lowerAt_ne_nil : ∀ before c after, lowerAt before c after ≠ []
  fold_lowerAt : ∀ before c after, (lowerAt before c after).flatMap foldOf = foldOf c

namespace CaseTables

variable (py : CaseTables)

/-- The lower-case form of what stands behind `before`. -/
def lowerFrom (before : Text) : Text → Text
  | [] => []
  | c :: after => py.lowerAt before c after ++ lowerFrom (before ++ [c]) after

/-- `text.lower()`. -/
def lower (text : Text) : Text := py.lowerFrom [] text

/-- `text.casefold()`. -/
def casefold (text : Text) : Text := text.flatMap py.foldOf

end CaseTables

/-- `_GLOB_CHARS`. -/
def globChars : List Char := ['*', '?', '[']

/-- `any(char in needle for char in _GLOB_CHARS)`. -/
def hasGlob (needle : Text) : Bool := globChars.any fun c => needle.contains c

/-- `_ValueMark`. -/
structure ValueMark where
  needle : Text
  whole : Bool

/-- `_match_value`; `fnmatchcase` is the library's. -/
def matchValue (py : CaseTables) (fnmatchcase : Text → Text → Bool) (term : Text) (raw : Val) (text : Text) :
    Option ValueMark :=
  if term = [] then some ⟨[], false⟩
  else
    let needle := py.casefold term
    let haystack := py.casefold text
    if hasGlob needle then (if fnmatchcase haystack needle then some ⟨text, false⟩ else none)
    else
      match raw with
      | .str _ => if (Search.find needle 0 haystack).isSome then some ⟨term, false⟩ else none
      | .dict _ => none
      | .list _ => none
      | _ => if needle = haystack then some ⟨text, false⟩ else none

/-- The loop of `_find_spans`, for at most `fuel` spans: `haystack.find(needle, pos)` is where the needle
first stands at `pos` or behind it. -/
def findLoop (haystack needle : Text) : ℕ → ℕ → List Span
  | 0, _ => []
  | fuel + 1, pos =>
    match Search.find needle pos (haystack.drop pos) with
    | none => []
    | some found => (↑found, ↑(found + needle.length)) :: findLoop haystack needle fuel (found + needle.length)

/-- `_find_spans`.  Each span takes at least one character, since no lower-case form is empty. -/
def findSpans (py : CaseTables) (text needle : Text) : List Span :=
  if needle = [] then []
  else
    let haystack := py.lower (stripAnsi text)
    findLoop haystack (py.lower needle) (haystack.length + 1) 0

/-- `GrepHighlighter._apply_marks`. -/
def applyMarks (py : CaseTables) (text : Text) (marks : List ValueMark) : Text :=
  if text = [] ∨ marks = [] then text
  else
    markSpans text (marks.flatMap fun mark =>
      if mark.whole then [(0, ↑(stripAnsi text).length)] else findSpans py text mark.needle)

end Kanta
