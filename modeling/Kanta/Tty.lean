import Kanta.Diff
import Kanta.Errors
import Kanta.Lib.Ansi
import Kanta.PyInt

/-!
# Terminal strings

The line builder of `kanta.tty`.  A color is a string of SGR parameters; the builder reads it as a dict
from aspects to the parameters in force, keeps the dict of what it has emitted, and emits the difference.
A string is the list of its characters here.
-/

namespace Kanta

open Kanta.Lib Kanta.Lib.Ansi Kanta.Lib.Assoc

/-- The characters of a string. -/
abbrev Text := List Char

/-! ### Escape sequences and widths -/

/-- `ESC`. -/
def escText : Text := [esc, '[']

/-- `strip_ansi`: `ANSI_RE.sub("", text)`. -/
def stripAnsi (text : Text) : Text := visible (pieces text)

/-- `displaywidth`; `cells` is the number of columns `unicodedata` tells of a character. -/
def displaywidth (cells : Char → ℕ) (text : Text) : ℕ := (stripAnsi text).foldl (fun width c => width + cells c) 0

/-- `pad`. -/
def pad (cells : Char → ℕ) (text : Text) (width : ℤ) (align : String) : Text :=
  let missing := width - displaywidth cells text
  if missing ≤ 0 then text
  else if align = "right" then List.replicate missing.toNat ' ' ++ text
  else if align = "center" then
    let left := missing.toNat / 2
    List.replicate left ' ' ++ text ++ List.replicate (missing.toNat - left) ' '
  else text ++ List.replicate missing.toNat ' '

/-! ### Colors -/

/-- A palette: the names of colors and their SGR parameters. -/
abbrev Palette := List (String × Text)

/-- `colors`. -/
def colors : Palette :=
  [("action", "1;34".toList), ("user", "34".toList), ("target", "38;5;250".toList), ("snapshot", "97".toList),
    ("sep", "38;5;242".toList), ("path_prefix", "38;5;242".toList), ("path_final", "38;5;250".toList),
    ("add", "32".toList), ("delete", "1;31".toList), ("ellipsis", "38;5;242".toList)]

/-- `_ATTR_CLASSES`. -/
def attrClasses : List Text := [['1'], ['2'], ['3'], ['4'], ['7'], ['9']]

/-- The digits that are no decimal digits: superscripts, circled digits and the like. -/
def otherDigits : List (ℕ × ℕ) :=
  [(0xb2, 0xb3), (0xb9, 0xb9), (0x1369, 0x1371), (0x19da, 0x19da), (0x2070, 0x2070), (0x2074, 0x2079),
    (0x2080, 0x2089), (0x2460, 0x2468), (0x2474, 0x247c), (0x2488, 0x2490), (0x24ea, 0x24ea),
    (0x24f5, 0x24fd), (0x24ff, 0x24ff), (0x2776, 0x277e), (0x2780, 0x2788), (0x278a, 0x2792),
    (0x10a40, 0x10a43), (0x10e60, 0x10e68), (0x11052, 0x1105a), (0x1f100, 0x1f10a)]

/-- `token.isdigit()`. -/
def isdigit (token : Text) : Bool :=
  !token.isEmpty && token.all fun c =>
    (decimalValue c).isSome || otherDigits.any fun r => r.1 ≤ c.toNat && c.toNat ≤ r.2

/-- `token.isdigit() and (a <= int(token) <= b or c <= int(token) <= d)`. -/
def isBetween (token : Text) (a b c d : ℤ) : Except Exc Bool :=
  if isdigit token then
    match pyInt (String.ofList token) with
    | none => .error .valueError
    | some n => .ok (decide (a ≤ n ∧ n ≤ b ∨ c ≤ n ∧ n ≤ d))
  else .ok false

/-- The state of `_parse_sgr`: a dict from aspects to groups of parameters. -/
abbrev SgrState := List (String × Text)

/-- `";".join(tokens)`. -/
def joinParams (tokens : List Text) : Text := [';'].intercalate tokens

/-- The key of a token that is no color. -/
def attrKey (token : Text) : String :=
  if token ∈ attrClasses then String.ofList token else "other:" ++ String.ofList token

/-- One token without arguments. -/
def parseToken (token : Text) (state : SgrState) : Except Exc SgrState := do
  let foreground ← isBetween token 30 37 90 97
  let background ← isBetween token 40 47 100 107
  .ok (if foreground then put "fg" token state
    else if background then put "bg" token state
    else put (attrKey token) token state)

/-- The loop of `_parse_sgr`, behind the `skip` tokens the last step has taken. -/
def parseSgrLoop : ℕ → List Text → SgrState → Except Exc SgrState
  | _, [], state => .ok state
  | skip + 1, _ :: tokens, state => parseSgrLoop skip tokens state
  | 0, token :: tokens, state =>
    if token = "0".toList then parseSgrLoop 0 tokens []
    else if token = "38".toList ∨ token = "48".toList then
      let cls := if token = "38".toList then "fg" else "bg"
      if tokens.head? = some "5".toList then
        parseSgrLoop 2 tokens (put cls (joinParams (token :: tokens.take 2)) state)
      else if tokens.head? = some "2".toList then
        -- `tokens[i : i + 4]` ends before the last component
        parseSgrLoop 3 tokens (put cls (joinParams (token :: tokens.take 3)) state)
      else parseSgrLoop 0 tokens (put cls token state)
    else do
      let state ← parseToken token state
      parseSgrLoop 0 tokens state

/-- `_parse_sgr`. -/
def parseSgr (spec : Text) : Except Exc SgrState := parseSgrLoop 0 (spec.splitOn ';') []

/-- `a == b` on dicts. -/
def sameDict (a b : SgrState) : Bool := a.length = b.length && a.all fun q => b.lookup q.1 = some q.2

/-- `f"{ESC}{params}m"`. -/
def sgrText (params : Text) : Text := escText ++ params ++ ['m']

/-- `_sgr_transition`. -/
def sgrTransition (current new : SgrState) : Text :=
  if sameDict current new then []
  else if new = [] then (if current ≠ [] then sgrText ['0'] else [])
  else if current = [] then sgrText (joinParams (new.map Prod.snd))
  else if (keys current).any fun cls => cls ∉ keys new then
    sgrText (['0', ';'] ++ joinParams (new.map Prod.snd))
  else
    let changed := (new.filter fun q => current.lookup q.1 ≠ some q.2).map Prod.snd
    if changed ≠ [] then sgrText (joinParams changed) else []

/-! ### Lines -/

/-- `Line`. -/
structure Line where
  palette : Palette
  parts : List Text
  active : SgrState
  pending : SgrState

namespace Line

/-- `Line(palette)`. -/
def new (palette : Palette) : Line where
  palette := palette
  parts := []
  active := []
  pending := []

/-- `line.<name>`. -/
def color (line : Line) (name : String) : Except Exc Line :=
  if startsWith "_" name then .error (.attributeError name)
  else
    match line.palette.lookup name with
    | none => .error (.attributeError ("unknown color: '" ++ name ++ "'"))
    | some spec => do
      let pending ← parseSgr spec
      .ok { line with pending := pending }

/-- What a call appends. -/
def callText (cells : Char → ℕ) (args : List Text) (width : ℤ) (align : String) : Text :=
  let text := args.flatten
  if width ≠ 0 then pad cells text width align else text

/-- `line(*args, width=width, align=align)`; `str` has been applied to the arguments. -/
def call (cells : Char → ℕ) (line : Line) (args : List Text) (width : ℤ) (align : String) : Line :=
  let text := callText cells args width align
  if sameDict line.pending line.active then { line with parts := line.parts ++ [text], pending := [] }
  else
    { line with
      parts := line.parts ++ [sgrTransition line.active line.pending, text]
      active := line.pending
      pending := [] }

/-- `str(line)`. -/
def str (line : Line) : Text :=
  if line.active ≠ [] then line.parts.flatten ++ sgrText ['0'] else line.parts.flatten

/-- What is done with a line. -/
inductive Op where
  | color (name : String)
  | call (args : List Text) (width : ℤ) (align : String)

def step (cells : Char → ℕ) (line : Line) : Op → Except Exc Line
  | .color name => line.color name
  | .call args width align => .ok (line.call cells args width align)

/-- One operation after the other. -/
def run (cells : Char → ℕ) (line : Line) (ops : List Op) : Except Exc Line := ops.foldlM (step cells) line

end Line

end Kanta
