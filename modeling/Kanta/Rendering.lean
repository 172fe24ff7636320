import Kanta.Colored
import Kanta.Evaluate
import Kanta.Lib.Agree

/-!
# Rendering a change

The formatters of `kanta.logging` write a record as a header and lines of paths and values, and let a highlighter
wrap what has been matched.  A highlighter that puts in marks only changes nothing else: each line is the line without
it, with the marks of a background between its characters (`agree_formatDiff`, `agree_formatActionHeader`).
-/

namespace Kanta

open Kanta.Lib Kanta.Lib.Ansi Kanta.Lib.Sgr

/-! ### The formatters -/

/-- What the formatters work with: the widths of characters, the palette, the library, and the `logfmt` of the
application. -/
structure Renderer where
  cells : Char → ℕ
  palette : Palette
  lib : Library
  logfmt : Option Logfmt

/-- `highlight=None`: nothing is wrapped. -/
def Highlight.off : Highlight where
  path text _ := text
  value text _ := text
  delete text _ := text
  field text _ := text

/-- `_join_path`. -/
def joinPath (path key : String) : String := if path = "" then key else path ++ "." ++ key

/-- `_UNSAFE_CHARS`: control characters and bidirectional overrides. -/
def isControl (c : Char) : Bool :=
  c.toNat ≤ 0x1f || (0x7f ≤ c.toNat && c.toNat ≤ 0x9f) || c.toNat = 0x200e || c.toNat = 0x200f ||
    (0x202a ≤ c.toNat && c.toNat ≤ 0x202e) || (0x2066 ≤ c.toNat && c.toNat ≤ 0x2069)

/-- `v is True`. -/
def isTrue : Val → Bool
  | .bool b => b
  | _ => false

/-- A call of a line without a width. -/
def Line.words (args : List Text) : Line.Op := .call args 0 "left"

/-- A call in a color. -/
def Line.wordsIn (color : String) (args : List Text) : List Line.Op := [.color color, words args]

namespace Renderer

open Line (words wordsIn)

variable (r : Renderer)

/-- `str` of a line. -/
def render (ops : List Line.Op) : Except Exc Text := Line.str <$> (Line.new r.palette).run r.cells ops

/-- `_dim_ellipsis`. -/
def dimEllipsis : Except Exc Text := r.render (wordsIn "ellipsis" [['…']])

/-- `logfmt(value, path)`, where there is one. -/
def resolve (value : Val) (path : String) : Option Text := r.logfmt.bind fun logfmt => logfmt value path

/-- `_format_value` of a string, which is shortened to `maxLen` characters. -/
def formatString (s : String) (maxLen : ℕ) : Except Exc Text :=
  let text := s.toList.filter fun c => !isControl c
  if maxLen < text.length then do
    let ellipsis ← r.dimEllipsis
    .ok (text.take (maxLen - 1) ++ ellipsis)
  else .ok text

variable (hl : Highlight)

/-- `_format_value` of a key: as of a value, but without its highlights. -/
def formatKey (key keyPath : String) : Except Exc Text :=
  match r.resolve (.str key) keyPath with
  | some resolved => .ok resolved
  | none => r.formatString key 30

/-- `keyed`. -/
def keyed (key keyPath : String) : Except Exc Text := do
  let display ← r.formatKey key keyPath
  .ok (hl.path display keyPath)

mutual
/-- `_format_value`. -/
def formatValue (path : String) (maxLen : ℕ) (value : Val) : Except Exc Text :=
  match r.resolve value path with
  | some resolved => .ok (hl.value resolved path)
  | none =>
    match value with
    | .null => .ok (hl.value "null".toList path)
    | .bool b => .ok (hl.value (if b then "true" else "false").toList path)
    | .int n => .ok (hl.value (r.lib.repr (.int n)).toList path)
    | .float q => .ok (hl.value (r.lib.repr (.float q)).toList path)
    | .str s => do
      let text ← r.formatString s maxLen
      .ok (hl.value text path)
    | .dict kvs =>
      if kvs.isEmpty then .ok "{}".toList
      else do
        let parts ← formatItems path (kvs.all fun item => isTrue item.2) kvs
        .ok ("\x7b".toList ++ ", ".toList.intercalate parts ++ "\x7d".toList)
    | .list xs =>
      if xs.isEmpty then .ok "[]".toList
      else do
        let parts ← formatElements path 0 xs
        .ok ("[".toList ++ ", ".toList.intercalate parts ++ "]".toList)
/-- The loop of `_format_value` over a dict; when every value is `True`, only the keys are shown. -/
def formatItems (path : String) (allTrue : Bool) : List (String × Val) → Except Exc (List Text)
  | [] => .ok []
  | (k, v) :: rest => do
    let keyDisplay ← r.keyed hl k (joinPath path k)
    let part ←
      if allTrue then .ok keyDisplay
      else do
        let valueDisplay ← formatValue (joinPath path k) 30 v
        .ok (keyDisplay ++ ": ".toList ++ valueDisplay)
    let parts ← formatItems path allTrue rest
    .ok (part :: parts)
/-- The loop of `_format_value` over a list, behind `index` elements. -/
def formatElements (path : String) (index : ℕ) : List Val → Except Exc (List Text)
  | [] => .ok []
  | v :: rest => do
    let part ← formatValue (joinPath path (toString index)) 30 v
    let parts ← formatElements path (index + 1) rest
    .ok (part :: parts)
end

/-- `_format_path_components`. -/
def formatPathComponents (path : List String) : List Text :=
  path.zipIdx.map fun (component, i) =>
    let prefixPath := dotted (path.take (i + 1))
    hl.path ((r.resolve (.str component) prefixPath).getD component.toList) prefixPath

/-- The components in front of the last one. -/
def prefixOps (components : List Text) : List Line.Op :=
  if 1 < components.length then wordsIn "path_prefix" [['.'].intercalate components.dropLast ++ ['.']] else []

/-- `_format_path`. -/
def formatPath (path : List String) (finalColor : String) : Except Exc Text :=
  let components := r.formatPathComponents hl path
  match components.getLast? with
  | none => .ok []
  | some final => r.render (prefixOps components ++ wordsIn finalColor [final])

/-- A path and its new value. -/
def assignment (pathStr valueStr : Text) : Except Exc (List Text) := do
  let line ← r.render (words ["  ".toList, pathStr, [' ']] :: wordsIn "sep" ["=".toList] ++ [words [[' '], valueStr]])
  .ok [line]

/-- The lines of an added dict: one for its path, and one for each item. -/
def formatAdded (path : List String) (pathStr : Text) (items : List (String × Val)) : Except Exc (List Text) := do
  let first ← r.render (words ["  ".toList, pathStr, [' ']] :: wordsIn "sep" ["=".toList])
  let basePath := dotted path
  let keys ← items.mapM fun item => r.keyed hl item.1 (joinPath basePath item.1)
  let fieldWidth := max ((keys.map (displaywidth r.cells)).foldl max 0) 12
  let valueWidth := max (80 - 4 - fieldWidth - 2) 20
  let values ← items.mapM fun item => r.formatValue hl (joinPath basePath item.1) valueWidth item.2
  let lines ← (keys.zip values).mapM fun (k, v) =>
    r.render (words ["    ".toList, k] :: wordsIn "sep" [":".toList] ++
      [words [List.replicate (fieldWidth - displaywidth r.cells k) ' ', [' '], v]])
  .ok (first :: lines)

/-- `_format_change_lines`. -/
def formatChangeLines (change : LoggedChange) : Except Exc (List Text) :=
  match change.type with
  | .delete =>
    let components := r.formatPathComponents hl change.path
    let marker := hl.delete ['✗'] (dotted change.path)
    match components.getLast? with
    | none => .error .indexError
    | some final => do
      let line ← r.render (words ["  ".toList] :: prefixOps components ++ wordsIn "delete" [final, [' '], marker])
      .ok [line]
  | .add => do
    let pathStr ← r.formatPath hl change.path "add"
    match change.value with
    | .dict (item :: items) => r.formatAdded hl change.path pathStr (item :: items)
    | value => do
      let valueStr ← r.formatValue hl (dotted change.path) 60 value
      r.assignment pathStr valueStr
  | .update => do
    let valueStr ← r.formatValue hl (dotted change.path) 60 change.value
    let pathStr ← r.formatPath hl change.path "path_final"
    r.assignment pathStr valueStr

/-- `format_diff`. -/
def formatDiff (diff previous : Val) : Except Exc (List Text) := do
  let changes ← collectChanges r.lib.repr previous (unmarshal diff) [] []
  let lines ← changes.mapM (r.formatChangeLines hl)
  .ok lines.flatten

/-- `format_action_header`; `str` has been applied to `extra`. -/
def formatActionHeader (action : Text) (user extra : Option Text) : Except Exc Text :=
  let extraOps :=
    match extra with
    | some extra => if extra ≠ [] then words [" ".toList] :: wordsIn "target" [extra] else []
    | none => []
  let userOps :=
    match user with
    | some user => if user ≠ [] then words [" by ".toList] :: wordsIn "user" [hl.field user "user"] else []
    | none => []
  r.render (wordsIn "action" [hl.field action "action"] ++ extraOps ++ userOps)

end Renderer

/-! ### Texts with marks -/

/-- The second text is the first with marks in it; what stands behind them is read by itself. -/
structure MarkedUp (text text' : Text) : Prop where
  closed : Closed text
  closed' : Closed text'
  inserted : Inserted IsMark (pieces text) (pieces text')

namespace MarkedUp

variable {text text' more more' : Text}

lemma refl (h : Closed text) : MarkedUp text text := ⟨h, h, .refl _⟩

lemma of_notMem (h : esc ∉ text) : MarkedUp text text := refl (closed_of_notMem h)

lemma append (h : MarkedUp text text') (hmore : MarkedUp more more') : MarkedUp (text ++ more) (text' ++ more') := by
  refine ⟨h.closed.append hmore.closed, h.closed'.append hmore.closed', ?_⟩
  rw [h.closed, h.closed']
  exact h.inserted.append hmore.inserted

/-- What is seen stays. -/
lemma stripAnsi_eq (h : MarkedUp text text') : stripAnsi text' = stripAnsi text := h.inserted.visible_eq

lemma displaywidth_eq (h : MarkedUp text text') (cells : Char → ℕ) :
    displaywidth cells text' = displaywidth cells text := by rw [displaywidth, displaywidth, h.stripAnsi_eq]

lemma flatten {texts texts' : List Text} (h : List.Forall₂ MarkedUp texts texts') :
    MarkedUp texts.flatten texts'.flatten := by
  induction h with
  | nil => exact refl closed_nil
  | cons hfirst _ ih => exact hfirst.append ih

lemma intercalate {sep : Text} (hsep : esc ∉ sep) {texts texts' : List Text} (h : List.Forall₂ MarkedUp texts texts') :
    MarkedUp (sep.intercalate texts) (sep.intercalate texts') := by
  induction h with
  | nil => exact refl closed_nil
  | cons hfirst hrest ih =>
    cases hrest with
    | nil => simpa using hfirst
    | cons =>
      rw [List.intercalate_cons_cons, List.intercalate_cons_cons]
      exact (hfirst.append (of_notMem hsep)).append ih

end MarkedUp

/-! ### What `mark_spans` puts in -/

section

variable {spans : List Span} {run styled : Text}

lemma closed_wrapLoop (h : Closed run) (plainStart : ℤ) (spans : List Span) (pos : ℕ) :
    Closed (wrapLoop run plainStart spans pos) := by
  induction spans generalizing pos with
  | nil =>
    rw [wrapLoop]
    exact Closed.of_append (show Closed (run.take pos ++ run.drop pos) by rwa [List.take_append_drop])
  | cons q spans ih =>
    rw [wrapLoop]
    split
    · exact ih pos
    · rw [← List.append_assoc, List.append_assoc _ unmarkBg, ← text_unmarkSeq]
      exact (ih _).behind _ unmarkSeq

lemma closed_wrapRun (h : Closed run) (plainStart : ℤ) : Closed (wrapRun run plainStart spans) := by
  rw [wrapRun]
  split
  · exact h
  · exact closed_wrapLoop h plainStart spans 0

lemma closed_markLoop {rest : List (Sequence × Text)} (hne : rest ≠ [])
    (h : Closed (rest.flatMap fun q => q.1.text ++ q.2)) (front : Text) (pos : ℕ) :
    Closed (front ++ markLoop spans rest pos) := by
  induction rest generalizing front pos with
  | nil => exact (hne rfl).elim
  | cons q rest ih =>
    rw [List.flatMap_cons] at h
    rw [markLoop]
    cases rest with
    | nil =>
      rw [List.flatMap_nil, List.append_nil] at h
      rw [markLoop, List.append_nil]
      exact (closed_wrapRun h.of_append pos).behind front q.1
    | cons q' rest =>
      rw [← List.append_assoc]
      exact ih (List.cons_ne_nil _ _) h.of_append _ _

lemma inserted_markLoop {rest : List (Sequence × Text)} (hsep : Separated spans) (hplain : ∀ q ∈ rest, Plain q.2)
    (pos : ℕ) :
    Inserted IsMark (rest.flatMap fun q => .seq q.1 :: q.2.map .char) (pieces (markLoop spans rest pos)) := by
  induction rest generalizing pos with
  | nil => exact .nil
  | cons q rest ih =>
    obtain ⟨hfirst, hrest⟩ := List.forall_mem_cons.mp hplain
    rw [markLoop, List.append_assoc, pieces_seq, pieces_append _ (detached_markLoop _ _ _), List.flatMap_cons]
    exact .keep _ ((paints_wrapRun hfirst hsep pos).inserted.append (ih hrest _))

/-- **`mark_spans` marks up**, whatever sequences the text has. -/
lemma markedUp_markSpans (h : Closed styled) (spans : List Span) : MarkedUp styled (markSpans styled spans) := by
  have hsep := (mergeSpans_spec spans).1
  obtain ⟨hfirst, hrest⟩ := plain_finditer styled
  have hcut : styled =
      (finditer (pieces styled)).1 ++ (finditer (pieces styled)).2.flatMap fun q => q.1.text ++ q.2 := by
    have htext := congrArg (List.flatMap Piece.text) (pieces_finditer (pieces styled))
    rw [flatMap_text_pieces, List.flatMap_append, List.flatMap_map, List.flatMap_assoc] at htext
    refine htext.trans (congrArg₂ _ (List.flatMap_singleton' _) (List.flatMap_congr fun q _ => ?_))
    rw [List.flatMap_cons, List.flatMap_map]
    exact congrArg _ (List.flatMap_singleton' _)
  rw [markSpans]
  by_cases hnone : mergeSpans spans = []
  · exact (if_pos hnone).symm ▸ .refl h
  · show MarkedUp styled (if mergeSpans spans = [] then _ else
      wrapRun (finditer (pieces styled)).1 0 (mergeSpans spans) ++
        markLoop (mergeSpans spans) (finditer (pieces styled)).2 (finditer (pieces styled)).1.length)
    rw [if_neg hnone]
    refine ⟨h, ?_, ?_⟩
    · rw [hcut] at h
      rcases hloop : (finditer (pieces styled)).2 with _ | ⟨q, rest⟩
      · rw [hloop, List.flatMap_nil, List.append_nil] at h
        rw [markLoop, List.append_nil]
        exact closed_wrapRun h 0
      · rw [hloop] at h
        exact closed_markLoop (List.cons_ne_nil _ _) h.of_append _ _
    · rw [pieces_append _ (detached_markLoop _ _ _)]
      have hinserted := (paints_wrapRun hfirst hsep 0).inserted.append
        (inserted_markLoop hsep hrest (finditer (pieces styled)).1.length)
      rwa [← pieces_finditer] at hinserted

end

/-! ### Lines -/

namespace Line

/-- The same is done, with marked up words. -/
inductive Op.Alike : Op → Op → Prop
  | color (name : String) : Op.Alike (.color name) (.color name)
  | words {args args' : List Text} : List.Forall₂ MarkedUp args args' → Op.Alike (words args) (words args')

/-- The lines have the same colors, and marked up words. -/
structure Alike (palette : Palette) (line line' : Line) : Prop where
  palette_eq : line.palette = palette
  palette_eq' : line'.palette = palette
  state : ∃ active pending, line.active = dictOf active ∧ line'.active = dictOf active ∧
    line.pending = dictOf pending ∧ line'.pending = dictOf pending ∧ InForce active ∧ InForce pending
  parts : MarkedUp line.parts.flatten line'.parts.flatten

variable {palette : Palette} {cells : Char → ℕ} {line line' : Line} {op op' : Op} {ops ops' : List Op}

lemma Alike.color (hpalette : ∀ q ∈ palette, IsPlainSpec q.2) (h : line.Alike palette line') (name : String) :
    Agree (Alike palette) (line.color name) (line'.color name) := by
  obtain ⟨rfl, hsame, ⟨active, pending, hactive, hactive', -, -, hforce, -⟩, hparts⟩ := h
  rw [Line.color, Line.color, hsame]
  split
  · exact .error _
  · split
    · exact .error _
    · next spec hspec =>
      obtain ⟨items, hitems, hrgb⟩ := hpalette _ (Assoc.mem_of_lookup hspec)
      rw [parseSgr_eq hitems hrgb]
      exact .ok ⟨rfl, rfl, ⟨active, _, hactive, hactive', rfl, rfl, hforce, inForce_items hitems.valid inForce_empty⟩,
        hparts⟩

lemma Alike.words (h : line.Alike palette line') {args args' : List Text} (hargs : List.Forall₂ MarkedUp args args') :
    (line.call cells args 0 "left").Alike palette (line'.call cells args' 0 "left") := by
  obtain ⟨hpal, hpal', ⟨active, pending, hactive, hactive', hpending, hpending', hforce, hforce'⟩, hparts⟩ := h
  have htext : MarkedUp (callText cells args 0 "left") (callText cells args' 0 "left") := .flatten hargs
  rw [Line.call, Line.call, hactive, hactive', hpending, hpending']
  split
  · refine ⟨hpal, hpal', ⟨active, [], rfl, rfl, rfl, rfl, hforce, inForce_empty⟩, ?_⟩
    rw [List.flatten_append, List.flatten_append, List.flatten_singleton, List.flatten_singleton]
    exact hparts.append htext
  · refine ⟨hpal, hpal', ⟨pending, [], rfl, rfl, rfl, rfl, hforce', inForce_empty⟩, ?_⟩
    have hmove := MarkedUp.refl (displays_transition hforce hforce').closed
    have hmore := hparts.append (hmove.append htext)
    simpa using hmore

lemma Alike.str (h : line.Alike palette line') : MarkedUp line.str line'.str := by
  obtain ⟨-, -, ⟨active, pending, hactive, hactive', -⟩, hparts⟩ := h
  rw [Line.str, Line.str, hactive, hactive']
  split
  · exact hparts.append (.refl (displays_reset (inForce [])).closed)
  · exact hparts

end Line

/-- **A line with marked up words is marked up.** -/
lemma agree_render {r : Renderer} (hpalette : ∀ q ∈ r.palette, IsPlainSpec q.2) {ops ops' : List Line.Op}
    (h : List.Forall₂ Line.Op.Alike ops ops') : Agree MarkedUp (r.render ops) (r.render ops') := by
  have hnew : (Line.new r.palette).Alike r.palette (Line.new r.palette) :=
    ⟨rfl, rfl, ⟨[], [], rfl, rfl, rfl, rfl, Line.inForce_empty, Line.inForce_empty⟩, .refl closed_nil⟩
  refine Agree.map (Agree.foldlM h (fun line line' op op' hline hop => ?_) hnew) fun _ _ hline => hline.str
  cases hop with
  | color name => exact hline.color hpalette name
  | words hargs => exact .ok (hline.words hargs)

/-! ### The formatters with a highlighter -/

/-- The colors are no 24-bit colors, and what `logfmt` and `str` of a number return is read to its end. -/
structure Renderer.Sound (r : Renderer) : Prop where
  palette : ∀ q ∈ r.palette, IsPlainSpec q.2
  logfmt : ∀ v path text, r.resolve v path = some text → Closed text
  repr : ∀ v, esc ∉ (r.lib.repr v).toList

/-- The highlighter puts in marks only. -/
structure Highlight.OnlyMarks (hl : Highlight) : Prop where
  path : ∀ text path, Closed text → MarkedUp text (hl.path text path)
  value : ∀ text path, Closed text → MarkedUp text (hl.value text path)
  delete : ∀ text path, Closed text → MarkedUp text (hl.delete text path)
  field : ∀ text field, Closed text → MarkedUp text (hl.field text field)

/-- **A `GrepHighlighter` puts in marks only.** -/
lemma GrepHighlighter.onlyMarks (lib : Library) (h : GrepHighlighter) : (h.hook lib).OnlyMarks := by
  have hmarks : ∀ text marks, Closed text → MarkedUp text (applyMarks lib.py text marks) := by
    intro text marks hc
    rw [applyMarks]
    split
    · exact .refl hc
    · exact markedUp_markSpans hc _
  have hwhole : ∀ (p : Prop) [Decidable p] text, Closed text → MarkedUp text (if p then markWhole text else text) := by
    intro p _ text hc
    split
    · exact markedUp_markSpans hc _
    · exact .refl hc
  exact ⟨fun text path => hwhole _ text, fun text path => hmarks text _, fun text path => hwhole _ text,
    fun text field => hmarks text _⟩

section

variable {r : Renderer} {hl : Highlight} {path : List String} {components components' : List Text}

open Line (wordsIn)

lemma alike_wordsIn (color : String) {args args' : List Text} (h : List.Forall₂ MarkedUp args args') :
    List.Forall₂ Line.Op.Alike (wordsIn color args) (wordsIn color args') :=
  .cons (.color color) (.cons (.words h) .nil)

lemma closed_formatString (hr : r.Sound) {s : String} {maxLen : ℕ} {text : Text}
    (h : r.formatString s maxLen = .ok text) : Closed text := by
  have hplain : ∀ cs : List Char, esc ∉ cs.filter fun c => !isControl c := by
    intro cs hm
    exact absurd (List.of_mem_filter hm) (by decide)
  have hself : Agree MarkedUp r.dimEllipsis r.dimEllipsis :=
    agree_render hr.palette (alike_wordsIn _ (.cons (.of_notMem (by decide)) .nil))
  rw [Renderer.formatString] at h
  split at h
  · obtain ⟨ellipsis, hellipsis, htext⟩ := bind_eq_ok.mp h
    obtain rfl := Except.ok.inj htext
    rw [hellipsis] at hself
    obtain ⟨_, -, hmarked⟩ := hself.exists_ok
    exact (closed_of_notMem fun hm => hplain _ (List.mem_of_mem_take hm)).append hmarked.closed
  · obtain rfl := Except.ok.inj h
    exact closed_of_notMem (hplain _)

/-- What is computed once and then wrapped. -/
lemma agree_wrapped {x : Except Exc Text} (hx : ∀ text, x = .ok text → Closed text) {wrap : Text → Text}
    (hwrap : ∀ text, Closed text → MarkedUp text (wrap text)) :
    Agree MarkedUp (x >>= fun text => .ok text) (x >>= fun text => .ok (wrap text)) := by
  cases x with
  | ok text => exact .ok (hwrap text (hx text rfl))
  | error e => exact .error e

lemma agree_keyed (hr : r.Sound) (hhl : hl.OnlyMarks) (key keyPath : String) :
    Agree MarkedUp (r.keyed .off key keyPath) (r.keyed hl key keyPath) := by
  refine agree_wrapped (fun text h => ?_) fun text => hhl.path text keyPath
  rw [Renderer.formatKey] at h
  cases hresolve : r.resolve (.str key) keyPath with
  | some resolved =>
    rw [hresolve] at h
    obtain rfl := Except.ok.inj h
    exact hr.logfmt _ _ _ hresolve
  | none =>
    rw [hresolve] at h
    exact closed_formatString hr h

lemma formatValue_resolved {v : Val} {path : String} {text : Text} (h : r.resolve v path = some text) (maxLen : ℕ) :
    r.formatValue hl path maxLen v = .ok (hl.value text path) := by
  cases v <;> rw [Renderer.formatValue, h]

/-- The same parts between brackets. -/
lemma markedUp_bracketed {parts parts' : List Text} (h : List.Forall₂ MarkedUp parts parts') {front back : Text}
    (hfront : esc ∉ front) (hback : esc ∉ back) :
    MarkedUp (front ++ ", ".toList.intercalate parts ++ back) (front ++ ", ".toList.intercalate parts' ++ back) :=
  ((MarkedUp.of_notMem hfront).append (.intercalate (by decide) h)).append (.of_notMem hback)

/-- **A value.** -/
lemma agree_formatValue (hr : r.Sound) (hhl : hl.OnlyMarks) (path : String) (maxLen : ℕ) (v : Val) :
    Agree MarkedUp (r.formatValue .off path maxLen v) (r.formatValue hl path maxLen v) := by
  have hscalar : ∀ (path : String) (text : Text), esc ∉ text →
      Agree MarkedUp (.ok text : Except Exc Text) (.ok (hl.value text path)) :=
    fun path text h => .ok (hhl.value text path (closed_of_notMem h))
  have hstep : ∀ (v : Val) (path : String) (maxLen : ℕ), (r.resolve v path = none →
      Agree MarkedUp (r.formatValue .off path maxLen v) (r.formatValue hl path maxLen v)) →
        Agree MarkedUp (r.formatValue .off path maxLen v) (r.formatValue hl path maxLen v) := by
    intro v path maxLen h
    cases hresolve : r.resolve v path with
    | some text =>
      rw [formatValue_resolved hresolve, formatValue_resolved hresolve]
      exact .ok (hhl.value text path (hr.logfmt _ _ _ hresolve))
    | none => exact h hresolve
  induction v using Val.ind generalizing path maxLen with
  | null =>
    refine hstep _ _ _ fun hresolve => ?_
    rw [Renderer.formatValue, Renderer.formatValue, hresolve]
    exact hscalar path "null".toList (by decide)
  | bool b =>
    refine hstep _ _ _ fun hresolve => ?_
    rw [Renderer.formatValue, Renderer.formatValue, hresolve]
    exact hscalar path (if b then "true" else "false").toList (by cases b <;> decide)
  | int n =>
    refine hstep _ _ _ fun hresolve => ?_
    rw [Renderer.formatValue, Renderer.formatValue, hresolve]
    exact hscalar path _ (hr.repr _)
  | float q =>
    refine hstep _ _ _ fun hresolve => ?_
    rw [Renderer.formatValue, Renderer.formatValue, hresolve]
    exact hscalar path _ (hr.repr _)
  | str s =>
    refine hstep _ _ _ fun hresolve => ?_
    rw [Renderer.formatValue, Renderer.formatValue, hresolve]
    exact agree_wrapped (fun text h => closed_formatString hr h) fun text => hhl.value text path
  | list xs ih =>
    refine hstep _ _ _ fun hresolve => ?_
    have helements : ∀ (items : List Val) (index : ℕ), (∀ x ∈ items, x ∈ xs) →
        Agree (List.Forall₂ MarkedUp) (r.formatElements .off path index items)
          (r.formatElements hl path index items) := by
      intro items
      induction items with
      | nil =>
        intro index _
        rw [Renderer.formatElements, Renderer.formatElements]
        exact .ok .nil
      | cons x items ihitems =>
        intro index hsub
        obtain ⟨hx, hsub⟩ := List.forall_mem_cons.mp hsub
        rw [Renderer.formatElements, Renderer.formatElements]
        exact (ih x hx _ _).bind fun _ _ hpart => (ihitems _ hsub).bind fun _ _ hparts => .ok (.cons hpart hparts)
    rw [Renderer.formatValue, Renderer.formatValue, hresolve]
    dsimp only
    split
    · exact .ok (.of_notMem (by decide))
    · exact (helements xs 0 fun _ hm => hm).bind fun _ _ hparts =>
        .ok (markedUp_bracketed hparts (by decide) (by decide))
  | dict kvs ih =>
    refine hstep _ _ _ fun hresolve => ?_
    have hitems : ∀ (allTrue : Bool) (items : List (String × Val)), (∀ item ∈ items, item ∈ kvs) →
        Agree (List.Forall₂ MarkedUp) (r.formatItems .off path allTrue items)
          (r.formatItems hl path allTrue items) := by
      intro allTrue items
      induction items with
      | nil =>
        intro _
        rw [Renderer.formatItems, Renderer.formatItems]
        exact .ok .nil
      | cons item items ihitems =>
        intro hsub
        obtain ⟨k, v⟩ := item
        obtain ⟨hm, hsub⟩ := List.forall_mem_cons.mp hsub
        rw [Renderer.formatItems, Renderer.formatItems]
        refine (agree_keyed hr hhl k _).bind fun key key' hkey => ?_
        cases allTrue with
        | true => exact (ihitems hsub).bind fun _ _ hparts => .ok (.cons hkey hparts)
        | false =>
          refine (ih (k, v) hm _ _).bind fun value value' hvalue => ?_
          refine (ihitems hsub).bind fun _ _ hparts => .ok (.cons ?_ hparts)
          exact (hkey.append (.of_notMem (by decide))).append hvalue
    rw [Renderer.formatValue, Renderer.formatValue, hresolve]
    dsimp only
    split
    · exact .ok (.of_notMem (by decide))
    · exact (hitems _ kvs fun _ hm => hm).bind fun _ _ hparts =>
        .ok (markedUp_bracketed hparts (by decide) (by decide))

/-! ### Paths and changes -/

/-- The components of a path. -/
lemma forall₂_components (hr : r.Sound) (hhl : hl.OnlyMarks) (hpath : ∀ k ∈ path, esc ∉ k.toList) :
    List.Forall₂ MarkedUp (r.formatPathComponents .off path) (r.formatPathComponents hl path) := by
  rw [Renderer.formatPathComponents, Renderer.formatPathComponents, List.forall₂_map_left_iff,
    List.forall₂_map_right_iff, List.forall₂_same]
  rintro ⟨component, i⟩ hm
  have hdisplay : Closed ((r.resolve (.str component) (dotted (path.take (i + 1)))).getD component.toList) := by
    cases hresolve : r.resolve (.str component) (dotted (path.take (i + 1))) with
    | some text => exact hr.logfmt _ _ _ hresolve
    | none => exact closed_of_notMem (hpath component (List.fst_mem_of_mem_zipIdx hm))
  exact hhl.path _ _ hdisplay

/-- The last of some texts, if there is one. -/
lemma getLast_markedUp (h : List.Forall₂ MarkedUp components components') :
    components.getLast? = none ∧ components'.getLast? = none ∨
      ∃ final final', components.getLast? = some final ∧ components'.getLast? = some final' ∧
        MarkedUp final final' := by
  have hreverse := List.forall₂_reverse_iff.mpr h
  rw [List.getLast?_eq_head?_reverse, List.getLast?_eq_head?_reverse]
  generalize components.reverse = texts, components'.reverse = texts' at hreverse
  cases hreverse with
  | nil => exact Or.inl ⟨rfl, rfl⟩
  | cons hfinal _ => exact Or.inr ⟨_, _, rfl, rfl, hfinal⟩

lemma alike_prefixOps (h : List.Forall₂ MarkedUp components components') :
    List.Forall₂ Line.Op.Alike (Renderer.prefixOps components) (Renderer.prefixOps components') := by
  have hdropped : List.Forall₂ MarkedUp components.dropLast components'.dropLast := by
    rw [List.dropLast_eq_take, List.dropLast_eq_take, h.length_eq]
    exact List.forall₂_take _ h
  rw [Renderer.prefixOps, Renderer.prefixOps, h.length_eq]
  split
  · exact alike_wordsIn _ (.cons ((MarkedUp.intercalate (by decide) hdropped).append (.of_notMem (by decide))) .nil)
  · exact .nil

lemma agree_formatPath (hr : r.Sound) (hhl : hl.OnlyMarks) (hpath : ∀ k ∈ path, esc ∉ k.toList) (color : String) :
    Agree MarkedUp (r.formatPath .off path color) (r.formatPath hl path color) := by
  have hcomponents := forall₂_components hr hhl hpath
  rw [Renderer.formatPath, Renderer.formatPath]
  rcases getLast_markedUp hcomponents with ⟨hnone, hnone'⟩ | ⟨final, final', hsome, hsome', hfinal⟩
  · rw [hnone, hnone']
    exact .ok (.refl closed_nil)
  · rw [hsome, hsome']
    exact agree_render hr.palette
      (List.rel_append (alike_prefixOps hcomponents) (alike_wordsIn color (.cons hfinal .nil)))

lemma agree_assignment (hr : r.Sound) {pathStr pathStr' valueStr valueStr' : Text} (hpath : MarkedUp pathStr pathStr')
    (hvalue : MarkedUp valueStr valueStr') :
    Agree (List.Forall₂ MarkedUp) (r.assignment pathStr valueStr) (r.assignment pathStr' valueStr') := by
  have hspace : MarkedUp [' '] [' '] := .of_notMem (by decide)
  have hindent : MarkedUp "  ".toList "  ".toList := .of_notMem (by decide)
  have hsep : MarkedUp "=".toList "=".toList := .of_notMem (by decide)
  refine (agree_render hr.palette ?_).bind fun _ _ hline => .ok (.cons hline .nil)
  exact .cons (.words (.cons hindent (.cons hpath (.cons hspace .nil))))
    (.cons (.color "sep") (.cons (.words (.cons hsep .nil)) (.cons (.words (.cons hspace (.cons hvalue .nil))) .nil)))

/-- Keys and values, side by side. -/
lemma forall₂_zip {keys keys' values values' : List Text} (hkeys : List.Forall₂ MarkedUp keys keys')
    (hvalues : List.Forall₂ MarkedUp values values') :
    List.Forall₂ (fun p p' : Text × Text => MarkedUp p.1 p'.1 ∧ MarkedUp p.2 p'.2) (keys.zip values)
      (keys'.zip values') := by
  induction hkeys generalizing values values' with
  | nil => exact .nil
  | cons hkey _ ih =>
    cases hvalues with
    | nil => exact .nil
    | cons hvalue hvalues => exact .cons ⟨hkey, hvalue⟩ (ih hvalues)

lemma agree_formatAdded (hr : r.Sound) (hhl : hl.OnlyMarks) (path : List String) {pathStr pathStr' : Text}
    (hpath : MarkedUp pathStr pathStr') (items : List (String × Val)) :
    Agree (List.Forall₂ MarkedUp) (r.formatAdded .off path pathStr items) (r.formatAdded hl path pathStr' items) := by
  have hspace : MarkedUp [' '] [' '] := .of_notMem (by decide)
  have hindent : MarkedUp "  ".toList "  ".toList := .of_notMem (by decide)
  have hindent' : MarkedUp "    ".toList "    ".toList := .of_notMem (by decide)
  have hsep : MarkedUp "=".toList "=".toList := .of_notMem (by decide)
  have hcolon : MarkedUp ":".toList ":".toList := .of_notMem (by decide)
  rw [Renderer.formatAdded, Renderer.formatAdded]
  refine (agree_render hr.palette (.cons (.words (.cons hindent (.cons hpath (.cons hspace .nil))))
    (alike_wordsIn "sep" (.cons hsep .nil)))).bind fun first first' hfirst => ?_
  refine (Agree.mapM_same fun item _ => agree_keyed hr hhl _ _).bind fun keys keys' hkeys => ?_
  -- the columns are as wide as without marks
  have hwidths : keys'.map (displaywidth r.cells) = keys.map (displaywidth r.cells) := by
    rw [← List.forall₂_eq_eq_eq, List.forall₂_map_left_iff, List.forall₂_map_right_iff]
    exact hkeys.flip.imp fun _ _ h => h.displaywidth_eq r.cells
  rw [hwidths]
  dsimp only
  refine (Agree.mapM_same fun item _ => agree_formatValue hr hhl _ _ _).bind fun values values' hvalues => ?_
  refine (Agree.mapM (forall₂_zip hkeys hvalues) fun p p' hp => ?_).bind fun _ _ hlines => .ok (.cons hfirst hlines)
  obtain ⟨k, v⟩ := p
  obtain ⟨k', v'⟩ := p'
  obtain ⟨hk, hv⟩ := hp
  have hpadding : ∀ n, MarkedUp (List.replicate n ' ') (List.replicate n ' ') := fun n =>
    .of_notMem fun hm => absurd (List.eq_of_mem_replicate hm) (by decide)
  dsimp only
  rw [hk.displaywidth_eq]
  refine agree_render hr.palette ?_
  exact .cons (.words (.cons hindent' (.cons hk .nil))) (.cons (.color "sep") (.cons (.words (.cons hcolon .nil))
    (.cons (.words (.cons (hpadding _) (.cons hspace (.cons hv .nil)))) .nil)))

/-- **A change.** -/
lemma agree_formatChangeLines (hr : r.Sound) (hhl : hl.OnlyMarks) (change : LoggedChange)
    (hpath : ∀ k ∈ change.path, esc ∉ k.toList) :
    Agree (List.Forall₂ MarkedUp) (r.formatChangeLines .off change) (r.formatChangeLines hl change) := by
  obtain ⟨type, path, value⟩ := change
  cases type with
  | add =>
    refine (agree_formatPath hr hhl hpath "add").bind fun pathStr pathStr' hpathStr => ?_
    have hplain : Agree (List.Forall₂ MarkedUp)
        (r.formatValue .off (dotted path) 60 value >>= r.assignment pathStr)
        (r.formatValue hl (dotted path) 60 value >>= r.assignment pathStr') :=
      (agree_formatValue hr hhl _ _ _).bind fun _ _ hvalue => agree_assignment hr hpathStr hvalue
    rcases value with _ | _ | _ | _ | _ | _ | _ | items
    all_goals first | exact hplain | exact agree_formatAdded hr hhl path hpathStr _
  | update =>
    refine (agree_formatValue hr hhl _ _ _).bind fun _ _ hvalue => ?_
    exact (agree_formatPath hr hhl hpath _).bind fun _ _ hpathStr => agree_assignment hr hpathStr hvalue
  | delete =>
    have hcomponents := forall₂_components hr hhl hpath
    rw [Renderer.formatChangeLines, Renderer.formatChangeLines]
    dsimp only
    rcases getLast_markedUp hcomponents with ⟨hnone, hnone'⟩ | ⟨final, final', hsome, hsome', hfinal⟩
    · rw [hnone, hnone']
      exact .error _
    · rw [hsome, hsome']
      refine (agree_render hr.palette ?_).bind fun _ _ hline => .ok (.cons hline .nil)
      have hindent : MarkedUp "  ".toList "  ".toList := .of_notMem (by decide)
      have hmarker := hhl.delete ['✗'] (dotted path) (closed_of_notMem (by decide))
      exact .cons (.words (.cons hindent .nil)) (List.rel_append (alike_prefixOps hcomponents)
        (alike_wordsIn "delete" (.cons hfinal (.cons (.of_notMem (by decide)) (.cons hmarker .nil)))))

/-- **The lines of a diff**: with a highlighter they are the same lines, marked up. -/
theorem agree_formatDiff (hr : r.Sound) (hhl : hl.OnlyMarks) {diff previous : Val}
    (hkeys : ∀ changes, collectChanges r.lib.repr previous (unmarshal diff) [] [] = .ok changes →
      ∀ change ∈ changes, ∀ k ∈ change.path, esc ∉ k.toList) :
    Agree (List.Forall₂ MarkedUp) (r.formatDiff .off diff previous) (r.formatDiff hl diff previous) := by
  have hflatten : ∀ {lines lines' : List (List Text)}, List.Forall₂ (List.Forall₂ MarkedUp) lines lines' →
      List.Forall₂ MarkedUp lines.flatten lines'.flatten := by
    intro lines lines' h
    induction h with
    | nil => exact .nil
    | cons hfirst _ ih => exact List.rel_append hfirst ih
  rw [Renderer.formatDiff, Renderer.formatDiff]
  cases hchanges : collectChanges r.lib.repr previous (unmarshal diff) [] [] with
  | error e => exact .error e
  | ok changes =>
    refine (Agree.mapM_same fun change hm => ?_).bind fun _ _ hlines => .ok (hflatten hlines)
    exact agree_formatChangeLines hr hhl change (hkeys changes hchanges change hm)

/-- **The header.** -/
theorem agree_formatActionHeader (hr : r.Sound) (hhl : hl.OnlyMarks) {action : Text} {user extra : Option Text}
    (haction : Closed action) (huser : ∀ text, user = some text → Closed text)
    (hextra : ∀ text, extra = some text → Closed text) :
    Agree MarkedUp (r.formatActionHeader .off action user extra) (r.formatActionHeader hl action user extra) := by
  have hspace : MarkedUp " ".toList " ".toList := .of_notMem (by decide)
  have hby : MarkedUp " by ".toList " by ".toList := .of_notMem (by decide)
  unfold Renderer.formatActionHeader
  refine agree_render hr.palette (List.rel_append (List.rel_append ?_ ?_) ?_)
  · exact alike_wordsIn _ (.cons (hhl.field action _ haction) .nil)
  · cases extra with
    | none => exact .nil
    | some extra =>
      dsimp only
      split
      · exact .cons (.words (.cons hspace .nil)) (alike_wordsIn _ (.cons (.refl (hextra extra rfl)) .nil))
      · exact .nil
  · cases user with
    | none => exact .nil
    | some user =>
      dsimp only
      split
      · exact .cons (.words (.cons hby .nil)) (alike_wordsIn _ (.cons (hhl.field user _ (huser user rfl)) .nil))
      · exact .nil

end

end Kanta
