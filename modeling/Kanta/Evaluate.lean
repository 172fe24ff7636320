import Kanta.Entries
import Kanta.Lib.Gather
import Kanta.Marks
import Kanta.Transaction
import Mathlib.Data.Finset.Insert

/-!
# Searching a record

`evaluate` matches every `--grep` pattern against the header and the entries of a record.  It gathers what is to be
highlighted in a `GrepHighlighter`, or finds that a pattern matches nowhere.  Which records are found, and what is
highlighted in them, depends on which patterns are given, and not on their order or on how often (`evaluate_congr`).
-/

namespace Kanta

open Kanta.Lib Kanta.Lib.Ansi Kanta.Lib.Assoc Kanta.Lib.Gather

/-! ### Matching an entry -/

/-- `".".join(path)`. -/
def dotted (path : List String) : String := ".".intercalate path

section

variable (lib : Library)

/-- `_element_matches`. -/
def elementMatches (pattern element : Text) : Bool :=
  let pattern := lib.py.casefold pattern
  let element := lib.py.casefold element
  if hasGlob pattern then lib.fnmatchcase element pattern else element = pattern

/-- `_match_path`: the indices of the elements that are matched. -/
def matchPath (term : Text) (path : List String) : Option (List ℕ) :=
  if term = [] then some []
  else
    let patterns := term.splitOn '.'
    let matchesAt (start : ℕ) : Bool := patterns.zipIdx.all fun (pattern, i) =>
      path[start + i]?.any fun element => elementMatches lib pattern element.toList
    -- no start is left when the path is shorter
    ((List.range (path.length + 1 - patterns.length)).find? matchesAt).map fun start =>
      List.range' start patterns.length

/-- `_match_value`. -/
abbrev matchTerm (term : Text) (raw : Val) (text : Text) : Option ValueMark :=
  matchValue lib.py lib.fnmatchcase term raw text

/-- `mark.needle or mark.whole`. -/
def ValueMark.shows (mark : ValueMark) : Bool := mark.needle ≠ [] || mark.whole

/-- `_dual_mark`. -/
def dualMark (term : Text) (raw : Val) (text : Text) (pretty : Option Text) : Option ValueMark :=
  let rawMark := matchTerm lib term raw text
  match pretty with
  | none => rawMark
  | some pretty =>
    match matchTerm lib term (.str (String.ofList pretty)) pretty with
    | some prettyMark => some prettyMark
    | none => if rawMark.any ValueMark.shows then some ⟨[], true⟩ else rawMark

/-- `_match_entry`. -/
def matchEntry (logfmt : Option Logfmt) (pattern : GrepPattern) (entry : GrepEntry) :
    Option (Option (List ℕ) × Option ValueMark) :=
  let pretty := logfmt.bind fun logfmt => logfmt entry.raw (dotted entry.path)
  match pattern.term with
  | some term =>
    let elements := matchPath lib term entry.path
    let mark := dualMark lib term entry.raw entry.text pretty
    if elements.isNone ∧ mark.isNone then none else some (elements, mark)
  | none =>
    let elements := matchPath lib (pattern.pathTerm.getD []) entry.path
    let mark := dualMark lib (pattern.valueTerm.getD []) entry.raw entry.text pretty
    if elements.isNone ∨ mark.isNone then none else some (elements, mark)

/-! ### Highlighters -/

/-- A dict of lists of marks. -/
abbrev MarkTable := List (String × List ValueMark)

/-- `table.get(key, [])`. -/
def MarkTable.at (table : MarkTable) (key : String) : List ValueMark := (table.lookup key).getD []

/-- `table.setdefault(key, []).append(mark)`. -/
def MarkTable.add (table : MarkTable) (key : String) (mark : ValueMark) : MarkTable :=
  put key (table.at key ++ [mark]) table

/-- `GrepHighlighter`. -/
structure GrepHighlighter where
  litPaths : Finset String
  litDeletes : Finset String
  valueMarks : MarkTable
  metaMarks : MarkTable

namespace GrepHighlighter

/-- `GrepHighlighter()`. -/
def new : GrepHighlighter := ⟨∅, ∅, [], []⟩

/-- `_light_elements`. -/
def lightElements (h : GrepHighlighter) (path : List String) (indices : List ℕ) : GrepHighlighter :=
  indices.foldl (fun h i => { h with litPaths := insert (dotted (path.take (i + 1))) h.litPaths }) h

/-- `self._lit_deletes.add(".".join(anchor))`. -/
def lightDelete (h : GrepHighlighter) (anchor : List String) : GrepHighlighter :=
  { h with litDeletes := insert (dotted anchor) h.litDeletes }

/-- `self._value_marks.setdefault(".".join(path), []).append(mark)`. -/
def addValue (h : GrepHighlighter) (path : List String) (mark : ValueMark) : GrepHighlighter :=
  { h with valueMarks := h.valueMarks.add (dotted path) mark }

/-- `add`. -/
def add (h : GrepHighlighter) (entry : GrepEntry) (elements : Option (List ℕ)) (mark : Option ValueMark) :
    GrepHighlighter :=
  -- nothing is lit for `None`
  let elements := elements.getD []
  match entry.anchor with
  | none =>
    let h := h.lightElements entry.path elements
    match mark with
    | some mark => if mark.shows then h.addValue entry.path mark else h
    | none => h
  | some anchor =>
    let shown := elements.filter (· < anchor.length)
    let h := h.lightElements entry.path shown
    let h := if shown.length ≠ elements.length then h.lightDelete anchor else h
    if mark.any ValueMark.shows then h.lightDelete anchor else h

/-- `add_meta`. -/
def addMeta (h : GrepHighlighter) (field : String) (mark : ValueMark) : GrepHighlighter :=
  if mark.shows then { h with metaMarks := h.metaMarks.add field mark } else h

end GrepHighlighter

/-- The highlighter hook of the formatters: how they wrap a path element, a value, the marker of a deletion and a
field of the header. -/
structure Highlight where
  path : Text → String → Text
  value : Text → String → Text
  delete : Text → String → Text
  field : Text → String → Text

/-- `mark_spans(text, [(0, len(strip_ansi(text)))])`. -/
def markWhole (text : Text) : Text := markSpans text [(0, ↑(stripAnsi text).length)]

/-- The methods `path`, `value`, `delete` and `meta` of a `GrepHighlighter`. -/
def GrepHighlighter.hook (h : GrepHighlighter) : Highlight where
  path text path := if text ≠ [] ∧ path ∈ h.litPaths then markWhole text else text
  value text path := applyMarks lib.py text (h.valueMarks.at path)
  delete text path := if text ≠ [] ∧ path ∈ h.litDeletes then markWhole text else text
  field text field := applyMarks lib.py text (h.metaMarks.at field)

/-! ### The patterns -/

/-- A field of the header is matched, or not. -/
def matchField (field : String) (mark : Option ValueMark) (s : GrepHighlighter × Bool) : GrepHighlighter × Bool :=
  match mark with
  | some mark => (s.1.addMeta field mark, true)
  | none => s

/-- The loop body of `evaluate` over the entries; `s` also holds `matched`. -/
def matchNext (logfmt : Option Logfmt) (pattern : GrepPattern) (s : GrepHighlighter × Bool) (entry : GrepEntry) :
    GrepHighlighter × Bool :=
  match matchEntry lib logfmt pattern entry with
  | none => s
  | some (elements, mark) => (s.1.add entry elements mark, true)

/-- The header, for a pattern without `=`. -/
def matchHeader (logfmt : Option Logfmt) (record : ChangeRecord) (pattern : GrepPattern)
    (s : GrepHighlighter × Bool) : GrepHighlighter × Bool :=
  match pattern.term with
  | none => s
  | some term =>
    let s := matchField "action" (matchTerm lib term (.str record.a) record.a.toList) s
    match record.u with
    | none => s
    | some user =>
      if user = "" then s
      else
        let prettyUser := logfmt.bind fun logfmt => logfmt (.str user) userPath
        matchField "user" (dualMark lib term (.str user) user.toList prettyUser) s

/-- The loop body of `evaluate` over the patterns. -/
def evaluatePattern (logfmt : Option Logfmt) (record : ChangeRecord) (entries : List GrepEntry) (h : GrepHighlighter)
    (pattern : GrepPattern) : Option GrepHighlighter :=
  let (h, matched) := entries.foldl (matchNext lib logfmt pattern) (matchHeader lib logfmt record pattern (h, false))
  if matched then some h else none

/-- `evaluate`. -/
def evaluate (record : ChangeRecord) (previous : Val) (patterns : List GrepPattern) (logfmt : Option Logfmt) :
    Except Exc (Option GrepHighlighter) := do
  let entries ← recordEntries lib record.diff.val previous
  .ok (patterns.foldlM (evaluatePattern lib logfmt record entries) .new)

/-- `matches_snapshot`. -/
def matchesSnapshot (state : Val) (patterns : List GrepPattern) (logfmt : Option Logfmt) : Bool :=
  let entries := leafEntries lib [] none (unmarshal state)
  patterns.all fun pattern => entries.any fun entry => (matchEntry lib logfmt pattern entry).isSome

end

/-! ### Spans that are known by their offsets -/

section

variable {p q : Span} {spans spans' : List Span}

lemma Separated.tail (h : Separated (p :: spans)) : Separated spans :=
  ⟨(List.pairwise_cons.mp h.apart).2, (List.forall_mem_cons.mp h.proper).2⟩

/-- Up to the end of the first span only this one counts. -/
lemma Separated.within_head (h : Separated (p :: spans)) {i : ℤ} (hi : i ≤ p.2) :
    within (p :: spans) i = true ↔ p.1 ≤ i ∧ i < p.2 := by
  rw [within_cons, within_of_lt (List.pairwise_cons.mp h.apart).1 hi]
  simp

lemma Separated.head_le (h : Separated (p :: spans)) (h' : Separated (q :: spans'))
    (hsame : ∀ i, within (p :: spans) i = within (q :: spans') i) : q.1 ≤ p.1 := by
  have hp := h.proper p List.mem_cons_self
  have hq := h'.proper q List.mem_cons_self
  by_contra hlt
  have hin := (h.within_head (by omega)).mpr ⟨le_rfl, hp⟩
  rw [hsame, h'.within_head (by omega)] at hin
  omega

lemma Separated.end_le (h : Separated (p :: spans)) (h' : Separated (q :: spans'))
    (hsame : ∀ i, within (p :: spans) i = within (q :: spans') i) : q.2 ≤ p.2 := by
  have hp := h.proper p List.mem_cons_self
  have hle := h.head_le h' hsame
  by_contra hlt
  have hin := (h'.within_head (by omega)).mpr ⟨show q.1 ≤ p.2 by omega, by omega⟩
  rw [← hsame, h.within_head le_rfl] at hin
  omega

/-- **Spans that lie apart are known by the offsets in them.** -/
lemma Separated.eq_of_within (h : Separated spans) (h' : Separated spans')
    (hsame : ∀ i, within spans i = within spans' i) : spans = spans' := by
  induction spans generalizing spans' with
  | nil =>
    cases spans' with
    | nil => rfl
    | cons q spans' =>
      have hin := (within_cons q spans' q.1).mpr (Or.inl ⟨le_rfl, h'.proper q List.mem_cons_self⟩)
      rw [← hsame] at hin
      cases hin
  | cons p spans ih =>
    cases spans' with
    | nil =>
      have hin := (within_cons p spans p.1).mpr (Or.inl ⟨le_rfl, h.proper p List.mem_cons_self⟩)
      rw [hsame] at hin
      cases hin
    | cons q spans' =>
      obtain rfl : p = q := Prod.ext
        (le_antisymm (h'.head_le h fun i => (hsame i).symm) (h.head_le h' hsame))
        (le_antisymm (h'.end_le h fun i => (hsame i).symm) (h.end_le h' hsame))
      refine congrArg (List.cons p) (ih h.tail h'.tail fun i => ?_)
      by_cases hi : i ≤ p.2
      · rw [within_of_lt (List.pairwise_cons.mp h.apart).1 hi, within_of_lt (List.pairwise_cons.mp h'.apart).1 hi]
      · have hout : ¬(p.1 ≤ i ∧ i < p.2) := by omega
        rw [← within_cons_of_not hout, hsame i, within_cons_of_not hout]

/-- A text is marked alike for spans that are the same, in whatever order and however often. -/
lemma markSpans_congr (hsame : ∀ q, q ∈ spans ↔ q ∈ spans') (text : Text) :
    markSpans text spans = markSpans text spans' := by
  have hwithin : ∀ i, within spans i = within spans' i := fun i => by
    rw [Bool.eq_iff_iff, within_iff, within_iff]
    exact exists_congr fun q => and_congr_left' (hsame q)
  have hmerged : mergeSpans spans = mergeSpans spans' := by
    obtain ⟨hapart, hsome⟩ := mergeSpans_spec spans
    obtain ⟨hapart', hsome'⟩ := mergeSpans_spec spans'
    exact hapart.eq_of_within hapart' fun i => by rw [hsome, hsome', hwithin]
  rw [markSpans, markSpans, hmerged]

lemma applyMarks_congr {py : CaseTables} {marks marks' : List ValueMark} (hsame : ∀ m, m ∈ marks ↔ m ∈ marks')
    (text : Text) : applyMarks py text marks = applyMarks py text marks' := by
  have hnil : marks = [] ↔ marks' = [] := by
    rw [List.eq_nil_iff_forall_not_mem, List.eq_nil_iff_forall_not_mem]
    exact forall_congr' fun m => not_congr (hsame m)
  rw [applyMarks, applyMarks, if_congr (or_congr Iff.rfl hnil) rfl rfl]
  split
  · rfl
  · refine markSpans_congr (fun q => ?_) text
    rw [List.mem_flatMap, List.mem_flatMap]
    exact exists_congr fun m => and_congr_left' (hsame m)

end

/-! ### What a highlighter has gathered -/

/-- Something that a highlighter knows. -/
inductive Note where
  | path (path : String)
  | delete (path : String)
  | value (path : String) (mark : ValueMark)
  | field (field : String) (mark : ValueMark)

/-- The highlighter knows it. -/
def GrepHighlighter.Knows (h : GrepHighlighter) : Note → Prop
  | .path path => path ∈ h.litPaths
  | .delete path => path ∈ h.litDeletes
  | .value path mark => mark ∈ h.valueMarks.at path
  | .field field mark => mark ∈ h.metaMarks.at field

section

variable {lib : Library} {logfmt : Option Logfmt} {record : ChangeRecord} {entries : List GrepEntry}
  {h h' : GrepHighlighter} {patterns patterns' : List GrepPattern}

/-- What is wrapped, and how, is known by what has been gathered. -/
lemma GrepHighlighter.hook_congr (hsame : ∀ n, h.Knows n ↔ h'.Knows n) : h.hook lib = h'.hook lib := by
  rw [hook, hook, Highlight.mk.injEq]
  refine ⟨?_, ?_, ?_, ?_⟩
  · funext text path
    exact if_congr (and_congr_right' (hsame (.path path))) rfl rfl
  · funext text path
    exact applyMarks_congr (fun m => hsame (.value path m)) text
  · funext text path
    exact if_congr (and_congr_right' (hsame (.delete path))) rfl rfl
  · funext text field
    exact applyMarks_congr (fun m => hsame (.field field m)) text

lemma MarkTable.mem_add {table : MarkTable} {key key' : String} {mark mark' : ValueMark} :
    mark' ∈ (table.add key mark).at key' ↔ mark' ∈ table.at key' ∨ (key' = key ∧ mark' = mark) := by
  rw [MarkTable.at, MarkTable.add, lookup_put]
  by_cases hkey : key' = key
  · subst hkey
    simp
  · simp [hkey, MarkTable.at]

lemma gathers_lightElements (path : List String) (indices : List ℕ) :
    Gathers GrepHighlighter.Knows fun h => h.lightElements path indices := by
  refine Gathers.foldl (fun i => ⟨{.path (dotted (path.take (i + 1)))}, fun h n => ?_⟩) indices
  cases n <;> simp [GrepHighlighter.Knows, or_comm]

lemma gathers_lightDelete (anchor : List String) : Gathers GrepHighlighter.Knows fun h => h.lightDelete anchor := by
  refine ⟨{.delete (dotted anchor)}, fun h n => ?_⟩
  cases n <;> simp [GrepHighlighter.Knows, GrepHighlighter.lightDelete, or_comm]

lemma gathers_addValue (path : List String) (mark : ValueMark) :
    Gathers GrepHighlighter.Knows fun h => h.addValue path mark := by
  refine ⟨{.value (dotted path) mark}, fun h n => ?_⟩
  cases n <;> simp [GrepHighlighter.Knows, GrepHighlighter.addValue, MarkTable.mem_add]

lemma gathers_addMeta (field : String) (mark : ValueMark) :
    Gathers GrepHighlighter.Knows fun h => h.addMeta field mark := by
  refine Gathers.ite ⟨{.field field mark}, fun h n => ?_⟩ .id
  cases n <;> simp [GrepHighlighter.Knows, MarkTable.mem_add]

lemma gathers_add (entry : GrepEntry) (elements : Option (List ℕ)) (mark : Option ValueMark) :
    Gathers GrepHighlighter.Knows fun h => h.add entry elements mark := by
  unfold GrepHighlighter.add
  cases entry.anchor with
  | none =>
    have hlight := gathers_lightElements entry.path (elements.getD [])
    cases mark with
    | none => exact hlight
    | some mark =>
      have hvalue : Gathers GrepHighlighter.Knows fun h => if mark.shows then h.addValue entry.path mark else h :=
        .ite (gathers_addValue entry.path mark) .id
      exact hlight.comp hvalue
  | some anchor =>
    have hlight := gathers_lightElements entry.path ((elements.getD []).filter (· < anchor.length))
    have hdelete : ∀ (p : Prop) [Decidable p],
        Gathers GrepHighlighter.Knows fun h => if p then h.lightDelete anchor else h :=
      fun p _ => .ite (gathers_lightDelete anchor) .id
    exact (hlight.comp (hdelete _)).comp (hdelete _)

/-! ### The loops -/

/-- What the loops of one pattern know: the highlighter's notes, and whether anything has been matched. -/
def KnowsOrMatched (s : GrepHighlighter × Bool) : Option Note → Prop
  | none => s.2 = true
  | some n => s.1.Knows n

lemma gathers_matched {op : GrepHighlighter → GrepHighlighter} (hop : Gathers GrepHighlighter.Knows op) :
    Gathers KnowsOrMatched fun s => (op s.1, true) := by
  obtain ⟨facts, hadds⟩ := hop
  refine ⟨{n | ∀ note, n = some note → note ∈ facts}, fun s n => ?_⟩
  cases n with
  | none => simp [KnowsOrMatched]
  | some n => simp [KnowsOrMatched, hadds s.1 n]

lemma gathers_matchField (field : String) (mark : Option ValueMark) :
    Gathers KnowsOrMatched fun s => matchField field mark s := by
  cases mark with
  | none => exact .id
  | some mark => exact gathers_matched (gathers_addMeta field mark)

lemma gathers_matchHeader (pattern : GrepPattern) :
    Gathers KnowsOrMatched fun s => matchHeader lib logfmt record pattern s := by
  unfold matchHeader
  cases pattern.term with
  | none => exact .id
  | some term =>
    have haction := gathers_matchField "action" (matchTerm lib term (.str record.a) record.a.toList)
    cases record.u with
    | none => exact haction
    | some user =>
      have huser : ∀ mark, Gathers KnowsOrMatched fun s => if user = "" then s else matchField "user" mark s :=
        fun mark => .ite .id (gathers_matchField "user" mark)
      exact haction.comp (huser _)

lemma gathers_matchNext (pattern : GrepPattern) (entry : GrepEntry) :
    Gathers KnowsOrMatched fun s => matchNext lib logfmt pattern s entry := by
  unfold matchNext
  cases matchEntry lib logfmt pattern entry with
  | none => exact .id
  | some found => exact gathers_matched (gathers_add entry found.1 found.2)

/-- **A pattern matches or not, and adds its marks**, whatever the patterns before it have marked. -/
lemma collects_evaluatePattern :
    Collects GrepHighlighter.Knows (evaluatePattern lib logfmt record entries) := by
  intro pattern
  have hheader : Gathers KnowsOrMatched fun s => matchHeader lib logfmt record pattern s := gathers_matchHeader pattern
  have hentries : Gathers KnowsOrMatched fun s => entries.foldl (matchNext lib logfmt pattern) s :=
    .foldl (gathers_matchNext pattern) entries
  obtain ⟨facts, hadds⟩ := hheader.comp hentries
  have hmatched : ∀ h : GrepHighlighter, (entries.foldl (matchNext lib logfmt pattern)
      (matchHeader lib logfmt record pattern (h, false))).2 = true ↔ none ∈ facts := fun h => by
    have := hadds (h, false) none
    simpa [KnowsOrMatched] using this
  by_cases hnone : none ∈ facts
  · refine Or.inr ⟨fun h => (entries.foldl (matchNext lib logfmt pattern)
      (matchHeader lib logfmt record pattern (h, false))).1, ⟨{n | some n ∈ facts}, fun h n => ?_⟩, fun h => ?_⟩
    · exact hadds (h, false) (some n)
    · exact if_pos ((hmatched h).mpr hnone)
  · exact Or.inl fun h => if_neg fun hmatch => hnone ((hmatched h).mp hmatch)

/-! ### The result -/

/-- **Only which patterns are given matters**: in another order, or with some of them repeated, the same records are
found, and in a record the same is highlighted. -/
theorem evaluate_congr (lib : Library) (logfmt : Option Logfmt) (record : ChangeRecord) (previous : Val)
    {patterns patterns' : List GrepPattern} (hsame : ∀ p, p ∈ patterns ↔ p ∈ patterns') :
    (evaluate lib record previous patterns logfmt).map (Option.map (GrepHighlighter.hook lib)) =
      (evaluate lib record previous patterns' logfmt).map (Option.map (GrepHighlighter.hook lib)) := by
  rw [evaluate, evaluate]
  rcases recordEntries lib record.diff.val previous with e | entries
  · rfl
  · refine congrArg Except.ok ?_
    have hcollects : Collects GrepHighlighter.Knows (evaluatePattern lib logfmt record entries) :=
      collects_evaluatePattern
    rcases hcollects.foldlM_congr hsame .new with
      ⟨hnone, hnone'⟩ | ⟨h, h', hsome, hsome', hknows⟩
    · rw [hnone, hnone']
    · rw [hsome, hsome', Option.map_some, Option.map_some, GrepHighlighter.hook_congr hknows]

end

open Sample in
/-- `--grep a=5 --grep null` and `--grep null --grep a=5 --grep null`. -/
theorem evaluate_congr_repeated :
    (evaluate plainLibrary ⟨⟨0, none⟩, "set", 0, some "ada", none, (delta toldBefore toldAfter).getD .empty⟩
        toldBefore.val [.parse "a=5".toList, .parse "null".toList] none).map
          (Option.map (GrepHighlighter.hook plainLibrary)) =
      (evaluate plainLibrary ⟨⟨0, none⟩, "set", 0, some "ada", none, (delta toldBefore toldAfter).getD .empty⟩
        toldBefore.val [.parse "null".toList, .parse "a=5".toList, .parse "null".toList] none).map
          (Option.map (GrepHighlighter.hook plainLibrary)) :=
  evaluate_congr _ _ _ _ fun p => by simp only [List.mem_cons, List.not_mem_nil, or_false]; tauto

/-! ### Snapshots -/

section

variable {lib : Library} {logfmt : Option Logfmt} {record : ChangeRecord} {entries : List GrepEntry}
  {pattern : GrepPattern} {patterns : List GrepPattern} {h : GrepHighlighter}

lemma foldl_matchNext (s : GrepHighlighter × Bool) : (entries.foldl (matchNext lib logfmt pattern) s).2 = true ↔
    s.2 = true ∨ ∃ entry ∈ entries, (matchEntry lib logfmt pattern entry).isSome = true := by
  induction entries generalizing s with
  | nil => simp
  | cons entry entries ih =>
    have hstep : (matchNext lib logfmt pattern s entry).2 = true ↔
        s.2 = true ∨ (matchEntry lib logfmt pattern entry).isSome = true := by
      unfold matchNext
      cases matchEntry lib logfmt pattern entry <;> simp
    rw [List.foldl_cons, ih, hstep, List.exists_mem_cons_iff, or_assoc]

/-- Without a match in the header, a pattern is found in the entries. -/
lemma isSome_evaluatePattern (hheader : ∀ h, (matchHeader lib logfmt record pattern (h, false)).2 = false) :
    (evaluatePattern lib logfmt record entries h pattern).isSome = true ↔
      ∃ entry ∈ entries, (matchEntry lib logfmt pattern entry).isSome = true := by
  have hfold : (entries.foldl (matchNext lib logfmt pattern)
      (matchHeader lib logfmt record pattern (h, false))).2 = true ↔ _ := foldl_matchNext _
  rw [hheader h] at hfold
  rw [evaluatePattern]
  dsimp only
  split
  · next hmatched => exact iff_of_true rfl ((hfold.mp hmatched).resolve_left Bool.false_ne_true)
  · next hmissed => exact iff_of_false Bool.false_ne_true fun hfound => hmissed (hfold.mpr (Or.inr hfound))

/-- All patterns are found. -/
lemma isSome_evaluate (hheader : ∀ p ∈ patterns, ∀ h, (matchHeader lib logfmt record p (h, false)).2 = false) :
    (patterns.foldlM (evaluatePattern lib logfmt record entries) h).isSome = true ↔
      ∀ p ∈ patterns, ∃ entry ∈ entries, (matchEntry lib logfmt p entry).isSome = true := by
  induction patterns generalizing h with
  | nil => simp
  | cons p patterns ih =>
    obtain ⟨hfirst, hrest⟩ := List.forall_mem_cons.mp hheader
    have hp : (evaluatePattern lib logfmt record entries h p).isSome = true ↔ _ := isSome_evaluatePattern hfirst
    rw [List.foldlM_cons, List.forall_mem_cons, ← hp]
    cases evaluatePattern lib logfmt record entries h p with
    | none => simp
    | some h' => simpa using ih hrest

/-- The record that writes a state over an empty one has the entries of the state. -/
lemma recordEntries_whole (lib : Library) {state : Dict} (hdollar : dollarFree state.val = true) :
    recordEntries lib ((diff .empty state).getD Dict.empty.val) Dict.empty.val =
      .ok (leafEntries lib [] none (unmarshal state.val)) := by
  have hkind : SameKind Dict.empty.val state.val := by
    intro path v w hv hw
    cases path with
    | nil =>
      obtain rfl := Option.some.inj hv
      obtain rfl := Option.some.inj hw
      rfl
    | cons => cases hv
  have hchanges := listed_frontier lib.repr hdollar hkind
  rw [listedChanges] at hchanges
  have hitems : ∀ items : List (String × Val), frontierItems [] items [] =
      items.map fun item => ⟨.add, [item.1], item.2⟩ := by
    intro items
    induction items with
    | nil => rw [frontierItems, List.map_nil]
    | cons item items ih =>
      rw [frontierItems, ih]
      rfl
  rw [recordEntries, hchanges, unmarshal_of_dollarFree state.wf hdollar]
  refine congrArg Except.ok ?_
  rw [show Dict.empty.val = .dict [] from rfl, show state.val = .dict state.items from rfl, leafEntries_eq, frontier,
    hitems, show deletedKeys [] state.items = [] from rfl, List.map_nil, List.nil_append, List.flatMap_map]
  rfl

end

/-- **A snapshot is searched like a change**: the patterns that find it are those that find a record which writes the
whole state over an empty one and whose header they do not match. -/
theorem snapshot_like_change (lib : Library) (logfmt : Option Logfmt) {state : Dict}
    (hdollar : dollarFree state.val = true) {patterns : List GrepPattern} (ts : DateTime) (action : String) (v : ℤ)
    (haction : ∀ p ∈ patterns, ∀ term, p.term = some term →
      matchTerm lib term (.str action) action.toList = none) :
    matchesSnapshot lib state.val patterns logfmt = true ↔
      ∃ h, evaluate lib ⟨ts, action, v, none, none, (delta .empty state).getD .empty⟩ Dict.empty.val patterns logfmt =
        .ok (some h) := by
  have hdiff : ((delta .empty state).getD .empty).val = (diff .empty state).getD Dict.empty.val := by
    cases hd : diff .empty state with
    | none => rw [delta, hd]; rfl
    | some d =>
      obtain ⟨dd, rfl, hdelta⟩ := exists_delta hd
      rw [hdelta]
      rfl
  have hheader : ∀ p ∈ patterns, ∀ h, (matchHeader lib logfmt
      ⟨ts, action, v, none, none, (delta .empty state).getD .empty⟩ p (h, false)).2 = false := by
    intro p hp h
    unfold matchHeader
    cases hterm : p.term with
    | none => rfl
    | some term => simp only [haction p hp term hterm, matchField]
  rw [evaluate]
  dsimp only
  rw [hdiff, recordEntries_whole lib hdollar, matchesSnapshot, List.all_eq_true]
  have hfound : (patterns.foldlM (evaluatePattern lib logfmt
      ⟨ts, action, v, none, none, (delta .empty state).getD .empty⟩ (leafEntries lib [] none (unmarshal state.val)))
      .new).isSome = true ↔ _ := isSome_evaluate hheader
  simp only [List.any_eq_true]
  rw [← hfound, Option.isSome_iff_exists]
  exact exists_congr fun h => ⟨congrArg Except.ok, Except.ok.inj⟩

open Sample in
/-- `--grep a=5 --grep null`, where the action is `set`. -/
theorem snapshot_like_change_told :
    matchesSnapshot plainLibrary toldAfter.val [.parse "a=5".toList, .parse "null".toList] none = true ↔
      ∃ h, evaluate plainLibrary ⟨⟨0, none⟩, "set", 0, none, none, (delta .empty toldAfter).getD .empty⟩
        Dict.empty.val [.parse "a=5".toList, .parse "null".toList] none = .ok (some h) :=
  snapshot_like_change _ _ (by decide +kernel) _ _ _ (by
    intro p hp term hterm
    rcases List.mem_pair.mp hp with rfl | rfl
    · cases hterm
    · obtain rfl := Option.some.inj hterm
      rfl)

end Kanta
