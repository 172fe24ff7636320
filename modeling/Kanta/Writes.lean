import Kanta.Overlap

/-!
# Short writes

`os.write` may take only the first of the bytes it is given.  `_write_unix` calls it once and drops
the count, where `_replace_content_unix` goes on until nothing is left (`writeRest_ok`).  A `flush`
therefore returns normally with a part of its frames written, and takes the whole batch off the queue:
`flush_writesAll_iff`.
-/

namespace Kanta

open Kanta.Lib Kanta.Lib.Lts

/-! ### The two ways to write -/

/-- What `os.write` does: it takes so many of the first bytes, or raises an `OSError`. -/
inductive Answer where
  | accepts (count : ℕ)
  | raises

/-- `os.write` at the end of a file. -/
def osWrite (content data : Bytes) : Answer → Bytes × Except Exc ℕ
  | .accepts count => (content ++ data.take count, .ok (data.take count).length)
  | .raises => (content, .error .osError)

/-- `_write_unix`. -/
def writeUnix (content data : Bytes) (answer : Answer) : Bytes × Except Exc Unit :=
  match osWrite content data answer with
  | (content, .ok _) => (content, .ok ())
  | (content, .error e) => (content, .error e)

/-- The loop of `_replace_content_unix`, as far as the answers go. -/
def writeRest (content : Bytes) : Bytes → List Answer → Option (Bytes × Except Exc Unit)
  | [], _ => some (content, .ok ())
  | _ :: _, [] => none
  | b :: view, answer :: answers =>
    match osWrite content (b :: view) answer with
    | (content, .ok written) => writeRest content ((b :: view).drop written) answers
    | (content, .error e) => some (content, .error e)

/-- `_replace_content_unix` behind `ftruncate`, without the sync. -/
def replaceContentUnix (data : Bytes) (answers : List Answer) : Option (Bytes × Except Exc Unit) :=
  writeRest [] data answers

/-- **A loop over short writes leaves nothing out.** -/
lemma writeRest_ok {content view content' : Bytes} {answers : List Answer}
    (h : writeRest content view answers = some (content', .ok ())) : content' = content ++ view := by
  induction answers generalizing content view with
  | nil =>
    cases view with
    | nil => simpa [writeRest, eq_comm] using h
    | cons b view => simp [writeRest] at h
  | cons answer answers ih =>
    cases view with
    | nil => simpa [writeRest, eq_comm] using h
    | cons b view =>
      cases answer with
      | raises => simp [writeRest, osWrite] at h
      | accepts count =>
        have hrest := ih h
        rw [hrest, List.append_assoc, List.length_take]
        congr 1
        rcases Nat.le_total count (b :: view).length with hle | hle
        · rw [min_eq_left hle, List.take_append_drop]
        · rw [min_eq_right hle, List.take_of_length_le hle, List.drop_length, List.append_nil]

/-- `replace_content` that returns has written its data. -/
theorem replaceContentUnix_ok {data content : Bytes} {answers : List Answer}
    (h : replaceContentUnix data answers = some (content, .ok ())) : content = data := by
  rw [writeRest_ok h, List.nil_append]

/-! ### A call of `flush` -/

/-- The instance, as far as `flush` sees it. -/
structure Flushing where
  opened : Bool
  readonly : Bool
  flushFailed : Bool
  pending : List Queued
  snapshot : SnapshotState
  framer : Framer
  file : Bytes
  isOpen : Bool

/-- What the operating system does with the calls of one `flush`. -/
structure Os where
  opens : Except Exc Unit
  seeks : Except Exc Unit
  write : Answer

variable (E : Env)

namespace Flushing

/-- The size of the file, and the frames behind it. -/
def prepared (s : Flushing) (os : Os) : Except Exc (List (Queued × Bytes)) := do
  os.seeks
  frameBatch E s.framer s.file.length s.pending

/-- `except OSError`. -/
def failed (s : Flushing) (e : Exc) : Flushing × Except Exc Unit :=
  match e with
  | .osError => ({ s with flushFailed := true }, .error (.databaseError "Failed to flush database" (some "OSError")))
  | e => (s, .error e)

/-- The `try` block of `flush`, and its handler. -/
def attempt (s : Flushing) (os : Os) : Flushing × Except Exc Unit :=
  match s.prepared E os with
  | .error e => s.failed e
  | .ok records =>
    match writeUnix s.file (records.flatMap Prod.snd) os.write with
    | (file, .error e) => { s with file }.failed e
    | (file, .ok ()) =>
      ({ s with
          file
          snapshot := s.snapshot.recordChanges records.length
          pending := s.pending.drop records.length }, .ok ())

/-- `flush`. -/
def flush (s : Flushing) (os : Os) : Flushing × Except Exc Unit :=
  if ¬s.opened then
    (s, .error (.dataIntegrityError "Kanta instance must be opened before flush" (some "flush") none))
  else if s.readonly then (s, .error (.dataIntegrityError "Cannot flush in read-only mode" (some "flush") none))
  else if s.flushFailed then (s, .ok ())
  else if s.pending.isEmpty then (s, .ok ())
  else if s.isOpen then s.attempt E os
  else
    match os.opens with
    | .error e => (s, .error e)
    | .ok () => { s with isOpen := true }.attempt E os

/-! ### Statement -/

/-- The changes that `flush` copies off the queue; after a failure it copies none. -/
def batch (s : Flushing) : List Queued := if s.flushFailed then [] else s.pending

/-- `flush` writes all, or reports. -/
def WritesAll (s : Flushing) (os : Os) : Prop :=
  match s.flush E os with
  | (s', .ok ()) => ∃ framed, frameBatch E s.framer s.file.length s.batch = .ok framed ∧
      s'.file = s.file ++ framed.flatMap Prod.snd ∧ s'.pending = s.pending.drop s.batch.length
  | (s', .error _) => s'.pending = s.pending

/-- The bytes that reach `os.write`. -/
def toWrite (s : Flushing) (os : Os) : Option Bytes :=
  if s.opened ∧ ¬s.readonly ∧ ¬s.flushFailed ∧ s.pending ≠ [] ∧ (s.isOpen ∨ os.opens.isOk) then
    (s.prepared E os).toOption.map (List.flatMap Prod.snd)
  else none

/-- The condition: `os.write` raises, or takes all that it is given. -/
def Takes (s : Flushing) (os : Os) : Prop :=
  ∀ data count, s.toWrite E os = some data → os.write = .accepts count → data.length ≤ count

/-! ### The theorem -/

variable {E} {s : Flushing} {os : Os}

/-- The handler leaves the queue alone. -/
lemma failed_pending (e : Exc) : (s.failed e).1.pending = s.pending := by
  unfold failed
  split <;> rfl

lemma failed_error (e : Exc) : ∃ e', (s.failed e).2 = .error e' := by
  unfold failed
  split <;> exact ⟨_, rfl⟩

/-- A call that raises has to keep the queue. -/
lemma writesAll_error {s' : Flushing} {result : Except Exc Unit} {e : Exc} (h : s.flush E os = (s', result))
    (hresult : result = .error e) (hp : s'.pending = s.pending) : s.WritesAll E os := by
  subst hresult
  rw [WritesAll, h]
  exact hp

/-- A call that returns at once copies nothing. -/
lemma writesAll_idle (h : s.flush E os = (s, .ok ())) (hb : s.batch = []) : s.WritesAll E os := by
  rw [WritesAll, h, hb]
  exact ⟨[], rfl, by simp, by simp⟩

lemma prepared_ok {records : List (Queued × Bytes)} (h : s.prepared E os = .ok records) :
    frameBatch E s.framer s.file.length s.pending = .ok records ∧ records.length = s.pending.length := by
  obtain ⟨-, -, h⟩ := bind_eq_ok.mp h
  exact ⟨h, by rw [← frameBatch_fst h, List.length_map]⟩

/-- What `os.write` makes of a flush that gets to it. -/
lemma writesAll_attempt {isOpen : Bool} (hflush : s.flush E os = { s with isOpen }.attempt E os)
    (hf : s.flushFailed = false) :
    s.WritesAll E os ↔ ∀ data count, (s.prepared E os).toOption.map (List.flatMap Prod.snd) = some data →
      os.write = .accepts count → data.length ≤ count := by
  have hprepared : ({ s with isOpen } : Flushing).prepared E os = s.prepared E os := rfl
  rw [attempt, hprepared] at hflush
  cases hp : s.prepared E os with
  | error e =>
    rw [hp] at hflush
    obtain ⟨e', he'⟩ := failed_error (s := { s with isOpen }) e
    refine iff_of_true (writesAll_error hflush he' (failed_pending e)) fun data count hdata => ?_
    simp [Except.toOption] at hdata
  | ok records =>
    obtain ⟨hframed, hlen⟩ := prepared_ok hp
    rw [hp] at hflush
    cases hw : os.write with
    | raises =>
      simp only [hw, writeUnix, osWrite] at hflush
      exact iff_of_true (writesAll_error hflush rfl rfl) fun _ _ _ h => by simp at h
    | accepts count =>
      simp only [hw, writeUnix, osWrite] at hflush
      rw [WritesAll, hflush]
      simp only [batch, hf, Bool.false_eq_true, if_false, Except.toOption, Option.map_some]
      constructor
      · rintro ⟨framed, hframed', hfile, -⟩ data count' hdata hcount
        obtain rfl := Except.ok.inj (hframed.symm.trans hframed')
        obtain rfl := Option.some.inj hdata
        obtain rfl := Answer.accepts.inj hcount
        have htake := List.append_cancel_left hfile
        have := congrArg List.length htake
        rw [List.length_take] at this
        omega
      · intro hall
        have hle := hall _ count rfl rfl
        exact ⟨records, hframed, by rw [List.take_of_length_le hle], by rw [hlen]⟩

end Flushing

open Flushing in
/-- **When a flush writes all or reports**: when `os.write` takes all that reaches it. -/
theorem flush_writesAll_iff (E : Env) (s : Flushing) (os : Os) : s.WritesAll E os ↔ s.Takes E os := by
  have hnever : s.toWrite E os = none → s.Takes E os := by
    intro hnone data count hdata
    simp [hnone] at hdata
  by_cases ho : s.opened = true
  case neg =>
    refine iff_of_true (writesAll_error (by rw [flush, if_pos ho]) rfl rfl) (hnever ?_)
    simp [toWrite, ho]
  by_cases hr : s.readonly = true
  case pos =>
    refine iff_of_true (writesAll_error (by rw [flush, if_neg (not_not.mpr ho), if_pos hr]) rfl rfl) (hnever ?_)
    simp [toWrite, hr]
  by_cases hf : s.flushFailed = true
  case pos =>
    refine iff_of_true (writesAll_idle ?_ (by simp [batch, hf])) (hnever (by simp [toWrite, hf]))
    rw [flush, if_neg (not_not.mpr ho), if_neg hr, if_pos hf]
  have hf : s.flushFailed = false := by simpa using hf
  by_cases hp : s.pending = []
  · refine iff_of_true (writesAll_idle ?_ (by simp [batch, hp])) (hnever (by simp [toWrite, hp]))
    rw [flush, if_neg (not_not.mpr ho), if_neg hr, if_neg (by simp [hf]), if_pos (by simp [hp])]
  have hflush : s.flush E os = if s.isOpen then s.attempt E os else
      match os.opens with
      | .error e => (s, .error e)
      | .ok () => { s with isOpen := true }.attempt E os := by
    rw [flush, if_neg (not_not.mpr ho), if_neg hr, if_neg (by simp [hf]), if_neg (by simp [hp])]
  have hreaches : s.isOpen = true ∨ os.opens.isOk = true → s.toWrite E os =
      (s.prepared E os).toOption.map (List.flatMap Prod.snd) := fun hopen => by
    rw [toWrite, if_pos ⟨ho, hr, by simp [hf], hp, hopen⟩]
  by_cases hopen : s.isOpen = true
  · rw [if_pos hopen] at hflush
    have hflush : s.flush E os = { s with isOpen := s.isOpen }.attempt E os := hflush
    rw [writesAll_attempt hflush hf, Takes, hreaches (Or.inl hopen)]
  · rw [if_neg hopen] at hflush
    cases hopens : os.opens with
    | error e =>
      rw [hopens] at hflush
      refine iff_of_true (writesAll_error hflush rfl rfl) (hnever ?_)
      rw [toWrite, if_neg fun h => ?_]
      simpa [hopen, hopens, Except.isOk, Except.toBool] using h.2.2.2.2
    | ok u =>
      rw [hopens] at hflush
      rw [writesAll_attempt hflush hf, Takes, hreaches (Or.inr (by rw [hopens]; rfl))]

namespace Sample

/-- A database with one change queued. -/
def queued : Flushing := ⟨true, false, false, [⟨0, { ts := ts, a := "set", diff := state 1 }⟩], {}, .line, [], true⟩

end Sample

open Sample in
/-- **A short write is not noticed**: five bytes of the frame are written, and the change leaves the
queue. -/
theorem short_write_loses : ¬queued.WritesAll (env 1000) ⟨.ok (), .ok (), .accepts 5⟩ := by
  obtain ⟨s', hflush, hfile, hframed⟩ : ∃ s', queued.flush (env 1000) ⟨.ok (), .ok (), .accepts 5⟩ = (s', .ok ()) ∧
      s'.file.length = 5 ∧ (frameBatch (env 1000) .line 0 queued.batch).toOption.map
        (fun framed => (framed.flatMap Prod.snd).length) = some 55 := ⟨_, rfl, rfl, by decide +kernel⟩
  intro h
  rw [Flushing.WritesAll, hflush] at h
  obtain ⟨framed, hframe, hbytes, -⟩ := h
  have hframe : frameBatch (env 1000) .line 0 queued.batch = .ok framed := hframe
  rw [hframe] at hframed
  rw [hbytes] at hfile
  simp [Except.toOption, queued] at hfile hframed
  omega

/-! ### The instance takes these steps -/

/-- What `flush` sees of an instance. -/
def State.flushing (s : State) : Flushing where
  opened := s.opened
  readonly := false
  flushFailed := s.flushFailed
  pending := s.core.store.pending
  snapshot := s.snapshot
  framer := s.core.framer
  file := s.core.file
  isOpen := s.isOpen

/-- The answer of `os.write` as the instance knows it, which has no word for a short write. -/
def Answer.outcome (length : ℕ) : Answer → Option Outcome
  | .accepts count => if length ≤ count then some .ok else none
  | .raises => some (.failed 0)

/-- The steps of one call of `flush`. -/
def callSteps (n : ℕ) (clock : Except Exc DateTime) (outcome : Outcome) : List Event :=
  [.call n clock, .work (.call n) .ok, .resume (.call n) clock, .work (.call n) outcome, .resume (.call n) clock]

lemma flatMap_entriesOf (batch : List (Queued × Bytes)) :
    (entriesOf batch).flatMap Entry.bytes = batch.flatMap Prod.snd := by
  simp [entriesOf, List.flatMap_map, Entry.bytes]

lemma step_call {s : State} {n : ℕ} {clock : Except Exc DateTime} (h : s.snapping = none) :
    step E s (.call n clock) = loopStep E { s with ended := none } (.call n clock) := by
  unfold step
  simp only [h]

lemma step_resume {s : State} {o : Owner} {clock : Except Exc DateTime} (h : s.snapping = none) :
    step E s (.resume o clock) = loopStep E { s with ended := none } (.resume o clock) := by
  unfold step
  simp only [h]

lemma step_work (s : State) (o : Owner) (outcome : Outcome) :
    step E s (.work o outcome) = { s with ended := none }.work o outcome := rfl

lemma afterFlush_call (s : State) (n : ℕ) (result : Except Exc Unit) (clock : Except Exc DateTime) :
    s.afterFlush E (.call n) result clock = { s with ended := some (.call n, result) } := by
  cases result <;> rfl

/-- **A call of `flush` on an instance** is this flush, as long as no write is short. -/
theorem flush_steps (E : Env) {s : State} {n : ℕ} {clock : Except Exc DateTime} {answer : Answer} {outcome : Outcome}
    {framed : List (Queued × Bytes)} (hsn : s.snapping = none) (hfree : s.core.flights.lookup (.call n) = none)
    (hopened : s.opened = true) (hopen : s.isOpen = true) (hf : s.flushFailed = false)
    (hp : s.core.store.pending ≠ [])
    (hframed : frameBatch E s.core.framer s.core.file.length s.core.store.pending = .ok framed)
    (houtcome : answer.outcome (framed.flatMap Prod.snd).length = some outcome) :
    ∃ s' : State, run (step E) s (callSteps n clock outcome) = some s' ∧
      s'.flushing = (s.flushing.flush E ⟨.ok (), .ok (), answer⟩).1 ∧
      s'.ended = some (.call n, (s.flushing.flush E ⟨.ok (), .ok (), answer⟩).2) := by
  have hlen : framed.length ≤ s.core.store.pending.length := by
    rw [← frameBatch_fst hframed, List.length_map]
  have hprepared : s.flushing.prepared E ⟨.ok (), .ok (), answer⟩ = .ok framed := hframed
  suffices h : (run (step E) s (callSteps n clock outcome)).map (fun s' => (s'.flushing, s'.ended)) =
      some ((s.flushing.flush E ⟨.ok (), .ok (), answer⟩).1,
        some (.call n, (s.flushing.flush E ⟨.ok (), .ok (), answer⟩).2)) by
    obtain ⟨s', hs', h⟩ := Option.map_eq_some_iff.mp h
    exact ⟨s', hs', Prod.mk.inj h⟩
  have hattempt : s.flushing.flush E ⟨.ok (), .ok (), answer⟩ = s.flushing.attempt E ⟨.ok (), .ok (), answer⟩ := by
    simp [Flushing.flush, State.flushing, hopened, hf, hp, hopen]
  rw [hattempt, Flushing.attempt, hprepared]
  cases answer with
  | accepts count =>
    rw [Answer.outcome] at houtcome
    split at houtcome
    · rename_i hle
      obtain rfl := Option.some.inj houtcome
      have htake := List.take_of_length_le hle
      simp [callSteps, run, step_call, step_work, step_resume, loopStep, hsn, hfree, State.startFlush, hopened, hf, hp, State.work, hopen,
        Core.size, State.resumeFlush, hframed, Core.write, State.popBatch, hlen, afterFlush_call, State.flushing,
        writeUnix, osWrite, htake, flatMap_entriesOf]
    · simp at houtcome
  | raises =>
    obtain rfl := Option.some.inj houtcome
    simp [callSteps, run, step_call, step_work, step_resume, loopStep, hsn, hfree, State.startFlush, hopened, hf, hp, State.work, hopen,
      Core.size, State.resumeFlush, hframed, Core.write, State.failFlush, afterFlush_call, State.flushing,
      writeUnix, osWrite, Flushing.failed]

end Kanta
