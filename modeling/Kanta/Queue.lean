import Kanta.Lib.Drain
import Kanta.Returns

/-!
# The queue and the log

While at most one flush is in flight, the instance drains its queue into the file: every step is a
sequence of steps of `Drain`, with the flush as the drainer.  A batch that has been written is only
forgotten when the cancellation of the background task arrives before the flush has gone on, and
only a write that a cancelled flush left behind appends anything else.
-/

namespace Kanta

open Kanta.Lib Kanta.Lib.Assoc

variable {E : Env}

/-! ### The instance as a drain -/

namespace Entry

/-- The queued change of an entry. -/
def queued : Entry → Option Queued
  | .change q _ => some q
  | _ => none

end Entry

/-- The changes of a log. -/
def changesOf (log : List Entry) : List Queued := log.filterMap Entry.queued

@[simp] lemma changesOf_append (l l' : List Entry) : changesOf (l ++ l') = changesOf l ++ changesOf l' :=
  List.filterMap_append

@[simp] lemma changesOf_entriesOf (batch : List (Queued × Bytes)) :
    changesOf (entriesOf batch) = batch.map Prod.fst := by
  simp [changesOf, entriesOf, List.filterMap_map, Function.comp_def, Entry.queued]

namespace Flight

/-- The batch of a flush, and whether the flush knows that it has been written. -/
def batch : Flight → List Queued × Bool
  | .sizing batch _ => (batch, false)
  | .writing batch (some (.ok ())) => (batch.map Prod.fst, true)
  | .writing batch _ => (batch.map Prod.fst, false)

lemma batch_writing {batch : List (Queued × Bytes)} {result : Option (Except Exc Unit)}
    (h : result ≠ some (.ok ())) : (Flight.writing batch result).batch = (batch.map Prod.fst, false) := by
  rcases result with _ | _ | _
  · rfl
  · rfl
  · exact absurd rfl h

/-- Only a write that succeeded counts as written. -/
lemma batch_snd {f : Flight} (h : ∀ batch, f ≠ .writing batch (some (.ok ()))) : f.batch.2 = false := by
  cases f with
  | sizing => rfl
  | writing batch result =>
    have : result ≠ some (.ok ()) := fun e => h batch (e ▸ rfl)
    rw [batch_writing this]

end Flight

namespace Core

/-- At most one flush is in flight. -/
def Single (c : Core) : Prop := c.flights.length ≤ 1

/-- The queue, the log and the flush in flight. -/
def drain (c : Core) : Drain Queued :=
  ⟨c.store.committed, c.store.pending, changesOf c.log, c.flights.head?.map fun p => p.2.batch⟩

instance (c : Core) : Decidable c.Single := inferInstanceAs (Decidable (_ ≤ _))

variable {c : Core} {o : Owner} {f g : Flight}

lemma Single.of_lookup (h : c.Single) (hl : c.flights.lookup o = some f) : c.flights = [(o, f)] := by
  unfold Single at h
  rcases hf : c.flights with _ | ⟨⟨o', f'⟩, _ | ⟨_, _⟩⟩
  · simp [hf] at hl
  · rw [hf, lookup_cons_if] at hl
    split at hl
    · simp_all
    · simp at hl
  · rw [hf] at h
    simp at h

/-- Only the one flush can begin that finds none in flight. -/
lemma Single.of_put (h : (put o g c.flights).length ≤ 1) (hl : c.flights.lookup o = none) :
    c.flights = [] := by
  rw [put_of_notMem (lookup_eq_none_iff.mp hl)] at h
  simpa using h

lemma remove_of_none (hl : c.flights.lookup o = none) : remove o c.flights = c.flights := by
  refine List.filter_eq_self.mpr fun p hp => ?_
  have := lookup_eq_none_iff.mp hl
  simpa using fun e : p.1 = o => this (e ▸ List.mem_map_of_mem hp)

end Core

@[simp] lemma put_single (o : Owner) (f g : Flight) : put o g [(o, f)] = [(o, g)] := by simp [put]

@[simp] lemma remove_single (o : Owner) (f : Flight) : remove o [(o, f)] = [] := by simp [remove]

/-! ### The refinement -/

/-- The frames of a batch belong to its changes. -/
lemma frameBatch_fst {framer : Framer} {offset : ℕ} {batch : List Queued} {framed : List (Queued × Bytes)}
    (h : frameBatch E framer offset batch = .ok framed) : framed.map Prod.fst = batch := by
  induction batch generalizing offset framed with
  | nil =>
    obtain rfl : [] = framed := Except.ok.inj h
    rfl
  | cons q batch ih =>
    obtain ⟨payload, -, h⟩ := bind_eq_ok.mp h
    obtain ⟨fr, -, h⟩ := bind_eq_ok.mp h
    obtain ⟨rest, hrest, h⟩ := bind_eq_ok.mp h
    obtain rfl := Except.ok.inj h
    rw [List.map_cons, ih hrest]

/-- A write appends all of its entries, or some bytes. -/
lemma write_cases (c : Core) (isOpen : Bool) (entries : List Entry) (outcome : Outcome) :
    (isOpen = true ∧ c.write isOpen entries outcome =
        ({ c with file := c.file ++ entries.flatMap Entry.bytes, log := c.log ++ entries }, .ok ())) ∨
      ∃ torn e, c.write isOpen entries outcome =
        ({ c with file := c.file ++ torn.flatMap Entry.bytes, log := c.log ++ torn }, .error e) ∧
        changesOf torn = [] := by
  unfold Core.write
  split
  · cases outcome with
    | ok => exact Or.inl ⟨‹_›, rfl⟩
    | failed n =>
      refine Or.inr ⟨[.torn ((entries.flatMap Entry.bytes).take n)], .osError, ?_, rfl⟩
      simp [Entry.bytes]
  · exact Or.inr ⟨[], .runtimeError "LockedFile.write() called on a closed file", by simp, rfl⟩

/-- The write of the background flush has run, and the flush has not gone on. -/
def Core.hasWritten (c : Core) : Bool :=
  match c.flights.lookup .background with
  | some (.writing _ (some (.ok ()))) => true
  | _ => false

/-- The steps of the drain that an event can lead to. -/
def Allowed (s : State) (e : Event) : Drain.Act → Prop
  | .forget => ∃ survives clock batch, e = .deliver survives clock ∧
      s.core.flights.lookup .background = some (.writing batch (some (.ok ())))
  | .extra => ∃ outcome, e = .stray outcome ∧ s.isOpen = true
  | _ => True

namespace Effect

variable {s : State} {e : Event} {core : Core}

open Drain

/-- A queued change is pushed. -/
lemma moves_queueChange {c c' : Core} {store store' : Store} {A : Act → Prop} {action : String}
    {current : Dict} {user : Option String} {mtime : Mtime} {force : Bool} {clock : Except Exc DateTime}
    {record : Option ChangeRecord} (hA : A .push)
    (h : store.queueChange action current user mtime force clock = .ok (record, store'))
    (hp : store.pending = c.store.pending) (hc : store.committed = c.store.committed)
    (hs : c'.store = store') (hl : c'.log = c.log) (hf : c'.flights = c.flights) :
    Moves A c.drain c'.drain := by
  rcases store.queueChange_cases h with ⟨-, rfl, -⟩ | ⟨r, -, rfl, -⟩
  · refine .of_eq A ?_
    simp [Core.drain, hp, hc, hs, hl, hf]
  · have : c'.drain = { c.drain with
        pushed := c.drain.pushed ++ [⟨store.committed.length, r⟩]
        queue := c.drain.queue ++ [⟨store.committed.length, r⟩] } := by
      simp [Core.drain, hp, hc, hs, hl, hf, Store.append]
    rw [this]
    exact .one (.push _) hA

/-- What `open` queues is pushed. -/
lemma moves_loaded {c c' : Core} {store : Store} {a : Opening} {rr : ReplayResult} {state : Dict}
    {A : Act → Prop} (hA : A .push) (h : Loaded E c.store a rr state store) (hs : c'.store = store)
    (hl : c'.log = c.log) (hf : c'.flights = c.flights) : Moves A c.drain c'.drain := by
  cases h with
  | refused => exact .of_eq A (by simp [Core.drain, hs, hl, hf])
  | invalid => exact .of_eq A (by simp [Core.drain, hs, hl, hf])
  | stopped => exact .of_eq A (by simp [Core.drain, hs, hl, hf])
  | done migrated normalized version action record store' h hnorm hqueue =>
    exact moves_queueChange hA hqueue rfl rfl hs hl hf

/-- A flush that begins copies the queue. -/
lemma moves_begin {c : Core} {o : Owner} {A : Act → Prop} (hA : A .copy) (hf : c.flights = [])
    (hne : c.store.pending ≠ []) : Moves A c.drain (c.begin o).drain := by
  have : (c.begin o).drain = { c.drain with batch := some (c.drain.queue, false) } := by
    simp [Core.drain, Core.begin, hf, put, Flight.batch]
  rw [this]
  exact .one (.copy (by simp [Core.drain, hf]) hne) hA

/-- The one flush in flight is given up. -/
lemma moves_remove {c : Core} {o : Owner} {f : Flight} {A : Act → Prop} (hf : c.flights = [(o, f)])
    (hA : A .withdraw) (hA' : f.batch.2 = true → A .forget) :
    Moves A c.drain { c with flights := [] }.drain := by
  have : ({ c with flights := [] } : Core).drain = { c.drain with batch := none } := by
    simp [Core.drain]
  rw [this]
  have hb : c.drain.batch = some (f.batch.1, f.batch.2) := by simp [Core.drain, hf]
  cases hw : f.batch.2 with
  | false => exact .one (.withdraw _ (hw ▸ hb)) hA
  | true => exact .one (.forget _ (hw ▸ hb)) (hA' hw)

/-- The cancellation gives up the flush of the background task. -/
lemma moves_abandon {survives : Bool} {clock : Except Exc DateTime} (h : s.core.Single) :
    Moves (Allowed s (.deliver survives clock)) s.core.drain (s.abandon survives).core.drain := by
  rcases hl : s.core.flights.lookup .background with _ | f
  · refine .of_eq _ ?_
    simp [Core.drain, State.abandon, Core.remove_of_none hl]
  · have hf := h.of_lookup hl
    have := moves_remove (A := Allowed s (.deliver survives clock)) hf trivial fun hw => by
      obtain ⟨batch, rfl⟩ : ∃ batch, f = .writing batch (some (.ok ())) := by
        by_contra hne
        have := Flight.batch_snd (f := f) fun batch e => hne ⟨batch, e⟩
        simp [this] at hw
      exact ⟨survives, clock, batch, rfl, hl⟩
    simpa [Core.drain, State.abandon, hf] using this

/-- A write by the one flush appends its batch. -/
lemma moves_write {c c' : Core} {o : Owner} {batch : List (Queued × Bytes)} {isOpen : Bool}
    {outcome : Outcome} {A : Act → Prop} (hA : A .append) (hf : c.flights = [(o, .writing batch none)])
    (hc : c' = { (c.write isOpen (entriesOf batch) outcome).1 with
      flights := [(o, .writing batch (some (c.write isOpen (entriesOf batch) outcome).2))] }) :
    Moves A c.drain c'.drain := by
  subst hc
  rcases write_cases c isOpen (entriesOf batch) outcome with ⟨-, h⟩ | ⟨torn, e, h, ht⟩
  · rw [h]
    have hb : c.drain.batch = some (batch.map Prod.fst, false) := by simp [Core.drain, hf, Flight.batch]
    refine .one (a := .append) ?_ hA
    have := Step.append _ hb
    simpa [Core.drain, Flight.batch] using this
  · rw [h]
    refine .of_eq A ?_
    simp [Core.drain, hf, ht, Flight.batch]

/-- **The code drains its queue**: with at most one flush in flight, before and after, the effect of
an event is a sequence of steps of the drain. -/
theorem moves (h : Effect E s e core) (h1 : s.core.Single) (h2 : core.Single) :
    Moves (Allowed s e) s.core.drain core.drain := by
  cases h with
  | quiet => exact .refl _ _
  | commit c record store h => exact moves_queueChange trivial h rfl rfl rfl rfl rfl
  | begin _ o he hopen hfail hne hfree =>
    exact moves_begin trivial (Core.Single.of_put h2 hfree) hne
  | sized o batch outcome h =>
    refine .of_eq _ ?_
    simp [Core.drain, h1.of_lookup h, Flight.batch]
  | wrote o batch outcome h =>
    have hf := h1.of_lookup h
    have hput : ∀ r, put o (.writing batch r) s.core.flights = [(o, .writing batch r)] := fun r => by
      rw [hf, put_single]
    rw [hput]
    exact moves_write trivial hf rfl
  | framed o clock batch size framed h hframed =>
    refine .of_eq _ ?_
    simp [Core.drain, h1.of_lookup h, Flight.batch, frameBatch_fst hframed]
  | popped o clock batch h =>
    have hf := h1.of_lookup h
    have hb : s.core.drain.batch = some (batch.map Prod.fst, true) := by simp [Core.drain, hf, Flight.batch]
    refine .one (a := .pop) ?_ trivial
    simpa [Core.drain, hf] using Step.pop _ hb
  | failed o clock flight h hno =>
    have hf := h1.of_lookup h
    rw [hf, remove_single]
    exact moves_remove hf trivial fun hw => by simp [Flight.batch_snd hno] at hw
  | stray batch strays outcome h =>
    rcases write_cases { s.core with strays := strays } s.isOpen (entriesOf batch) outcome with
      ⟨ho, hw⟩ | ⟨torn, exc, hw, ht⟩
    · rw [hw]
      refine .one (a := .extra) ?_ ⟨outcome, rfl, ho⟩
      simpa [Core.drain] using Step.extra (d := s.core.drain) (batch.map Prod.fst)
    · rw [hw]
      refine .of_eq _ ?_
      simp [Core.drain, ht]
  | cancelled survives clock h => exact moves_abandon h1
  | restarted survives clock h hopen hfail hne =>
    have hfree : (s.abandon survives).core.flights.lookup .background = none := by
      simp [State.abandon, lookup_remove]
    exact (moves_abandon h1).trans (moves_begin trivial (Core.Single.of_put h2 hfree) hne)
  | snapshot sn framed outcome h hframed =>
    refine .of_eq _ ?_
    rcases write_cases s.core s.isOpen [.snapshot sn.snap framed] outcome with ⟨-, hw⟩ | ⟨torn, exc, hw, ht⟩
    · rw [hw]
      simp [Core.drain, changesOf, Entry.queued]
    · rw [hw]
      simp [Core.drain, ht]
  | unborn => exact .of_eq _ rfl
  | created a current record store hopen hfile hcur h =>
    exact moves_queueChange trivial h rfl rfl rfl rfl rfl
  | unread => exact .of_eq _ rfl
  | loaded a rr state store hopen hfile hreplay hstate h => exact moves_loaded trivial h rfl rfl rfl
  | reloaded a rr state store hopen hfile hreplay hstate h hfail hne hfree =>
    have hl : Moves (Allowed s (.open a)) s.core.drain
        { s.core with framer := s.core.framer.reload s.core.file, store := store }.drain :=
      moves_loaded trivial h rfl rfl rfl
    exact hl.trans (moves_begin trivial (Core.Single.of_put h2 hfree) hne)

lemma drain_queued (h : Effect E s e core) (h1 : s.core.Single) (h2 : core.Single) (hs : s.core.drain.Queued) :
    core.drain.Queued := (h.moves h1 h2).keeps (fun _ _ _ _ hstep hq => hq.step hstep) hs

lemma drain_kept (h : Effect E s e core) (h1 : s.core.Single) (h2 : core.Single) (hs : s.core.drain.Kept) :
    core.drain.Kept := (h.moves h1 h2).keeps (fun _ _ _ _ hstep hk => hk.step hstep) hs

/-- What is given up has not been written, and nothing is written that was given up. -/
lemma drain_exact {base : List Queued} (h : Effect E s e core) (h1 : s.core.Single) (h2 : core.Single)
    (hs : s.core.drain.Exact base) (hleft : ∀ outcome, e = .stray outcome → s.isOpen = false)
    (hwritten : e.isDeliver = true → s.core.hasWritten = false) : core.drain.Exact base := by
  refine (h.moves h1 h2).keeps (fun a _ _ ha hstep hex => hex.step hstep ?_ ?_) hs
  · rintro rfl
    obtain ⟨outcome, he, ho⟩ := ha
    simp [hleft outcome he] at ho
  · rintro rfl
    obtain ⟨survives, clock, batch, he, hl⟩ := ha
    have hno := hwritten (he ▸ rfl)
    simp [Core.hasWritten, hl] at hno

/-- Only a cancellation leaves a write behind. -/
lemma strays_nil (h : Effect E s e core) (hs : s.core.strays = [])
    (hdel : e.isDeliver = true → s.core.flights = []) : core.strays = [] := by
  cases h with
  | cancelled => simp [State.abandon, hdel rfl, hs]
  | restarted => simp [State.abandon, Core.begin, hdel rfl, hs]
  | stray batch strays outcome h => simp [hs] at h
  | wrote | snapshot => simpa using hs
  | quiet | commit | begin | sized | framed | popped | failed | unborn | created | unread | loaded
  | reloaded => exact hs

end Effect

/-! ### The changes are numbered -/

/-- Each committed change bears its place in the history. -/
def Numbered (c : Core) : Prop := c.store.committed.map Queued.id = List.range c.store.committed.length

lemma Numbered.queueChange {store store' : Store} {action : String} {current : Dict} {user : Option String}
    {mtime : Mtime} {force : Bool} {clock : Except Exc DateTime} {record : Option ChangeRecord}
    (h : store.committed.map Queued.id = List.range store.committed.length)
    (hq : store.queueChange action current user mtime force clock = .ok (record, store')) :
    store'.committed.map Queued.id = List.range store'.committed.length := by
  rcases store.queueChange_cases hq with ⟨-, rfl, -⟩ | ⟨r, -, rfl, -⟩
  · exact h
  · simp [Store.append, h, List.range_succ]

lemma Numbered.effect {s : State} {e : Event} {core : Core} (h : Numbered s.core)
    (he : Effect E s e core) : Numbered core := by
  have hload : ∀ {a rr state store}, Loaded E s.core.store a rr state store →
      store.committed.map Queued.id = List.range store.committed.length := fun hl => by
    cases hl with
    | refused => exact h
    | invalid => exact h
    | stopped => exact h
    | done migrated normalized version action record store' hm hn hq =>
      refine Numbered.queueChange ?_ hq
      exact h
  cases he with
  | commit c record store hq => exact Numbered.queueChange h hq
  | created a current record store _ _ _ hq =>
    refine Numbered.queueChange ?_ hq
    exact h
  | loaded _ _ _ _ _ _ _ _ hl => exact hload hl
  | reloaded _ _ _ _ _ _ _ _ hl => exact hload hl
  | wrote | stray | snapshot => simpa [Numbered] using h
  | quiet | begin | sized | framed | popped | failed | cancelled | restarted | unborn | unread => exact h

/-- A change behind the first `k` has a number of at least `k`. -/
lemma Numbered.le {c : Core} (h : Numbered c) {k : ℕ} {q : Queued} (hq : q ∈ c.store.committed.drop k) :
    k ≤ q.id := by
  obtain ⟨i, hi, rfl⟩ := List.mem_iff_getElem.mp hq
  have hid : (c.store.committed.map Queued.id)[k + i]? = some (k + i) := by
    rw [h, List.getElem?_range (by simp at hi; omega)]
  rw [List.getElem?_map] at hid
  simp only [List.getElem_drop]
  obtain ⟨q, hq, hk⟩ := Option.map_eq_some_iff.mp hid
  rw [List.getElem?_eq_some_iff] at hq
  obtain ⟨_, rfl⟩ := hq
  omega

/-! ### One flush at a time -/

/-- What holds as long as at most one flush is in flight. -/
structure OneFlush (s : State) : Prop where
  control : Control s
  single : s.core.Single
  queued : s.core.drain.Queued
  failed : s.flushFailed = true → s.core.flights = []
  snapping : ∀ sn, s.snapping = some sn → s.core.flights = []

namespace OneFlush

variable {s s' : State} {e : Event}

lemma init (statedict : Dict) (version : ℤ) (framer : Framer) (file : Bytes) :
    OneFlush (.init statedict version framer file) where
  control := control_init statedict version framer file
  single := by simp [Core.Single, State.init]
  queued := ⟨List.suffix_rfl, by simp [Core.drain, State.init], by simp [Core.drain, State.init]⟩
  failed _ := rfl
  snapping _ _ := rfl

/-- A flush in flight has copied a front of the queue. -/
lemma batch_prefix {o : Owner} {f : Flight} (hs : OneFlush s) (h : s.core.flights.lookup o = some f) :
    f.batch.1 <+: s.core.store.pending ∧ f.batch.1 ≠ [] := by
  have hb : s.core.drain.batch = some (f.batch.1, f.batch.2) := by
    simp [Core.drain, hs.single.of_lookup h]
  exact ⟨hs.queued.front _ _ hb, hs.queued.ne_nil _ _ hb⟩

/-- With an empty queue no flush is in flight. -/
lemma flights_of_pending (hs : s.core.drain.Queued) (h : s.core.store.pending = []) :
    s.core.flights = [] := by
  rcases hf : s.core.flights with _ | ⟨⟨o, f⟩, r⟩
  · rfl
  · have hb : s.core.drain.batch = some (f.batch.1, f.batch.2) := by simp [Core.drain, hf]
    have hp := hs.front _ _ hb
    rw [show s.core.drain.queue = [] from h, List.prefix_nil] at hp
    exact absurd hp (hs.ne_nil _ _ hb)

/-- Without a flush in flight none appears, unless one begins. -/
lemma flights_nil {core : Core} (h : Effect E s e core) (hf : s.core.flights = [])
    (hno : s.flushFailed = true ∨ e.IsJob) : core.flights = [] := by
  have hl : ∀ o, s.core.flights.lookup o = none := fun o => by simp [hf]
  cases h with
  | quiet => exact hf
  | commit => exact hf
  | begin _ o he hopen hfail => exact (hno.elim (fun h => by simp [hfail] at h) he.not_job).elim
  | sized o batch outcome h => simp [hl] at h
  | wrote o batch outcome h => simp [hl] at h
  | framed o clock batch size framed h => simp [hl] at h
  | popped o clock batch h => simp [hl] at h
  | failed o clock flight h => simp [hl] at h
  | stray => simpa using hf
  | cancelled => simp [State.abandon, hf, remove]
  | restarted _ _ _ _ hfail => exact (hno.elim (fun h => by simp [hfail] at h) id).elim
  | snapshot => simpa using hf
  | unborn => exact hf
  | created => exact hf
  | unread => exact hf
  | loaded => exact hf
  | reloaded _ _ _ _ _ _ _ _ _ hfail => exact (hno.elim (fun h => by simp [hfail] at h) id).elim

/-- **One flush at a time** stays so when no second flush begins. -/
theorem step (hs : OneFlush s) (h : Kanta.step E s e = some s') (h1 : s'.core.Single) : OneFlush s' := by
  have heff := step_effect hs.control h
  have hflow := step_flow h
  have hqueued := heff.drain_queued hs.single h1 hs.queued
  have hfailed : s'.flushFailed = true → s'.core.flights = [] := fun hf => by
    rcases hflow.flushFailed with h | ⟨o, clock, rfl, hl, hr⟩
    · have hf := h ▸ hf
      exact flights_nil heff (hs.failed hf) (Or.inl hf)
    · obtain ⟨f, hl⟩ := Option.ne_none_iff_exists'.mp hl
      rw [hr, hs.single.of_lookup hl, remove_single]
  refine ⟨hs.control.step h, h1, hqueued, hfailed, fun sn hsn => ?_⟩
  rcases hflow.snapping sn hsn with ⟨hsn, hjob⟩ | ⟨-, o, hend⟩
  · exact flights_nil heff (hs.snapping sn hsn) (Or.inr hjob)
  · cases hflow.ended o hend with
    | popped clock batch he hl hlen hcore => rw [hcore, hs.single.of_lookup hl, remove_single]
    | idle _ hp => exact flights_of_pending hqueued hp
    | failed _ he hf =>
      rcases hflow.flushFailed with h | ⟨o', clock, rfl, hl, -⟩
      · exact hfailed (h.trans hf)
      · simp [hs.failed hf] at hl

end OneFlush

/-! ### A batch that is the whole queue -/

/-- A flush of an owner in `P` has copied all that is queued. -/
def Whole (P : Owner → Prop) (c : Core) : Prop := ∀ p ∈ c.flights, P p.1 → p.2.batch.1 = c.store.pending

namespace Whole

variable {P : Owner → Prop} {s : State} {e : Event} {core : Core}

lemma of_nil {c : Core} (h : c.flights = []) : Whole P c := by simp [Whole, h]

lemma begin {c : Core} {o : Owner} (h : c.flights = []) : Whole P (c.begin o) := by
  simp [Whole, Core.begin, h, put, Flight.batch]

lemma single {c c' : Core} {o : Owner} {f g : Flight} (h : Whole P c) (hf : c.flights = [(o, f)])
    (hf' : c'.flights = [(o, g)]) (hb : g.batch.1 = f.batch.1) (hp : c'.store.pending = c.store.pending) :
    Whole P c' := by
  simp only [Whole, hf, hf', List.mem_singleton, forall_eq, hp, hb] at h ⊢
  exact h

/-- A queued change is no exception when it does not enter the history. -/
lemma queueChange {store store' : Store} {action : String} {current : Dict} {user : Option String}
    {mtime : Mtime} {force : Bool} {clock : Except Exc DateTime} {record : Option ChangeRecord}
    (h : store.queueChange action current user mtime force clock = .ok (record, store'))
    (hc : store'.committed.length = store.committed.length) : store'.pending = store.pending := by
  rcases store.queueChange_cases h with ⟨-, rfl, -⟩ | ⟨r, -, rfl, -⟩
  · rfl
  · simp [Store.append] at hc

lemma loaded {store store' : Store} {a : Opening} {rr : ReplayResult} {state : Dict}
    (h : Loaded E store a rr state store') (hc : store'.committed.length = store.committed.length) :
    store'.pending = store.pending := by
  cases h with
  | refused => rfl
  | invalid => rfl
  | stopped => rfl
  | done migrated normalized version action record store' hm hn hq => exact (queueChange hq hc :)

/-- **A whole batch stays whole** when nothing is committed while such a flush is in flight. -/
theorem effect (hw : Whole P s.core) (h : Effect E s e core) (h1 : s.core.Single) (h2 : core.Single)
    (hc : (∃ p ∈ s.core.flights, P p.1) →
      core.store.committed.length = s.core.store.committed.length) :
    Whole P core := by
  -- the store changes, the flights do not
  have hstore : ∀ c : Core, c.flights = s.core.flights →
      (c.store.committed.length = s.core.store.committed.length →
        c.store.pending = s.core.store.pending) →
      c.store.committed.length = core.store.committed.length → Whole P c := fun c hf hp hcc p hm hP => by
    rw [hf] at hm
    rw [hp (hcc.trans (hc ⟨p, hm, hP⟩))]
    exact hw p hm hP
  cases h with
  | quiet => exact hw
  | commit c record store h => exact hstore _ rfl (fun hcc => queueChange h hcc) rfl
  | begin _ o he hopen hfail hne hfree => exact begin (Core.Single.of_put h2 hfree)
  | sized o batch outcome h =>
    have hf := h1.of_lookup h
    exact hw.single (g := .sizing batch (some (s.core.size s.isOpen outcome))) hf
      (by rw [hf, put_single]) rfl rfl
  | wrote o batch outcome h =>
    have hf := h1.of_lookup h
    refine hw.single hf (by rw [hf, put_single]) ?_ (by simp)
    rcases (s.core.write s.isOpen (entriesOf batch) outcome).2 with _ | _ <;> rfl
  | framed o clock batch size framed h hframed =>
    have hf := h1.of_lookup h
    refine hw.single hf (by rw [hf, put_single]) ?_ rfl
    exact frameBatch_fst hframed
  | popped o clock batch h => exact of_nil (by simp [h1.of_lookup h])
  | failed o clock flight h => exact of_nil (by simp [h1.of_lookup h])
  | stray batch strays outcome h => simpa [Whole] using hw
  | cancelled survives clock h =>
    intro p hm
    exact hw p (mem_of_mem_remove hm)
  | restarted survives clock h hopen hfail hne =>
    have hfree : (s.abandon survives).core.flights.lookup .background = none := by
      simp [State.abandon, lookup_remove]
    exact begin (Core.Single.of_put h2 hfree)
  | snapshot => simpa [Whole] using hw
  | unborn => exact hw
  | created a current record store _ _ _ h => exact hstore _ rfl (fun hcc => (queueChange h hcc :)) rfl
  | unread => exact hw
  | loaded a rr state store _ _ _ _ h => exact hstore _ rfl (fun hcc => loaded h hcc) rfl
  | reloaded a rr state store _ _ _ _ h _ hne hfree => exact begin (Core.Single.of_put h2 hfree)

/-- A whole batch that is popped leaves nothing. -/
lemma drop_eq_nil {c : Core} {o : Owner} {batch : List (Queued × Bytes)} {result : Option (Except Exc Unit)}
    (hw : Whole P c) (h1 : c.Single) (hl : c.flights.lookup o = some (.writing batch result)) (ho : P o) :
    c.store.pending.drop batch.length = [] := by
  have hwhole := hw _ (by rw [h1.of_lookup hl]; exact List.mem_singleton_self _) ho
  rw [← hwhole]
  rcases result with _ | _ | _ <;> simp [Flight.batch]

/-- When `close` returns after a flush of the whole queue, the queue is empty. -/
lemma pending_nil {s' : State} (hw : Whole (· = .closing) s.core) (h1 : s.core.Single)
    (hf : s.flushFailed = false) (h : step E s e = some s') (hend : s'.ended = some (.closing, .ok ())) :
    s'.core.store.pending = [] := by
  cases (step_flow h).ended _ hend with
  | idle _ hp => exact hp
  | failed _ _ hfail => simp [hf] at hfail
  | popped clock batch he hl hlen hcore =>
    rw [hcore]
    exact hw.drop_eq_nil h1 hl rfl

end Whole

/-! ### What a run shows -/

/-- The flush that returned in the last step and whether it did so normally, the session, and the
numbers of the committed, the queued and the appended changes. -/
structure Seen where
  returned : Option (Owner × Bool)
  opened : Bool
  session : ℕ
  committed : List ℕ
  pending : List ℕ
  log : List ℕ
deriving DecidableEq

def State.seen (s : State) : Seen where
  returned := s.ended.map fun p => (p.1, p.2.isOk)
  opened := s.opened
  session := s.session
  committed := s.core.store.committed.map Queued.id
  pending := s.core.store.pending.map Queued.id
  log := (changesOf s.core.log).map Queued.id

lemma ended_of_seen {s : State} {o : Owner} (h : s.seen.returned = some (o, true)) :
    s.ended = some (o, .ok ()) := by
  obtain ⟨⟨o', r⟩, he, heq⟩ := Option.map_eq_some_iff.mp h
  obtain ⟨rfl, hr⟩ := Prod.mk.inj heq
  cases r with
  | error => simp [Except.isOk, Except.toBool] at hr
  | ok => exact he

end Kanta
