import Kanta.Queue

/-!
# Where the frames lie

The file is what it held at first and, behind it, what was appended, in order.  `Written` says that
each appended change is a frame of its own record; it needs no assumption.  `Located` says more:
while at most one flush is in flight and no write that a cancelled flush left behind reaches the
file, every frame lies at the offset it was computed for.
-/

namespace Kanta

open Kanta.Lib Kanta.Lib.Assoc

variable {E : Env}

/-! ### Frames of records -/

namespace Entry

/-- The entry is the frame of its record at `offset`. -/
def FramedAt (E : Env) (framer : Framer) (offset : ℕ) : Entry → Prop
  | .change q bytes => ∃ payload, E.ser.encodeChange q.record = .ok payload ∧
      framer.frameChange E.blake3 payload offset = .ok bytes
  | .snapshot snap bytes => ∃ payload, E.ser.encodeSnapshot snap = .ok payload ∧
      framer.frameSnapshot E.blake3 payload offset = .ok bytes
  | .torn _ => True

/-- A change was appended as a frame of its own record. -/
def Framed (E : Env) (entry : Entry) : Prop :=
  ∀ q bytes, entry = .change q bytes → ∃ framer offset, entry.FramedAt E framer offset

/-- The record of the entry. -/
def record : Entry → Option Record
  | .change q _ => some (.change q.record)
  | .snapshot snap _ => some (.snapshot snap)
  | .torn _ => none

end Entry

/-- The entries are the frames of their records, the first at `offset`. -/
def Placed (E : Env) (framer : Framer) : ℕ → List Entry → Prop
  | _, [] => True
  | offset, entry :: log => entry.FramedAt E framer offset ∧ Placed E framer (offset + entry.bytes.length) log

lemma placed_append {framer : Framer} {offset : ℕ} {log more : List Entry} :
    Placed E framer offset (log ++ more) ↔
      Placed E framer offset log ∧ Placed E framer (offset + (log.flatMap Entry.bytes).length) more := by
  induction log generalizing offset with
  | nil => simp [Placed]
  | cons entry log ih => simp [Placed, ih, and_assoc, Nat.add_assoc]

/-- A batch that was framed from `offset` on. -/
lemma placed_entriesOf {framer : Framer} {offset : ℕ} {batch : List Queued} {framed : List (Queued × Bytes)}
    (h : frameBatch E framer offset batch = .ok framed) : Placed E framer offset (entriesOf framed) := by
  induction batch generalizing offset framed with
  | nil =>
    obtain rfl : [] = framed := Except.ok.inj h
    trivial
  | cons q batch ih =>
    obtain ⟨payload, hp, h⟩ := bind_eq_ok.mp h
    obtain ⟨fr, hfr, h⟩ := bind_eq_ok.mp h
    obtain ⟨rest, hrest, h⟩ := bind_eq_ok.mp h
    obtain rfl := Except.ok.inj h
    exact ⟨⟨payload, hp, hfr⟩, ih hrest⟩

lemma Placed.framedAt {framer : Framer} {offset : ℕ} {log : List Entry} (h : Placed E framer offset log) :
    ∀ entry ∈ log, ∃ k, entry.FramedAt E framer k := by
  induction log generalizing offset with
  | nil => simp
  | cons entry log ih => exact List.forall_mem_cons.mpr ⟨⟨offset, h.1⟩, ih h.2⟩

lemma framed_entriesOf {framer : Framer} {offset : ℕ} {batch : List Queued} {framed : List (Queued × Bytes)}
    (h : frameBatch E framer offset batch = .ok framed) : ∀ entry ∈ entriesOf framed, entry.Framed E :=
  fun entry he _ _ _ => ⟨framer, (placed_entriesOf h).framedAt entry he⟩

/-! ### The file grows by frames of its own changes -/

/-- What was appended lies behind what the file held at first, and each change in it is a frame of
its own record. -/
structure Written (E : Env) (file : Bytes) (c : Core) : Prop where
  file_eq : c.file = file ++ c.log.flatMap Entry.bytes
  log : ∀ entry ∈ c.log, entry.Framed E
  flights : ∀ o batch result, (o, Flight.writing batch result) ∈ c.flights →
    ∀ entry ∈ entriesOf batch, entry.Framed E
  strays : ∀ batch ∈ c.strays, ∀ entry ∈ entriesOf batch, entry.Framed E

namespace Written

variable {file : Bytes} {c : Core}

lemma write {isOpen : Bool} {entries : List Entry} {outcome : Outcome} (h : Written E file c)
    (he : ∀ entry ∈ entries, entry.Framed E) : Written E file (c.write isOpen entries outcome).1 := by
  obtain ⟨hfile, hlog, hfl, hst⟩ := h
  rcases write_cases c isOpen entries outcome with ⟨-, hw⟩ | ⟨torn, exc, hw, ht⟩
  · rw [hw]
    refine ⟨by simp [hfile], fun entry h => ?_, hfl, hst⟩
    exact (List.mem_append.mp h).elim (hlog entry) (he entry)
  · rw [hw]
    refine ⟨by simp [hfile], fun entry h => ?_, hfl, hst⟩
    rcases List.mem_append.mp h with h | h
    · exact hlog entry h
    · rintro q bytes rfl
      have : q ∈ changesOf torn := List.mem_filterMap.mpr ⟨_, h, rfl⟩
      simp [ht] at this

lemma put {o : Owner} {f : Flight} (h : Written E file c)
    (hf : ∀ batch result, f = .writing batch result → ∀ entry ∈ entriesOf batch, entry.Framed E) :
    Written E file { c with flights := Assoc.put o f c.flights } := by
  refine ⟨h.file_eq, h.log, fun o' batch result hm => ?_, h.strays⟩
  rcases mem_put hm with ⟨-, rfl⟩ | hm
  · exact hf batch result rfl
  · exact h.flights o' batch result hm

lemma remove {o : Owner} (h : Written E file c) :
    Written E file { c with flights := Assoc.remove o c.flights } :=
  ⟨h.file_eq, h.log, fun o' batch result hm => h.flights o' batch result (mem_of_mem_remove hm), h.strays⟩

lemma store {store : Store} (h : Written E file c) : Written E file { c with store := store } :=
  ⟨h.file_eq, h.log, h.flights, h.strays⟩

lemma begin {o : Owner} (h : Written E file c) : Written E file (c.begin o) :=
  h.put fun _ _ e => by simp at e

lemma abandon {s : State} {survives : Bool} (h : Written E file s.core) :
    Written E file (s.abandon survives).core := by
  refine ⟨h.file_eq, h.log, h.remove.flights, fun batch hm => ?_⟩
  dsimp only [State.abandon] at hm
  split at hm
  · rename_i b hl
    rcases List.mem_append.mp hm with hm | hm
    · exact h.strays batch hm
    · rw [List.mem_singleton.mp hm]
      exact h.flights _ b none (mem_of_lookup hl)
  · exact h.strays batch hm

/-- **Every event** appends frames of changes only. -/
theorem effect {s : State} {e : Event} {core : Core} (h : Written E file s.core)
    (he : Effect E s e core) : Written E file core := by
  cases he with
  | quiet => exact h
  | commit => exact h.store
  | begin => exact h.begin
  | sized => exact h.put fun _ _ e => by simp at e
  | wrote o batch outcome hl =>
    have hb := h.flights o batch none (mem_of_lookup hl)
    have hw : Written E file (s.core.write s.isOpen (entriesOf batch) outcome).1 := h.write hb
    have := hw.put (o := o)
      (f := .writing batch (some (s.core.write s.isOpen (entriesOf batch) outcome).2)) fun _ _ e => by
        obtain ⟨rfl, -⟩ := Flight.writing.inj e
        exact hb
    simpa using this
  | framed o clock batch size framed hl hf =>
    exact h.put fun _ _ e => by
      obtain ⟨rfl, -⟩ := Flight.writing.inj e
      exact framed_entriesOf hf
  | popped => exact h.remove.store
  | failed => exact h.remove
  | stray batch strays outcome hs =>
    have hb : ∀ b ∈ batch :: strays, ∀ entry ∈ entriesOf b, entry.Framed E := hs ▸ h.strays
    rw [List.forall_mem_cons] at hb
    exact write ⟨h.file_eq, h.log, h.flights, hb.2⟩ hb.1
  | cancelled => exact h.abandon
  | restarted => exact h.abandon.begin
  | snapshot => exact h.write fun entry he q bytes e => by simp [e] at he
  | unborn => exact h.store
  | created => exact h.store
  | unread => exact ⟨h.file_eq, h.log, h.flights, h.strays⟩
  | loaded => exact ⟨h.file_eq, h.log, h.flights, h.strays⟩
  | reloaded => exact begin ⟨h.file_eq, h.log, h.flights, h.strays⟩

end Written

/-! ### The framer of a file -/

namespace Framer

variable {framer fr : Framer} {data : Bytes}

lemma load_nil (framer : Framer) : framer.load [] = .ok framer := by cases framer <;> rfl

/-- Loading keeps the format. -/
lemma load_kind (h : framer.load data = .ok fr) :
    (framer = .line ∧ fr = .line) ∨ ∃ sync sync', framer = .bin sync ∧ fr = .bin sync' := by
  cases framer with
  | line => exact Or.inl ⟨rfl, (Except.ok.inj h).symm⟩
  | bin sync =>
    rw [load] at h
    split at h
    · exact Or.inr ⟨sync, sync, rfl, (Except.ok.inj h).symm⟩
    · split at h
      · simp at h
      · exact Or.inr ⟨sync, _, rfl, (Except.ok.inj h).symm⟩

/-- The seed comes from the first bytes of the file. -/
lemma load_append (h : framer.load data = .ok fr) (hne : data ≠ []) (more : Bytes) :
    framer.load (data ++ more) = .ok fr := by
  cases framer with
  | line => exact h
  | bin sync =>
    rw [load, if_neg hne] at h
    rw [load, if_neg (by simp [hne])]
    split at h
    · simp at h
    · rename_i hlen
      rw [dif_neg (by simp; omega), ← h]
      simp only [Sync.ofData, List.take_append_of_le_length (show 4 ≤ data.length by omega)]

/-- A framer that has taken over the seed finds it again. -/
lemma load_self (h : framer.load data = .ok fr) (hne : data ≠ []) : fr.load data = .ok fr := by
  cases framer with
  | line =>
    obtain rfl : Framer.line = fr := Except.ok.inj h
    rfl
  | bin sync =>
    rw [load, if_neg hne] at h
    split at h
    · simp at h
    · rename_i hlen
      obtain rfl := Except.ok.inj h
      rw [load, if_neg hne, dif_neg hlen]

lemma reload_of_load (h : framer.load data = .ok fr) : framer.reload data = fr := by
  rw [reload, h]

end Framer

/-- No append has failed: each entry is the frame of a record. -/
def Complete (log : List Entry) : Prop := ∀ entry ∈ log, entry.record ≠ none

lemma complete_entriesOf (batch : List (Queued × Bytes)) : Complete (entriesOf batch) := fun entry he => by
  obtain ⟨p, -, rfl⟩ := List.mem_map.mp he
  simp [Entry.record]

/-- The frames of a file that was empty bring the seed of their framer along. -/
lemma load_placed {framer : Framer} {log : List Entry} (h : Placed E framer 0 log)
    (hrec : Complete log) :
    framer.load (log.flatMap Entry.bytes) = .ok framer := by
  cases framer with
  | line => rfl
  | bin sync =>
    rcases log with _ | ⟨entry, log⟩
    · rfl
    · have hframe : ∃ isSnapshot payload,
          (Framer.bin sync).frame E.blake3 isSnapshot payload 0 = .ok entry.bytes := by
        cases entry with
        | change q bytes =>
          obtain ⟨payload, -, hfr⟩ := h.1
          exact ⟨false, payload, hfr⟩
        | snapshot snap bytes =>
          obtain ⟨payload, -, hfr⟩ := h.1
          exact ⟨true, payload, hfr⟩
        | torn => exact absurd rfl (hrec _ List.mem_cons_self)
      obtain ⟨isSnapshot, payload, hfr⟩ := hframe
      obtain ⟨sum, len, -, -, hb⟩ := frame_bin E.blake3 hfr
      rw [List.flatMap_cons, hb, if_pos rfl, List.append_assoc]
      exact load_bin _

/-- The bytes of entries that are all complete are the frames of their records. -/
lemma frameRecords_of_placed {framer : Framer} {offset : ℕ} {log : List Entry}
    (h : Placed E framer offset log) (hrec : Complete log) :
    frameRecords E.blake3 E.ser framer offset (log.filterMap Entry.record) =
      .ok (log.flatMap Entry.bytes) := by
  induction log generalizing offset with
  | nil => rfl
  | cons entry log ih =>
    rw [Complete, List.forall_mem_cons] at hrec
    have htail := ih h.2 hrec.2
    cases entry with
    | change q bytes =>
      obtain ⟨payload, hp, hfr⟩ := h.1
      simp only [List.filterMap_cons, Entry.record, frameRecords, Serializer.encode, hp, bind_eq_ok,
        Record.isSnapshot, List.flatMap_cons, Entry.bytes]
      exact ⟨payload, rfl, bytes, hfr, _, htail, rfl⟩
    | snapshot snap bytes =>
      obtain ⟨payload, hp, hfr⟩ := h.1
      simp only [List.filterMap_cons, Entry.record, frameRecords, Serializer.encode, hp, bind_eq_ok,
        Record.isSnapshot, List.flatMap_cons, Entry.bytes]
      exact ⟨payload, rfl, bytes, hfr, _, htail, rfl⟩
    | torn => exact absurd rfl hrec.1

/-! ### Every frame lies at its offset -/

/-- A write that leaves a complete log has appended everything or nothing. -/
lemma write_of_complete {c : Core} {isOpen : Bool} {entries : List Entry} {outcome : Outcome}
    (h : Complete (c.write isOpen entries outcome).1.log) :
    c.write isOpen entries outcome =
        ({ c with file := c.file ++ entries.flatMap Entry.bytes, log := c.log ++ entries }, .ok ()) ∨
      ∃ e, c.write isOpen entries outcome = (c, .error e) := by
  unfold Core.write at h ⊢
  split
  · cases outcome with
    | ok => exact Or.inl rfl
    | failed n => exact absurd rfl (h (.torn ((entries.flatMap Entry.bytes).take n)) (by simp [*]))
  · exact Or.inr ⟨_, rfl⟩

/-- Without an I/O error every append is complete. -/
lemma Effect.complete {s : State} {e : Event} {core : Core} (h : Effect E s e core)
    (hsucc : e.succeeds = true) (hc : Complete s.core.log) : Complete core.log := by
  have hwrite : ∀ {c : Core} {isOpen : Bool} {entries : List Entry} {outcome : Outcome},
      Complete c.log → Complete entries → (∀ n, outcome ≠ .failed n) →
      Complete (c.write isOpen entries outcome).1.log := by
    intro c isOpen entries outcome hc he hok
    unfold Core.write
    split
    · cases outcome with
      | ok => exact fun entry h => (List.mem_append.mp h).elim (hc entry) (he entry)
      | failed n => exact absurd rfl (hok n)
    · exact hc
  cases h with
  | wrote o batch outcome =>
    exact hwrite hc (complete_entriesOf batch) fun n => by
      rintro rfl
      simp [Event.succeeds] at hsucc
  | stray batch strays outcome =>
    exact hwrite (c := { s.core with strays := strays }) hc (complete_entriesOf batch) fun n => by
      rintro rfl
      simp [Event.succeeds] at hsucc
  | snapshot sn framed outcome =>
    exact hwrite hc (by simp [Complete, Entry.record]) fun n => by
      rintro rfl
      simp [Event.succeeds] at hsucc
  | quiet | commit | begin | sized | framed | popped | failed | cancelled | restarted | unborn | created
  | unread | loaded | reloaded => exact hc

/-- The log lies in the file, each frame at its offset, and a flush in flight knows where its batch
will lie. -/
structure Aligned (E : Env) (file : Bytes) (c : Core) : Prop where
  file_eq : c.file = file ++ c.log.flatMap Entry.bytes
  placed : Placed E c.framer file.length c.log
  complete : Complete c.log
  sized : ∀ o batch n, (o, Flight.sizing batch (some (.ok n))) ∈ c.flights → n = c.file.length
  framed : ∀ o batch, (o, Flight.writing batch none) ∈ c.flights →
    frameBatch E c.framer c.file.length (batch.map Prod.fst) = .ok batch

namespace Aligned

variable {file : Bytes} {c : Core}

/-- Entries that are appended where they were framed. -/
lemma append {entries : List Entry} {flights : List (Owner × Flight)} (h : Aligned E file c)
    (hp : Placed E c.framer c.file.length entries) (hc : Complete entries)
    (hf : ∀ o f, (o, f) ∈ flights → ∃ batch result, f = .writing batch (some result)) :
    Aligned E file { c with
      file := c.file ++ entries.flatMap Entry.bytes, log := c.log ++ entries, flights := flights } := by
  refine ⟨by simp [h.file_eq], ?_, fun entry he => ?_, fun o batch n hm => ?_, fun o batch hm => ?_⟩
  · rw [h.file_eq, List.length_append] at hp
    exact placed_append.mpr ⟨h.placed, hp⟩
  · exact (List.mem_append.mp he).elim (h.complete entry) (hc entry)
  · obtain ⟨_, _, e⟩ := hf _ _ hm
    simp at e
  · obtain ⟨_, _, e⟩ := hf _ _ hm
    simp at e

/-- Only the store and the flights change, and the flights say the same or less. -/
lemma keep {c' : Core} (h : Aligned E file c) (h1 : c'.file = c.file) (h2 : c'.log = c.log)
    (h3 : c'.framer = c.framer)
    (hs : ∀ o batch n, (o, Flight.sizing batch (some (.ok n))) ∈ c'.flights → n = c.file.length)
    (hw : ∀ o batch, (o, Flight.writing batch none) ∈ c'.flights →
      frameBatch E c.framer c.file.length (batch.map Prod.fst) = .ok batch) : Aligned E file c' := by
  refine ⟨by rw [h1, h2, h.file_eq], ?_, ?_, ?_, ?_⟩
  · rw [h2, h3]
    exact h.placed
  · rw [h2]
    exact h.complete
  · rw [h1]
    exact hs
  · rw [h1, h3]
    exact hw

lemma keep_nil {c' : Core} (h : Aligned E file c) (h1 : c'.file = c.file) (h2 : c'.log = c.log)
    (h3 : c'.framer = c.framer) (hf : c'.flights = []) : Aligned E file c' :=
  h.keep h1 h2 h3 (by simp [hf]) (by simp [hf])

lemma begin {o : Owner} (h : Aligned E file c) (hf : c.flights = []) : Aligned E file (c.begin o) :=
  h.keep rfl rfl rfl (by simp [Core.begin, hf, put]) (by simp [Core.begin, hf, put])

lemma reload (h : Aligned E file c) {framer : Framer} {store : Store}
    (hr : framer = c.framer ∨ c.log = [] ∧ c.flights = []) :
    Aligned E file { c with framer := framer, store := store } := by
  rcases hr with rfl | ⟨hl, hf⟩
  · exact ⟨h.file_eq, h.placed, h.complete, h.sized, h.framed⟩
  · exact ⟨h.file_eq, by simp [hl, Placed], h.complete, by simp [hf], by simp [hf]⟩

/-- **Every event** leaves each frame at its offset, when one flush is in flight at most, no write
fails, and none that was left behind reaches the file. -/
theorem effect {s : State} {e : Event} {core : Core} (h : Aligned E file s.core) (h1 : s.core.Single)
    (h2 : core.Single) (hcomplete : Complete core.log)
    (hstray : ∀ outcome, e = .stray outcome → s.isOpen = false)
    (hsn : ∀ sn, s.snapping = some sn → s.core.flights = [] ∧ sn.offset = s.core.file.length ∧
      E.ser.encodeSnapshot sn.snap = .ok sn.payload)
    (hfr : s.core.file ≠ [] → s.opened = false →
      s.core.framer.reload s.core.file = s.core.framer ∨ s.core.log = [] ∧ s.core.flights = [])
    (he : Effect E s e core) : Aligned E file core := by
  have habandon : ∀ survives, Aligned E file (s.abandon survives).core := fun survives =>
    h.keep rfl rfl rfl (fun o batch n hm => h.sized o batch n (mem_of_mem_remove hm))
      fun o batch hm => h.framed o batch (mem_of_mem_remove hm)
  cases he with
  | quiet => exact h
  | commit => exact ⟨h.file_eq, h.placed, h.complete, h.sized, h.framed⟩
  | begin _ o _ _ _ _ hfree => exact h.begin (Core.Single.of_put h2 hfree)
  | sized o batch outcome hl =>
    refine h.keep rfl rfl rfl (fun o' b n hm => ?_) fun o' b hm => ?_
    · simp only [h1.of_lookup hl, put_single, List.mem_singleton, Prod.mk.injEq, Flight.sizing.injEq,
        Option.some.injEq] at hm
      obtain ⟨-, -, hn⟩ := hm
      unfold Core.size at hn
      split at hn
      · cases outcome with
        | ok => exact Except.ok.inj hn
        | failed => simp at hn
      · simp at hn
    · simp [h1.of_lookup hl] at hm
  | wrote o batch outcome hl =>
    have hf := h1.of_lookup hl
    have hframed := h.framed o batch (by simp [hf])
    have hflights : ∀ r : Except Exc Unit, ∀ o' f, (o', f) ∈ put o (.writing batch (some r)) s.core.flights →
        ∃ batch result, f = Flight.writing batch (some result) := fun r o' f hm => by
      simp only [hf, put_single, List.mem_singleton, Prod.mk.injEq] at hm
      exact ⟨batch, r, hm.2⟩
    rcases write_of_complete hcomplete with hw | ⟨exc, hw⟩
    · rw [hw]
      exact h.append (placed_entriesOf hframed) (complete_entriesOf batch) (hflights (.ok ()))
    · rw [hw]
      refine h.keep rfl rfl rfl (fun o' b n hm => ?_) fun o' b hm => ?_
      · obtain ⟨_, _, e⟩ := hflights _ _ _ hm
        simp at e
      · obtain ⟨_, _, e⟩ := hflights _ _ _ hm
        simp at e
  | framed o clock batch size framed hl hframed =>
    have hf := h1.of_lookup hl
    refine h.keep rfl rfl rfl (fun o' b n hm => ?_) fun o' b hm => ?_
    · simp [hf] at hm
    · simp only [hf, put_single, List.mem_singleton, Prod.mk.injEq, Flight.writing.injEq, and_true] at hm
      obtain ⟨-, rfl⟩ := hm
      rw [frameBatch_fst hframed, ← h.sized o batch size (by simp [hf])]
      exact hframed
  | popped o clock batch hl => exact h.keep_nil rfl rfl rfl (by simp [h1.of_lookup hl])
  | failed o clock flight hl => exact h.keep_nil rfl rfl rfl (by simp [h1.of_lookup hl])
  | stray batch strays outcome hs =>
    have hclosed := hstray outcome rfl
    simp only [Core.write, hclosed, Bool.false_eq_true, if_false]
    exact ⟨h.file_eq, h.placed, h.complete, h.sized, h.framed⟩
  | cancelled survives => exact habandon survives
  | restarted survives clock hb =>
    have hfree : (s.abandon survives).core.flights.lookup .background = none := by
      simp [State.abandon, lookup_remove]
    exact (habandon survives).begin (Core.Single.of_put h2 hfree)
  | snapshot sn framed outcome hsn' hframed =>
    obtain ⟨hf, hoff, henc⟩ := hsn sn hsn'
    rcases write_of_complete hcomplete with hw | ⟨exc, hw⟩
    · have hp : Placed E s.core.framer s.core.file.length [.snapshot sn.snap framed] :=
        ⟨⟨sn.payload, henc, hoff ▸ hframed⟩, trivial⟩
      rw [hw]
      exact h.append hp (by simp [Complete, Entry.record]) (by simp [hf])
    · rw [hw]
      exact h
  | unborn => exact ⟨h.file_eq, h.placed, h.complete, h.sized, h.framed⟩
  | created => exact ⟨h.file_eq, h.placed, h.complete, h.sized, h.framed⟩
  | unread a ho hne => exact h.reload (hfr hne ho)
  | loaded a rr state store ho hne => exact h.reload (hfr hne ho)
  | reloaded a rr state store ho hne _ _ _ _ _ hfree =>
    exact (h.reload (hfr hne ho)).begin (Core.Single.of_put h2 hfree)

end Aligned

/-- The instance has not been opened yet: nothing has been written and nothing is under way. -/
structure Unused (s : State) : Prop where
  opened : s.opened = false
  log : s.core.log = []
  flights : s.core.flights = []
  snapping : s.snapping = none

/-- The framer has taken over the seed of the file, or the instance has not been opened yet. -/
def Seeded (framer : Framer) (file : Bytes) (s : State) : Prop :=
  framer.load file = .ok s.core.framer ∨
    (Unused s ∧ s.core.framer = framer ∧ ∃ fr, framer.load file = .ok fr)

/-- A worker thread that has no flush to work for leaves the file and the store alone. -/
lemma Effect.idle {s : State} {e : Event} {core : Core} (h : Effect E s e core) (hjob : e.IsJob)
    (hf : s.core.flights = []) (hstray : ∀ outcome, e = .stray outcome → s.isOpen = false) :
    core.file = s.core.file ∧ core.log = s.core.log ∧ core.store = s.core.store := by
  have hl : ∀ o, s.core.flights.lookup o = none := fun o => by simp [hf]
  cases h with
  | sized o batch outcome h => simp [hl] at h
  | wrote o batch outcome h => simp [hl] at h
  | stray batch strays outcome h => simp [Core.write, hstray outcome rfl]
  | quiet => exact ⟨rfl, rfl, rfl⟩
  | begin _ _ he => exact absurd hjob he.not_job
  | commit | framed | popped | failed | cancelled | restarted | snapshot | unborn | created
  | unread | loaded | reloaded => exact hjob.elim

namespace Unused

variable {s s' : State} {e : Event}

lemma init (statedict : Dict) (version : ℤ) (framer : Framer) (file : Bytes) :
    Unused (.init statedict version framer file) := ⟨rfl, rfl, rfl, rfl⟩

/-- Before `open` nothing is written. -/
lemma effect {core : Core} (hu : Unused s) (he : Effect E s e core)
    (hstray : ∀ outcome, e = .stray outcome → s.isOpen = false) (hopen : ∀ a, e ≠ .open a) :
    core.log = [] ∧ core.flights = [] ∧ core.framer = s.core.framer := by
  obtain ⟨ho, hlog, hf, hsn⟩ := hu
  have hl : ∀ o, s.core.flights.lookup o = none := fun o => by simp [hf]
  cases he with
  | quiet => exact ⟨hlog, hf, rfl⟩
  | commit => exact ⟨hlog, hf, rfl⟩
  | begin _ _ _ h => simp [ho] at h
  | sized o batch outcome h => simp [hl] at h
  | wrote o batch outcome h => simp [hl] at h
  | framed o clock batch size framed h => simp [hl] at h
  | popped o clock batch h => simp [hl] at h
  | failed o clock flight h => simp [hl] at h
  | stray batch strays outcome h => simp [Core.write, hstray outcome rfl, hf, hlog]
  | cancelled => exact ⟨hlog, by simp [State.abandon, hf, remove], rfl⟩
  | restarted _ _ _ h => simp [ho] at h
  | snapshot sn _ _ h => simp [hsn] at h
  | unborn a | created a | unread a | loaded a | reloaded a => exact absurd rfl (hopen a)

/-- Only `open` takes an instance into use. -/
lemma step (hu : Unused s) (hs : Control s) (hstep : Kanta.step E s e = some s')
    (hstray : ∀ outcome, e = .stray outcome → s.isOpen = false) (hopen : ∀ a, e ≠ .open a) :
    Unused s' := by
  obtain ⟨hl, hf, -⟩ := hu.effect (step_effect hs hstep) hstray hopen
  have hflow := step_flow hstep
  refine ⟨?_, hl, hf, ?_⟩
  · by_contra ho'
    obtain ⟨⟨a, he⟩, -⟩ := hflow.opens hu.opened (by simpa using ho')
    exact hopen a he
  · by_contra hne
    obtain ⟨sn, hsn'⟩ := Option.ne_none_iff_exists'.mp hne
    rcases hflow.snapping sn hsn' with ⟨hsn', -⟩ | ⟨-, o, hend⟩
    · simp [hu.snapping] at hsn'
    · cases hflow.ended o hend with
      | popped _ _ _ hlk => simp [hu.flights] at hlk
      | idle hor => exact hor.elim (by simp [hu.opened]) fun ⟨a, he⟩ => hopen a he
      | failed hor => exact hor.elim (by simp [hu.opened]) fun ⟨a, he⟩ => hopen a he

end Unused

/-- Every frame lies at its offset, also the one of a snapshot under way. -/
structure Located (E : Env) (framer : Framer) (file : Bytes) (s : State) : Prop where
  aligned : Aligned E file s.core
  snapping : ∀ sn, s.snapping = some sn →
    sn.offset = s.core.file.length ∧ E.ser.encodeSnapshot sn.snap = .ok sn.payload
  seeded : Seeded framer file s

namespace Located

variable {framer : Framer} {file : Bytes} {s s' : State} {e : Event}

lemma init {statedict : Dict} {version : ℤ} (h : ∃ fr, framer.load file = .ok fr) :
    Located E framer file (.init statedict version framer file) where
  aligned := ⟨by simp [State.init], by simp [State.init, Placed], by simp [State.init, Complete],
    by simp [State.init], by simp [State.init]⟩
  snapping sn hsn := by simp [State.init] at hsn
  seeded := Or.inr ⟨.init statedict version framer file, rfl, h⟩

/-- A seeded framer finds its seed in the file as it is. -/
lemma load_file (h : Located E framer file s) (hs : framer.load file = .ok s.core.framer) :
    s.core.framer.load s.core.file = .ok s.core.framer := by
  rw [h.aligned.file_eq]
  by_cases hne : file = []
  · subst hne
    exact load_placed h.aligned.placed h.aligned.complete
  · exact Framer.load_append (Framer.load_self hs hne) hne _

/-- What `open` makes of the framer. -/
lemma reload_eq (h : Located E framer file s) :
    s.core.framer.reload s.core.file = s.core.framer ∨ s.core.log = [] ∧ s.core.flights = [] := by
  rcases h.seeded with hs | ⟨hu, -⟩
  · exact Or.inl (Framer.reload_of_load (h.load_file hs))
  · exact Or.inr ⟨hu.log, hu.flights⟩

/-- `open` takes over the seed of a file that has content. -/
lemma framer_of_effect {core : Core} (he : Effect E s e core) :
    core.framer = s.core.framer ∧ (e.isOpen = true → s.core.file = []) ∨
      core.framer = s.core.framer.reload s.core.file := by
  cases he with
  | unread => exact Or.inr rfl
  | loaded => exact Or.inr rfl
  | reloaded => exact Or.inr rfl
  | quiet _ he => exact Or.inl ⟨rfl, he⟩
  | begin _ _ he => exact Or.inl ⟨rfl, by simp [he.not_open]⟩
  | unborn _ _ hf => exact Or.inl ⟨rfl, fun _ => hf⟩
  | created _ _ _ _ _ hf => exact Or.inl ⟨rfl, fun _ => hf⟩
  | wrote | stray | snapshot => exact Or.inl ⟨by simp, nofun⟩
  | commit | sized | framed | popped | failed | cancelled | restarted => exact Or.inl ⟨rfl, nofun⟩

/-- **Every step leaves each frame at its offset.** -/
theorem step (h : Located E framer file s) (hs : OneFlush s) (hstep : Kanta.step E s e = some s')
    (h1 : s'.core.Single) (hcomplete : Complete s'.core.log)
    (hstray : ∀ outcome, e = .stray outcome → s.isOpen = false) : Located E framer file s' := by
  have heff := step_effect hs.control hstep
  have hflow := step_flow hstep
  have hal : Aligned E file s'.core := h.aligned.effect hs.single h1 hcomplete hstray
    (fun sn hsn => ⟨hs.snapping sn hsn, h.snapping sn hsn⟩) (fun _ _ => h.reload_eq) heff
  refine ⟨hal, fun sn hsn => ?_, ?_⟩
  · rcases hflow.snapping sn hsn with ⟨hsn, hjob⟩ | ⟨hfresh, -⟩
    · rw [(heff.idle hjob (hs.snapping sn hsn) hstray).1]
      exact h.snapping sn hsn
    · exact ⟨hfresh.offset, hfresh.payload⟩
  · rcases h.seeded with hload | ⟨hu, heq, fr, hfr⟩
    · refine Or.inl ?_
      rcases framer_of_effect heff with ⟨hsame, -⟩ | hre
      · rw [hsame, hload]
      · rw [hre, Framer.reload_of_load (h.load_file hload), hload]
    · by_cases hopen : ∃ a, e = .open a
      · refine Or.inl ?_
        have hfile : s.core.file = file := by simp [h.aligned.file_eq, hu.log]
        obtain ⟨a, rfl⟩ := hopen
        rcases framer_of_effect heff with ⟨hsame, hempty⟩ | hre
        · rw [hsame, heq, ← hfile, hempty rfl, Framer.load_nil]
        · rw [hre, hfile, heq, Framer.reload_of_load hfr, hfr]
      · have hopen : ∀ a, e ≠ .open a := fun a he => hopen ⟨a, he⟩
        obtain ⟨-, -, hframer⟩ := hu.effect heff hstray hopen
        exact Or.inr ⟨hu.step hs.control hstep hstray hopen, hframer.trans heq, fr, hfr⟩

end Located

end Kanta
