import Kanta.Memory

/-!
# Changes outside of a transaction

`transaction` compares the data with `statedict` before it runs its body.  When they differ, its
exception asks for `impl.db_path`, and what leaves is an `AttributeError` (`reports_iff`).
`never_accused` says when data that is only changed in the bodies of transactions stays what
`statedict` says it is, so that none of them is refused.
-/

namespace Kanta

open Kanta.Lib.Lts

variable {D : Type}

/-! ### In front of the body -/

section

variable (hooks : Hooks D)

/-- What `transaction` does in front of its `try`: the dict it keeps of the data. -/
def enter (s : Live D) (c : Transaction D) : Except Exc Dict :=
  if s.readonly then .error (.dataIntegrityError "Cannot start transaction in read-only mode" (some c.action) none)
  else if s.inTransaction then
    .error (.runtimeError
      "Nested or simultaneous transactions are not supported (don't await inside transactions).")
  else
    match hooks.structToDict s.data with
    | .error e => .error e
    | .ok current => if modifiedOutside s c current then .error (.attributeError "db_path") else .ok current

variable {hooks} {s : Live D} {c : Transaction D} {current : Dict}

lemma enter_begins : enter hooks s c = .ok current ↔ Begins hooks s c current := by
  unfold enter
  constructor
  · intro h
    split at h
    · simp at h
    · split at h
      · simp at h
      · split at h
        · simp at h
        · rename_i hro hin _ _ hcurrent
          split at h
          · simp at h
          · rename_i hout
            obtain rfl := Except.ok.inj h
            exact ⟨by simpa using hro, by simpa using hin, hcurrent, by simpa using hout⟩
  · intro h
    simp [h.writable, h.idle, h.encoded, h.inside]

/-- A transaction that is refused changes nothing. -/
lemma enter_refused {e : Exc} (h : enter hooks s c = .error e) : transaction hooks s c = (s, .error e) := by
  unfold enter at h
  unfold transaction
  split at h
  · rename_i hro
    rw [if_pos hro, Except.error.inj h]
  · rename_i hro
    rw [if_neg hro]
    split at h
    · rename_i hin
      rw [if_pos hin, Except.error.inj h]
    · rename_i hin
      rw [if_neg hin]
      cases hcurrent : hooks.structToDict s.data with
      | error e' =>
        simp only [hcurrent] at h ⊢
        rw [Except.error.inj h]
      | ok current =>
        simp only [hcurrent] at h ⊢
        split at h
        · rename_i hout
          rw [if_pos hout, Except.error.inj h]
        · simp at h

end

/-! ### A difference is reported -/

section

variable (hooks : Hooks D) (s : Live D) (c : Transaction D)

/-- `struct_to_dict(data) != statedict`, and this is not the bootstrap of an empty database. -/
def Modified (current : Dict) : Prop :=
  current.pyEq s.store.statedict = false ∧ ¬(c.action = "bootstrap" ∧ s.store.statedict.items = [])

instance (current : Dict) : Decidable (Modified s c current) := by
  unfold Modified
  infer_instance

/-- The difference that an exception carries. -/
def Exc.carried : Exc → Option Dict
  | .dataIntegrityError _ _ diff => diff
  | _ => none

/-- Whether it is a `DataIntegrityError`. -/
def Exc.isDataIntegrityError : Exc → Bool
  | .dataIntegrityError .. => true
  | _ => false

/-- A transaction is refused with a `DataIntegrityError` exactly when the data was modified; the
exception carries a difference between the two states that is not empty, and nothing is changed. -/
structure Reports (current : Dict) : Prop where
  raised : (∃ e, enter hooks s c = .error e ∧ e.isDataIntegrityError = true) ↔ Modified s c current
  carried : Modified s c current → ∃ e d, enter hooks s c = .error e ∧ e.carried = some d ∧ d.items ≠ [] ∧
    diff s.store.statedict current = some d.val
  unchanged : Modified s c current → (transaction hooks s c).1 = s

variable {hooks s c}

lemma modifiedOutside_iff {current : Dict} : modifiedOutside s c current = true ↔ Modified s c current := by
  have hdelta : (delta s.store.statedict current).isSome = true ↔ current.pyEq s.store.statedict = false := by
    rw [Option.isSome_iff_ne_none, Ne, delta_eq_none, Dict.pyEq_iff, eq_comm, ← Dict.pyEq_iff]
    simp
  simp only [modifiedOutside, Modified, Bool.and_eq_true, Bool.not_eq_true', hdelta, Bool.and_eq_false_iff,
    decide_eq_false_iff_not, List.isEmpty_eq_false_iff, not_and_or]
  tauto

/-- **When a change outside of a transaction is reported**: when there is none. -/
theorem reports_iff (hooks : Hooks D) (s : Live D) (c : Transaction D) (hro : s.readonly = false)
    (hidle : s.inTransaction = false) {current : Dict} (hcurrent : hooks.structToDict s.data = .ok current) :
    Reports hooks s c current ↔ ¬Modified s c current := by
  have henter : enter hooks s c = if modifiedOutside s c current then .error (.attributeError "db_path")
      else .ok current := by
    simp [enter, hro, hidle, hcurrent]
  constructor
  · intro h hmod
    obtain ⟨e, he, herr⟩ := h.raised.mpr hmod
    rw [henter, if_pos (modifiedOutside_iff.mpr hmod)] at he
    rw [← Except.error.inj he] at herr
    simp [Exc.isDataIntegrityError] at herr
  · intro hmod
    refine ⟨⟨?_, fun h => (hmod h).elim⟩, fun h => (hmod h).elim, fun h => (hmod h).elim⟩
    rintro ⟨e, he, -⟩
    rw [henter, if_neg (fun h => hmod (modifiedOutside_iff.mp h))] at he
    simp at he

end

namespace Sample

/-- `{"n": 1}` in the data, and `{"n": 0}` in `statedict`. -/
def outside : Live Dict := { live with data := state 1 }

end Sample

open Sample in
/-- With nothing changed there is nothing to report. -/
theorem reports_live : Reports plain live setting (state 0) :=
  (reports_iff plain live setting rfl rfl rfl).mpr (by decide)

open Sample in
/-- **A change outside of a transaction is met with an `AttributeError`.** -/
theorem outside_unreported : enter plain outside setting = .error (.attributeError "db_path") ∧
    ¬Reports plain outside setting (state 1) := by
  have henter : enter plain outside setting = .error (.attributeError "db_path") := rfl
  refine ⟨henter, fun h => ?_⟩
  obtain ⟨e, he, herr⟩ := h.raised.mpr (by decide)
  rw [henter] at he
  rw [← Except.error.inj he] at herr
  simp [Exc.isDataIntegrityError] at herr

/-! ### Data that is only changed in transactions -/

section

variable (codec : Hooks D)

/-- Encoding is stable: what is decoded from an encoded state encodes to the same. -/
def Hooks.Stable : Prop :=
  ∀ data current restored, codec.structToDict data = .ok current → codec.dictToStruct current = .ok restored →
    Same (codec.structToDict restored) (.ok current)

/-- The same type of data; the callbacks may do something else each time. -/
structure SameCodec (hooks : Hooks D) : Prop where
  structToDict : hooks.structToDict = codec.structToDict
  dictToStruct : hooks.dictToStruct = codec.dictToStruct
  objects : hooks.objects = codec.objects

variable (hooks : Hooks D)

/-- The object of the data takes over what was decoded: it is replaced, or it is a Struct whose fields can all
be set, so that it encodes to the same then. -/
def TakesOver (data restored : D) : Prop :=
  Same (hooks.structToDict (hooks.objects.restoreInPlace data restored).1) (hooks.structToDict restored)

/-- The handler gets to the restoration: it is an `Exception`, the failure can be logged, and the dict of the
start can be decoded. -/
structure Restores (c : Transaction D) (statedict current : Dict) (e : Exc) (restored : D) : Prop where
  handled : e.isException = true
  logged : logAbort hooks c statedict e = .ok ()
  decoded : hooks.dictToStruct current = .ok restored

/-- The condition on a transaction that has begun.  When its body or a check fails, then the handler gets to the
restoration and the data takes over the dict of the start, or the data has to encode to that dict as it is.
When its change is queued, the validators have left the data as the body made it, and the log of the change
does not fail with an `Exception` that takes the data back. -/
def Keeps (s : Live D) (c : Transaction D) (current : Dict) : Prop :=
  match prepare hooks s c with
  | (data, .error e) =>
    (∀ restored, Restores hooks c s.store.statedict current e restored → TakesOver hooks data restored) ∧
      ((∀ restored, ¬Restores hooks c s.store.statedict current e restored) →
        Same (hooks.structToDict data) (.ok current))
  | (_, .ok none) => True
  | (data, .ok (some (newDict, record, store))) =>
    (∀ e restored, logChange hooks c s.store.statedict newDict record = .error e →
        Restores hooks c store.statedict current e restored →
          Same (hooks.structToDict (hooks.objects.restoreInPlace data restored).1) (.ok newDict)) ∧
      ((∀ e restored, logChange hooks c s.store.statedict newDict record = .error e →
        ¬Restores hooks c store.statedict current e restored) → Same (hooks.structToDict data) (.ok newDict))

variable {hooks} {s : Live D} {c : Transaction D} {current newDict statedict : Dict} {data : D}
  {record : ChangeRecord} {store : Store} {e : Exc}

/-- What the restoration leaves. -/
lemma Restores.rollback_eq {restored : D} (h : Restores hooks c statedict current e restored) :
    (rollback hooks c statedict current data e).1 = (hooks.objects.restoreInPlace data restored).1 := by
  rw [rollback, h.logged]
  dsimp only
  rw [restoreDataInPlace, h.decoded]
  dsimp only
  rcases hooks.objects.restoreInPlace data restored with ⟨left, _ | _⟩ <;> rfl

/-- A handler that does not get there leaves the data alone. -/
lemma rollback_kept (he : e.isException = true) (h : ∀ restored, ¬Restores hooks c statedict current e restored) :
    (rollback hooks c statedict current data e).1 = data := by
  rw [rollback]
  cases hlog : logAbort hooks c statedict e with
  | error e' => rfl
  | ok u =>
    dsimp only
    rw [restoreDataInPlace]
    cases hdecoded : hooks.dictToStruct current with
    | error e' => rfl
    | ok restored => exact absurd ⟨he, hlog, hdecoded⟩ (h restored)

/-- What is decoded from the dict of the start encodes to it. -/
lemma Begins.decoded (h : Begins hooks s c current) (hstable : hooks.Stable) {restored : D}
    (hr : Restores hooks c statedict current e restored) : Same (hooks.structToDict restored) (.ok current) :=
  hstable _ _ _ h.encoded hr.decoded

lemma Begins.same (h : Begins hooks s c current) (ha : s.Agrees hooks) :
    Same (.ok current) (.ok s.store.statedict) := h.encoded ▸ ha

/-- **What a failure leaves in the data**: what the restoration has made of it, or what the body has. -/
lemma Begins.left_iff (h : Begins hooks s c current) {s' : Live D}
    (hatt : attempt hooks (s.begun current) c = (s', .error e)) (hs' : s'.transactionSnapshot = some current)
    (P : D → Prop) :
    (transaction hooks s c).1.store = s'.store ∧
      (P (transaction hooks s c).1.data ↔
        (∀ restored, Restores hooks c s'.store.statedict current e restored →
            P (hooks.objects.restoreInPlace s'.data restored).1) ∧
          ((∀ restored, ¬Restores hooks c s'.store.statedict current e restored) → P s'.data)) := by
  by_cases hr : ∃ restored, Restores hooks c s'.store.statedict current e restored
  · obtain ⟨restored, hr⟩ := hr
    rw [transaction_raised h hatt hr.handled hs']
    refine ⟨rfl, ?_⟩
    dsimp only [Live.ended]
    rw [hr.rollback_eq]
    constructor
    · intro hleft
      refine ⟨fun restored' hr' => ?_, fun hnone => absurd hr (hnone restored)⟩
      obtain rfl := Except.ok.inj (hr.decoded.symm.trans hr'.decoded)
      exact hleft
    · intro hkeeps
      exact hkeeps.1 restored hr
  · have hnone : ∀ restored, ¬Restores hooks c s'.store.statedict current e restored :=
      fun restored hr' => hr ⟨restored, hr'⟩
    rw [and_iff_right fun restored hr' => absurd hr' (hnone restored), forall_prop_of_true hnone]
    by_cases he : e.isException = true
    · rw [transaction_raised h hatt he hs']
      refine ⟨rfl, ?_⟩
      dsimp only [Live.ended]
      rw [rollback_kept he hnone]
    · rw [transaction_base h hatt (by simpa using he)]
      exact ⟨rfl, Iff.rfl⟩

/-- A failure in front of the queue. -/
lemma agrees_failed (h : Begins hooks s c current) (hstable : hooks.Stable) (ha : s.Agrees hooks)
    (hp : prepare hooks s c = (data, .error e)) :
    (transaction hooks s c).1.Agrees hooks ↔
      (∀ restored, Restores hooks c s.store.statedict current e restored → TakesOver hooks data restored) ∧
        ((∀ restored, ¬Restores hooks c s.store.statedict current e restored) →
          Same (hooks.structToDict data) (.ok current)) := by
  obtain ⟨hstore, hleft⟩ := h.left_iff (attempt_failed hp) rfl fun d => Same (hooks.structToDict d) (.ok current)
  have hagrees : (transaction hooks s c).1.Agrees hooks ↔
      Same (hooks.structToDict (transaction hooks s c).1.data) (.ok current) := by
    rw [Live.Agrees, hstore]
    exact ⟨fun hs => hs.trans (h.same ha).symm, fun hs => hs.trans (h.same ha)⟩
  rw [hagrees, hleft]
  refine and_congr_left' (forall₂_congr fun restored hr => ?_)
  have hdecoded := h.decoded hstable hr
  exact ⟨fun hs => hs.trans hdecoded.symm, fun hs => Same.trans hs hdecoded⟩

/-- A change that was queued. -/
lemma agrees_queued (h : Begins hooks s c current)
    (hp : prepare hooks s c = (data, .ok (some (newDict, record, store)))) :
    (transaction hooks s c).1.Agrees hooks ↔
      (∀ e restored, logChange hooks c s.store.statedict newDict record = .error e →
        Restores hooks c store.statedict current e restored →
          Same (hooks.structToDict (hooks.objects.restoreInPlace data restored).1) (.ok newDict)) ∧
      ((∀ e restored, logChange hooks c s.store.statedict newDict record = .error e →
        ¬Restores hooks c store.statedict current e restored) → Same (hooks.structToDict data) (.ok newDict)) := by
  obtain ⟨-, hqueued, -⟩ := prepare_some hp
  have hstate : store.statedict = newDict := by rw [hqueued]; rfl
  have hatt : attempt hooks (s.begun current) c = _ := attempt_queued hp
  cases hlog : logChange hooks c s.store.statedict newDict record with
  | ok u =>
    rw [hlog] at hatt
    rw [transaction_ok h hatt, Live.Agrees]
    simp only [Live.ended, Live.begun, hstate, reduceCtorEq, false_implies, implies_true, true_and, true_implies]
  | error e =>
    rw [hlog] at hatt
    obtain ⟨hstore, hleft⟩ := h.left_iff hatt rfl fun d => Same (hooks.structToDict d) (.ok newDict)
    rw [Live.Agrees, hstore]
    dsimp only [Live.begun] at hleft ⊢
    rw [hstate, hleft, hstate]
    simp only [Except.error.injEq, forall_comm (α := Exc), forall_eq']

/-- **When a transaction keeps data and `statedict` together.** -/
theorem Begins.agrees_iff (h : Begins hooks s c current) (hstable : hooks.Stable) (ha : s.Agrees hooks) :
    (transaction hooks s c).1.Agrees hooks ↔ Keeps hooks s c current := by
  rw [Keeps]
  rcases hp : prepare hooks s c with ⟨data, e | _ | ⟨newDict, record, store⟩⟩
  · exact agrees_failed h hstable ha hp
  · refine iff_of_true ?_ trivial
    obtain ⟨d, hd, hnew, hdelta⟩ := prepare_none hp
    rw [transaction_ok h (attempt_unchanged hp)]
    exact Or.inr ⟨d, _, hnew, rfl, Dict.pyEq_iff.mpr (Dict.pyEq_iff.mp (delta_eq_none.mp hdelta)).symm⟩
  · exact agrees_queued h hp

/-- Data that is what `statedict` says it is was not changed outside of a transaction. -/
lemma Live.Agrees.inside (ha : s.Agrees hooks) (hcurrent : hooks.structToDict s.data = .ok current) :
    modifiedOutside s c current = false := by
  rw [Live.Agrees, hcurrent] at ha
  have heq : current.pyEq s.store.statedict = true := by
    rcases ha with heq | ⟨d, d', hd, hd', heq⟩
    · exact Dict.pyEq_iff.mpr (by rw [Except.ok.inj heq])
    · rw [Except.ok.inj hd, Except.ok.inj hd']
      exact heq
  rw [← Bool.not_eq_true, modifiedOutside_iff, Modified, heq]
  simp

end

/-! ### Whole runs -/

section

variable (codec : Hooks D) (E : Env)

/-- One call, with the callbacks as they are then. -/
def Instance.stepWith (i : Instance D) (p : Hooks D × Call D) : Option (Instance D) := i.step p.1 E p.2

/-- The data is of one type, it is changed in the bodies of transactions and by `open`, and nobody goes on
after an `open` that raises. -/
structure Disciplined (i : Instance D) (p : Hooks D × Call D) (i' : Instance D) : Prop where
  codec : SameCodec codec p.1
  accepted : ¬i.Abandoned p.1 E i' p.2

/-- The condition on a call: a transaction of an open instance keeps data and `statedict` together. -/
def KeepsOn (i : Instance D) (p : Hooks D × Call D) : Prop :=
  ∀ c clock current, p.2 = .transaction c clock → i.system.opened = true →
    Begins { p.1 with clock } i.live c current → Keeps { p.1 with clock } i.live c current

/-- In an open instance the data encodes to `statedict`, and no transaction is taken for one behind a
change outside. -/
structure Unaccused (i : Instance D) : Prop where
  agrees : i.system.opened = true → i.live.Agrees codec
  accepted : i.system.opened = true → ∀ hooks c current, SameCodec codec hooks →
    hooks.structToDict i.data = .ok current → modifiedOutside i.live c current = false

variable {codec E} {i i' : Instance D} {p : Hooks D × Call D}

lemma SameCodec.agrees {hooks : Hooks D} (h : SameCodec codec hooks) {s : Live D} :
    s.Agrees hooks ↔ s.Agrees codec := by
  rw [Live.Agrees, Live.Agrees, h.structToDict]

lemma SameCodec.stable {hooks : Hooks D} (h : SameCodec codec hooks) (hstable : codec.Stable) : hooks.Stable := by
  rw [Hooks.Stable, h.structToDict, h.dictToStruct]
  exact hstable

lemma unaccused_iff : Unaccused codec i ↔ (i.system.opened = true → i.live.Agrees codec) := by
  refine ⟨Unaccused.agrees, fun h => ⟨h, fun hopen hooks c current hc hcurrent => ?_⟩⟩
  exact (hc.agrees.mpr (h hopen)).inside hcurrent

/-- **One call**: data and `statedict` stay together exactly when the condition is met. -/
theorem Disciplined.unaccused_iff (hi : i.Sound) (hG : Disciplined codec E i p i')
    (hstable : codec.Stable) (ha : Unaccused codec i) (h : i.stepWith E p = some i') :
    Unaccused codec i' ↔ KeepsOn i p := by
  obtain ⟨hooks, call⟩ := p
  rw [Kanta.unaccused_iff]
  cases call with
  | transaction c clock =>
    obtain ⟨hlive, -, ⟨store, hsystem⟩, -⟩ := Instance.step_transaction h
    have hopened : i'.system.opened = i.system.opened := by rw [hsystem]
    have hcodec : SameCodec codec { hooks with clock } :=
      ⟨hG.codec.structToDict, hG.codec.dictToStruct, hG.codec.objects⟩
    rw [hopened]
    by_cases hopen : i.system.opened = true
    · have hagrees : i.live.Agrees { hooks with clock } := hcodec.agrees.mpr (ha.agrees hopen)
      have hstep : i'.live.Agrees codec ↔
          (transaction { hooks with clock } i.live c).1.Agrees { hooks with clock } := by
        rw [hlive, hcodec.agrees]
        rfl
      simp only [hopen, true_implies, hstep]
      constructor
      · intro hkept c' clock' current hcall _ hb
        obtain ⟨rfl, rfl⟩ := Call.transaction.inj hcall
        exact (hb.agrees_iff (hcodec.stable hstable) hagrees).mp hkept
      · intro hkeeps
        rcases @begins_or_refused _ { hooks with clock } i.live c with ⟨current, hb⟩ | ⟨e, htx⟩
        · exact (hb.agrees_iff (hcodec.stable hstable) hagrees).mpr (hkeeps c clock current rfl hopen hb)
        · rw [htx]
          exact hagrees
    · exact iff_of_true (fun h => (hopen h).elim) fun _ _ _ _ h => (hopen h).elim
  | «open» a create readonly =>
    refine iff_of_true (fun hopen => ?_) fun _ _ _ hcall => by simp at hcall
    exact hG.codec.agrees.mp (Instance.agrees_open hi h hopen hG.accepted)
  | other e =>
    refine iff_of_true (fun hopen => ?_) fun _ _ _ hcall => by simp at hcall
    obtain ⟨hopened, hdata, hkept⟩ := Instance.kept_other hi h hopen
    rw [Live.Agrees, Instance.live, hdata, hkept]
    exact ha.agrees hopened

end

namespace Sample

/-- A transaction that is interrupted behind its change. -/
def interruptedCall (k : ℤ) : Call Dict :=
  .transaction ⟨"set", none, .valid .omit, true, fun _ => (state k, .error (.base 0))⟩ (.ok ts)

lemma keeps {i : Instance Dict} {c : Transaction Dict} {clock : Except Exc DateTime} {current : Dict}
    (hb : Begins { plain with clock } i.live c current) (hu : uninterrupted i (.transaction c clock) = true) :
    Keeps { plain with clock } i.live c current := by
  rw [Keeps]
  rcases hp : prepare { plain with clock } i.live c with ⟨data, e | _ | ⟨newDict, record, store⟩⟩
  · refine ⟨fun restored _ => .rfl, fun hnone => absurd ⟨?_, logAbort_plain .., rfl⟩ (hnone current)⟩
    by_contra he
    have htx := transaction_base hb (attempt_failed hp) (by simpa using he)
    rw [uninterrupted, htx] at hu
    exact he hu
  · trivial
  · refine ⟨fun e _ hlog => ?_, fun _ => by rw [prepare_plain hp]; exact .rfl⟩
    rw [logChange_plain] at hlog
    simp at hlog

/-- A run with the same callbacks all the time. -/
lemma reach_plain {minDiffs : ℕ} {G : Instance Dict → Call Dict → Instance Dict → Prop} {i₀ i : Instance Dict}
    (h : Reach (Instance.step plain (env minDiffs)) G i₀ i) :
    Reach (Instance.stepWith (env minDiffs)) (fun i p i' => p.1 = plain ∧ G i p.2 i') i₀ i :=
  h.simulates id fun _ call _ hstep hG => ⟨(plain, call), hstep, rfl, hG⟩

end Sample

end Kanta
