import Kanta.Callbacks
import Kanta.Lib.Agree
import Kanta.Lib.Raises
import Kanta.Transaction

/-!
# What callbacks are called with

Registration and calls look at the same parameters, each with a chain of cases of its own.  They agree: what
`register` accepts can be called, in every context of its kind, and each parameter gets what its name or annotation
asks for (`invoke_bound`, `buildLogfmt_bound`).  A transaction's formatters are those of a registry
(`formatValue_formatters`).
-/

namespace Kanta

open Kanta.Lib

section

variable (repr : RawAnnotation → String) {α : Type}

/-! ### What is asked for -/

/-- What a parameter can ask for. -/
inductive Wanted where
  | state (key : StateKey)
  | error
  | report
  | data
  | kanta

/-- The kinds of callbacks that can ask for it. -/
def Wanted.kinds : Wanted → List CallbackKind
  | .state _ => [.bootstrap, .fatalError, .logmigr, .validate, .logfmt]
  | .error => [.fatalError]
  | .report => [.logmigr]
  | .data => [.bootstrap, .validate]
  | .kanta => [.bootstrap, .fatalError, .logmigr, .validate, .logfmt]

def InjectionContext.get (ctx : InjectionContext α) : Wanted → Option α
  | .state key => ctx.stateOf key
  | .error => ctx.error
  | .report => ctx.report
  | .data => ctx.data
  | .kanta => ctx.kanta

/-- The contexts that callbacks of a kind are called in. -/
inductive Built : CallbackKind → InjectionContext α → Prop
  | bootstrap (kanta data : α) : Built .bootstrap ⟨some kanta, some data, none, none, none, none⟩
  | fatalError (kanta error : α) : Built .fatalError ⟨some kanta, none, some error, none, none, none⟩
  | logmigr (kanta report : α) : Built .logmigr ⟨some kanta, none, none, none, none, some report⟩
  | validate (kanta data : α) : Built .validate ⟨some kanta, some data, none, none, none, none⟩
  | logfmt (kanta previous current : α) : Built .logfmt ⟨some kanta, none, none, some previous, some current, none⟩

/-- The annotation that a parameter counts with. -/
def Function.annotationOf (f : Function) (p : Parameter RawAnnotation) : Except Exc Annotation :=
  match p.annotation with
  | none => .ok (.type "dict")
  | some raw => f.resolveRawAnnotation repr raw

namespace CallbackRegistry

variable (reg : CallbackRegistry α)

/-- A parameter of this name and annotation asks for it. -/
inductive Asks (name : String) (ann : Annotation) : Wanted → Prop
  | tagged (tag : StateKey) (h : ann.unwrapOptional.stateTag = some tag) : Asks name ann (.state tag)
  | named (key : StateKey) (htag : ann.unwrapOptional.stateTag = none) (h : stateKey name = some key) :
      Asks name ann (.state key)
  | error (h : ann.unwrapOptional.isType "DatabaseError" = true) : Asks name ann .error
  | report (h : ann.unwrapOptional.isType "MigrationReport" = true) : Asks name ann .report
  | data (h : ann.unwrapOptional.isClass reg.dataType = true) : Asks name ann .data
  | kanta (h : ann.unwrapOptional.isClass reg.kantaClass = true) : Asks name ann .kanta

/-- What a parameter gets: what it asks for, which is there but for the state of a callback that is no formatter. -/
inductive Gets (kind : CallbackKind) (ctx : InjectionContext α) (f : Function) (p : Parameter RawAnnotation) :
    Argument α → Prop
  | object (ann : Annotation) (w : Wanted) (a : α) (hann : f.annotationOf repr p = .ok ann)
      (hasks : reg.Asks p.name ann w) (hkind : kind ∈ w.kinds) (ha : ctx.get w = some a) :
      Gets kind ctx f p (.object a)
  | null (ann : Annotation) (key : StateKey) (hann : f.annotationOf repr p = .ok ann)
      (hasks : reg.Asks p.name ann (.state key)) (hkind : kind ≠ .logfmt) : Gets kind ctx f p .null

/-- The parameters get what they ask for, or their defaults; one called `path` may get the path. -/
structure Bound (kind : CallbackKind) (ctx : InjectionContext α) (path : Option String) (f : Function)
    (params : List (Parameter RawAnnotation)) (bound : BoundArguments α) : Prop where
  names : bound.map Prod.fst = params.map Parameter.name
  given : ∀ p ∈ params, ∀ a, (p.name, some a) ∈ bound →
    reg.Gets repr kind ctx f p a ∨ p.name = "path" ∧ ∃ text, path = some text ∧ a = .path text
  default : ∀ p ∈ params, (p.name, none) ∈ bound → p.hasDefault = true

/-- The arguments that an instance of a formatter class is made with. -/
def Made (ctx : InjectionContext α) (cls : FormatterClass α) (bound : BoundArguments α) : Prop :=
  ∃ self params rest, cls.init.signature.params = self :: params ∧ self.name = "self" ∧
    bound = ("self", some .self) :: rest ∧ reg.Bound repr .logfmt ctx none cls.init params rest

/-- What a registered formatter becomes. -/
inductive Calls (ctx : InjectionContext α) : LogFmtSpec α → Option String × (Val → String → Except Exc Val) → Prop
  | function (callback : Callback α) (strOnly hasPath : Bool) (injectParams : InjectParams) (pattern : Option String)
      (value : Parameter RawAnnotation) (params : List (Parameter RawAnnotation))
      (hparams : callback.signature.params = value :: params) (bound : String → BoundArguments α)
      (hbound : ∀ path, reg.Bound repr .logfmt ctx (some path) callback.toFunction params (bound path))
      (formatter : Val → String → Except Exc Val) (hformatter : ∀ v path, formatter v path =
        if strOnly = true ∧ v.isStr = false then .ok .null
        else callback.run ((value.name, some (.value v)) :: bound path)) :
      Calls ctx (.function callback strOnly hasPath injectParams pattern) (pattern, formatter)
  | class (cls : FormatterClass α) (injectParams : InjectParams) (pattern : Option String) (bound : BoundArguments α)
      (hbound : reg.Made repr ctx cls bound) (resolve : Method α) (hmake : cls.make bound = .ok resolve)
      (self value : Parameter RawAnnotation) (others : BoundArguments α) (hothers : ∀ b ∈ others, b.2 = none)
      (formatter : Val → String → Except Exc Val) (hformatter : ∀ v path, formatter v path =
        resolve ((self.name, some .self) :: (value.name, some (.value v)) :: ("path", some (.path path)) :: others)) :
      Calls ctx (.class cls injectParams pattern) (pattern, formatter)

end CallbackRegistry

/-! ### A parameter that is accepted -/

section

variable {repr} {reg : CallbackRegistry α} {kind : CallbackKind} {ctx : InjectionContext α} {f : Function}
  {p : Parameter RawAnnotation} {ps : List (Parameter RawAnnotation)} {inj : Injection} {injs : List Injection}
  {ann : Annotation} {takesPath : Bool}

namespace CallbackRegistry

/-- **What is allowed is found.** -/
lemma resolve_of_isAllowed {name : String} (ctx : InjectionContext α) (hkind : kind ≠ .logemit)
    (h : (stateKey name).isSome = true ∨ reg.isAllowed kind ann = true) : ∃ w, reg.Asks name ann w ∧ kind ∈ w.kinds ∧
      reg.resolveAnnotation name ann ctx = some (ctx.get w) := by
  have hall : ∀ key, kind ∈ (Wanted.state key).kinds := by
    intro key
    cases kind <;> simp [Wanted.kinds] at hkind ⊢
  cases htag : ann.unwrapOptional.stateTag with
  | some tag =>
    refine ⟨.state tag, .tagged tag htag, hall tag, ?_⟩
    simp only [ resolveAnnotation, htag, InjectionContext.get]
  | none =>
    cases hkey : stateKey name with
    | some key =>
      refine ⟨.state key, .named key htag hkey, hall key, ?_⟩
      simp only [ resolveAnnotation, htag, hkey, InjectionContext.get]
    | none =>
      -- both go through the same cases in the same order
      rw [hkey] at h
      have h := h.resolve_left Bool.false_ne_true
      simp only [isAllowed, htag, Option.isSome_none, Bool.false_eq_true, if_false] at h
      simp only [ resolveAnnotation, htag, hkey]
      split at h
      · next herror => exact ⟨.error, .error herror, by simpa [Wanted.kinds] using h, if_pos herror⟩
      · next herror =>
        rw [if_neg herror]
        split at h
        · next hreport => exact ⟨.report, .report hreport, by simpa [Wanted.kinds] using h, if_pos hreport⟩
        · next hreport =>
          rw [if_neg hreport]
          split at h
          · next hdata => exact ⟨.data, .data hdata, by simpa [Wanted.kinds] using h, if_pos hdata⟩
          · next hdata =>
            rw [if_neg hdata]
            split at h
            · next hkanta =>
              exact ⟨.kanta, .kanta hkanta, by cases kind <;> simp [Wanted.kinds] at hkind ⊢, if_pos hkanta⟩
            · cases h

/-- What is known of a parameter once it is checked. -/
inductive Checked (repr : RawAnnotation → String) (reg : CallbackRegistry α) (kind : CallbackKind) (takesPath : Bool)
    (f : Function) (p : Parameter RawAnnotation) : Injection → Prop
  | default (h : p.hasDefault = true) : Checked repr reg kind takesPath f p .default
  | path (htakes : takesPath = true) (h : p.name = "path") : Checked repr reg kind takesPath f p .path
  | inject (ann : Annotation) (hann : f.annotationOf repr p = .ok ann)
      (h : (stateKey p.name).isSome = true ∨ reg.isAllowed kind ann = true) :
      Checked repr reg kind takesPath f p (.inject p.name ann)

lemma checked_of_checkParameter {who allowed : String}
    (h : reg.checkParameter repr who allowed takesPath kind f p = .ok inj) :
    p.isVar = false ∧ Checked repr reg kind takesPath f p inj := by
  unfold checkParameter at h
  split at h
  · cases h
  · next hvar =>
    refine ⟨by simpa using hvar, ?_⟩
    split at h
    · next hnone =>
      split at h
      · next hkey =>
        obtain rfl := Except.ok.inj h
        exact .inject _ (by rw [Function.annotationOf, hnone]) (Or.inl hkey)
      · split at h
        · next hdefault =>
          obtain rfl := Except.ok.inj h
          exact .default hdefault
        · cases h
    · next raw hraw =>
      cases hann : f.resolveRawAnnotation repr raw with
      | error e =>
        rw [hann] at h
        cases h
      | ok ann =>
        have hann' : f.annotationOf repr p = .ok ann := by rw [Function.annotationOf, hraw]; exact hann
        rw [hann] at h
        dsimp only [bind, Except.bind] at h
        split at h
        · next hkey =>
          obtain rfl := Except.ok.inj h
          exact .inject ann hann' (Or.inl hkey)
        · split at h
          · next hpath =>
            obtain rfl := Except.ok.inj h
            exact .path hpath.1 hpath.2.1
          · split at h
            · next hallowed =>
              obtain rfl := Except.ok.inj h
              exact .inject ann hann' (Or.inr hallowed)
            · split at h
              · next hdefault =>
                obtain rfl := Except.ok.inj h
                exact .default hdefault
              · cases h

/-! ### The keywords of a call -/

/-- What the keywords hold for a parameter, before the path is added. -/
inductive Looked (repr : RawAnnotation → String) (reg : CallbackRegistry α) (kind : CallbackKind)
    (ctx : InjectionContext α) (injs : List Injection) (f : Function) (p : Parameter RawAnnotation) :
    Option (Argument α) → Prop
  | injected (ann : Annotation) (w : Wanted) (hann : f.annotationOf repr p = .ok ann) (hasks : reg.Asks p.name ann w)
      (hkind : kind ∈ w.kinds) : Looked repr reg kind ctx injs f p (some (.of (ctx.get w)))
  | default (h : p.hasDefault = true) : Looked repr reg kind ctx injs f p none
  | path (h : p.name = "path") (hpath : .path ∈ injs) : Looked repr reg kind ctx injs f p none

lemma Looked.mono {injs' : List Injection} {a : Option (Argument α)} (h : Looked repr reg kind ctx injs f p a)
    (hinjs : injs ⊆ injs') : Looked repr reg kind ctx injs' f p a := by
  cases h with
  | injected ann w hann hasks hkind => exact .injected ann w hann hasks hkind
  | default h => exact .default h
  | path h hpath => exact .path h (hinjs hpath)

/-- **The keywords can be built**, and hold for each parameter what it asks for. -/
lemma buildKwargs_checked (ctx : InjectionContext α) (hkind : kind ≠ .logemit)
    (h : List.Forall₂ (Checked repr reg kind takesPath f) ps injs) (hnodup : (ps.map Parameter.name).Nodup) :
    ∃ kwargs, reg.buildKwargs repr (injs.filterMap Injection.param) ctx = .ok kwargs ∧
      (∀ kv ∈ kwargs, kv.1 ∈ ps.map Parameter.name) ∧
      ∀ p ∈ ps, Looked repr reg kind ctx injs f p (kwargs.lookup p.name) := by
  induction h with
  | nil => exact ⟨[], rfl, nofun, nofun⟩
  | @cons p inj ps injs hp _ ih =>
    obtain ⟨hnew, hnodup⟩ := List.nodup_cons.mp hnodup
    obtain ⟨kwargs, hbuild, hkeys, hlooked⟩ := ih hnodup
    have hnone : kwargs.lookup p.name = none := Assoc.lookup_eq_none_iff.mpr fun hm => by
      obtain ⟨kv, hkv, hk⟩ := List.mem_map.mp hm
      exact hnew (hk ▸ hkeys kv hkv)
    have hrest : ∀ q ∈ ps, Looked repr reg kind ctx (inj :: injs) f q (kwargs.lookup q.name) :=
      fun q hq => (hlooked q hq).mono (List.subset_cons_self _ _)
    have hmem : ∀ kv ∈ kwargs, kv.1 ∈ (p :: ps).map Parameter.name :=
      fun kv hkv => List.mem_cons_of_mem _ (hkeys kv hkv)
    cases hp with
    | default h =>
      exact ⟨kwargs, hbuild, hmem, List.forall_mem_cons.mpr ⟨hnone ▸ .default h, hrest⟩⟩
    | path htakes h =>
      exact ⟨kwargs, hbuild, hmem, List.forall_mem_cons.mpr ⟨hnone ▸ .path h List.mem_cons_self, hrest⟩⟩
    | inject ann hann h =>
      obtain ⟨w, hasks, hw, hresolved⟩ := resolve_of_isAllowed ctx hkind h
      refine ⟨(p.name, .of (ctx.get w)) :: kwargs, ?_, List.forall_mem_cons.mpr ⟨List.mem_cons_self, hmem⟩, ?_⟩
      · rw [buildKwargs] at hbuild ⊢
        rw [List.filterMap_cons_some (by rfl : Injection.param _ = some (p.name, ann)), List.mapM_cons, hresolved,
          hbuild]
        rfl
      · refine List.forall_mem_cons.mpr ⟨?_, fun q hq => ?_⟩
        · rw [List.lookup_cons_self]
          exact .injected ann w hann hasks hw
        · rw [Assoc.lookup_cons_if, if_neg fun hname : q.name = p.name => hnew (hname ▸ List.mem_map_of_mem hq)]
          exact hrest q hq

/-- What is asked for is there. -/
lemma gets_of_asks (hbuilt : Built kind ctx) {w : Wanted} (hann : f.annotationOf repr p = .ok ann)
    (hasks : reg.Asks p.name ann w) (hkind : kind ∈ w.kinds) :
    reg.Gets repr kind ctx f p (.of (ctx.get w)) := by
  have hobject : ∀ a, ctx.get w = some a → reg.Gets repr kind ctx f p (.of (ctx.get w)) := by
    intro a ha
    rw [ha]
    exact .object ann w a hann hasks hkind ha
  cases w with
  | state key =>
    cases hbuilt with
    | logfmt => cases key <;> exact hobject _ rfl
    | _ => cases key <;> exact .null ann _ hann hasks (by decide)
  | _ => cases hbuilt <;> first | exact hobject _ rfl | simp [Wanted.kinds] at hkind

/-- What the keywords hold for a parameter. -/
inductive Found (repr : RawAnnotation → String) (reg : CallbackRegistry α) (kind : CallbackKind)
    (ctx : InjectionContext α) (path : Option String) (f : Function) (p : Parameter RawAnnotation) :
    Option (Argument α) → Prop
  | gets (a : Argument α) (h : reg.Gets repr kind ctx f p a) : Found repr reg kind ctx path f p (some a)
  | path (text : String) (h : p.name = "path") (hpath : path = some text) :
      Found repr reg kind ctx path f p (some (.path text))
  | default (h : p.hasDefault = true) : Found repr reg kind ctx path f p none

variable {path : Option String} {kwargs : List (String × Argument α)}

lemma required_of_found (h : ∀ p ∈ ps, Found repr reg kind ctx path f p (kwargs.lookup p.name)) :
    ∀ p ∈ ps, p.hasDefault = false → (kwargs.lookup p.name).isSome := by
  intro p hp hdefault
  have hfound := h p hp
  revert hfound
  cases kwargs.lookup p.name with
  | some a => exact fun _ => rfl
  | none =>
    intro hfound
    cases hfound with
    | default h => rw [h] at hdefault; cases hdefault

/-- Each parameter gets what the keywords hold for it. -/
lemma bound_of_found
    (h : ∀ p ∈ ps, Found repr reg kind ctx path f p (kwargs.lookup p.name)) :
    reg.Bound repr kind ctx path f ps (ps.map fun p => (p.name, kwargs.lookup p.name)) := by
  have hmem : ∀ p ∈ ps, ∀ a, (p.name, a) ∈ ps.map (fun p => (p.name, kwargs.lookup p.name)) →
      kwargs.lookup p.name = a := by
    intro p hp a ha
    obtain ⟨q, -, hq⟩ := List.mem_map.mp ha
    obtain ⟨hname, rfl⟩ := Prod.mk.inj hq
    rw [hname]
  refine ⟨by rw [List.map_map]; rfl, fun p hp a ha => ?_, fun p hp ha => ?_⟩
  · have hfound := h p hp
    rw [hmem p hp _ ha] at hfound
    cases hfound with
    | gets _ h => exact Or.inl h
    | path text h hpath => exact Or.inr ⟨h, text, hpath, rfl⟩
  · have hfound := h p hp
    rw [hmem p hp _ ha] at hfound
    cases hfound with
    | default h => exact h

/-- A parameter that is not given by position only, and that is no list of parameters. -/
lemma keyworded_of_not (hvar : p.isVar = false) (hpositional : p.kind ≠ .positionalOnly) : p.Keyworded := by
  rw [Parameter.isVar] at hvar
  rw [Parameter.Keyworded]
  cases hkind : p.kind <;> simp_all

lemma first_of_not (hvar : p.isVar = false) (hkeyword : p.kind ≠ .keywordOnly) : p.Positional := by
  rw [Parameter.isVar] at hvar
  rw [Parameter.Positional]
  cases hkind : p.kind <;> simp_all

/-- The loop over the parameters. -/
lemma checked_of_mapM {who allowed : String}
    (h : ps.mapM (reg.checkParameter repr who allowed takesPath kind f) = .ok injs) :
    (∀ p ∈ ps, p.isVar = false) ∧ List.Forall₂ (Checked repr reg kind takesPath f) ps injs := by
  have hboth : List.Forall₂ (fun p inj => p.isVar = false ∧ Checked repr reg kind takesPath f p inj) ps injs :=
    forall₂_of_mapM h fun p _ inj => checked_of_checkParameter
  refine ⟨fun p hp => ?_, hboth.imp fun _ _ h => h.2⟩
  clear h
  induction hboth with
  | nil => cases hp
  | cons hq _ ih =>
    rcases List.mem_cons.mp hp with rfl | hp
    · exact hq.1
    · exact ih hp

/-- A parameter that takes the path is called `path`. -/
lemma exists_path (h : List.Forall₂ (Checked repr reg kind takesPath f) ps injs) (hpath : .path ∈ injs) :
    takesPath = true ∧ ∃ p ∈ ps, p.name = "path" := by
  induction h with
  | nil => cases hpath
  | cons hp _ ih =>
    rcases List.mem_cons.mp hpath with rfl | hpath
    · cases hp with
      | path htakes hname => exact ⟨htakes, _, List.mem_cons_self, hname⟩
    · obtain ⟨htakes, p, hp, hname⟩ := ih hpath
      exact ⟨htakes, p, List.mem_cons_of_mem _ hp, hname⟩

lemma any_isPath : injs.any Injection.isPath = true ↔ .path ∈ injs := by
  rw [List.any_eq_true]
  constructor
  · rintro ⟨inj, hm, hpath⟩
    cases inj with
    | path => exact hm
    | _ => cases hpath
  · exact fun hm => ⟨.path, hm, rfl⟩

/-- The keywords of a call, once the path is added for a callback that takes it. -/
def withPath (injs : List Injection) (path : String) (kwargs : List (String × Argument α)) :
    List (String × Argument α) :=
  if injs.any Injection.isPath then Assoc.put "path" (.path path) kwargs else kwargs

/-- **The keywords bind**: those of `invoke`, and those of a formatter with its path. -/
lemma found_keywords (hbuilt : Built kind ctx) (hkind : kind ≠ .logemit) (hnodup : (ps.map Parameter.name).Nodup)
    (h : List.Forall₂ (Checked repr reg kind takesPath f) ps injs) :
    ∃ kwargs, reg.buildKwargs repr (injs.filterMap Injection.param) ctx = .ok kwargs ∧
      (takesPath = false → (∀ kv ∈ kwargs, kv.1 ∈ ps.map Parameter.name) ∧
        ∀ p ∈ ps, Found repr reg kind ctx none f p (kwargs.lookup p.name)) ∧
      ∀ path, (∀ kv ∈ withPath injs path kwargs, kv.1 ∈ ps.map Parameter.name) ∧
        ∀ p ∈ ps, Found repr reg kind ctx (some path) f p ((withPath injs path kwargs).lookup p.name) := by
  obtain ⟨kwargs, hbuild, hkeys, hlooked⟩ := buildKwargs_checked ctx hkind h hnodup
  have hfound : ∀ path, ∀ p ∈ ps, (.path ∈ injs → p.name ≠ "path") →
      Found repr reg kind ctx path f p (kwargs.lookup p.name) := by
    intro path p hp hname
    have hlookedp := hlooked p hp
    revert hlookedp
    cases kwargs.lookup p.name with
    | some a =>
      intro hlookedp
      cases hlookedp with
      | injected ann w hann hasks hw => exact .gets _ (gets_of_asks hbuilt hann hasks hw)
    | none =>
      intro hlookedp
      cases hlookedp with
      | default hdefault => exact .default hdefault
      | path hpath hm => exact absurd hpath (hname hm)
  refine ⟨kwargs, hbuild, fun htakes => ⟨hkeys, fun p hp => hfound none p hp fun hm => ?_⟩, fun path => ?_⟩
  · obtain ⟨htrue, -⟩ := exists_path h hm
    rw [htakes] at htrue
    cases htrue
  · by_cases hm : .path ∈ injs
    · rw [withPath, if_pos (any_isPath.mpr hm)]
      refine ⟨fun kv hkv => ?_, fun p hp => ?_⟩
      · obtain hk | hk := Assoc.mem_keys_put.mp (List.mem_map_of_mem hkv)
        · obtain ⟨-, p, hp, hname⟩ := exists_path h hm
          rw [hk, ← hname]
          exact List.mem_map_of_mem hp
        · obtain ⟨kv', hkv', hk'⟩ := List.mem_map.mp hk
          rw [← hk']
          exact hkeys kv' hkv'
      · by_cases hname : p.name = "path"
        · rw [hname, Assoc.lookup_put_self]
          exact .path path hname rfl
        · rw [Assoc.lookup_put_ne hname]
          exact hfound _ p hp fun _ => hname
    · rw [withPath, if_neg fun h => hm (any_isPath.mp h)]
      exact ⟨hkeys, fun p hp => hfound _ p hp fun h => absurd h hm⟩

/-! ### A registry -/

/-- Every callback of the registry was accepted. -/
structure AllAccepted (repr : RawAnnotation → String) (requests : List (CallbackKind × Option String × Candidate α))
    (reg : CallbackRegistry α) : Prop where
  callbacks : ∀ kind, ∀ r ∈ reg.callbacks kind, kind ≠ .logfmt ∧ kind ≠ .logemit ∧
    (∃ path, (kind, path, .function r.callback) ∈ requests) ∧
      reg.validateFunction repr r.callback.toFunction kind = .ok r.params
  formatters : ∀ spec ∈ reg.logfmtCallbacks, ∃ path,
    (∃ callback, (.logfmt, path, .function callback) ∈ requests ∧
      reg.validateLogfmtFunction repr callback path = .ok spec) ∨
    ∃ cls, (.logfmt, path, .class cls) ∈ requests ∧ reg.validateLogfmtClass repr cls path = .ok spec

variable {requests : List (CallbackKind × Option String × Candidate α)}

lemma AllAccepted.mono {requests' : List (CallbackKind × Option String × Candidate α)}
    (h : AllAccepted repr requests reg) (hsub : requests ⊆ requests') : AllAccepted repr requests' reg := by
  refine ⟨fun kind r hr => ?_, fun spec hspec => ?_⟩
  · obtain ⟨hfmt, hemit, ⟨path, hm⟩, hvalid⟩ := h.callbacks kind r hr
    exact ⟨hfmt, hemit, ⟨path, hsub hm⟩, hvalid⟩
  · obtain ⟨path, ⟨callback, hm, hvalid⟩ | ⟨cls, hm, hvalid⟩⟩ := h.formatters spec hspec
    · exact ⟨path, Or.inl ⟨callback, hsub hm, hvalid⟩⟩
    · exact ⟨path, Or.inr ⟨cls, hsub hm, hvalid⟩⟩

/-- A formatter is added. -/
lemma AllAccepted.add_formatter (h : AllAccepted repr requests reg) {spec : LogFmtSpec α}
    (hspec : ∃ path, (∃ callback, (.logfmt, path, .function callback) ∈ requests ∧
        reg.validateLogfmtFunction repr callback path = .ok spec) ∨
      ∃ cls, (.logfmt, path, .class cls) ∈ requests ∧ reg.validateLogfmtClass repr cls path = .ok spec) :
    AllAccepted repr requests { reg with logfmtCallbacks := reg.logfmtCallbacks ++ [spec] } := by
  refine ⟨h.callbacks, fun spec' hm => ?_⟩
  obtain hm | hm := List.mem_append.mp hm
  · exact h.formatters spec' hm
  · rw [List.mem_singleton.mp hm]
    exact hspec

/-- A callback is added. -/
lemma AllAccepted.append (h : AllAccepted repr requests reg) {r : CallbackRegistration α} (hfmt : kind ≠ .logfmt)
    (hemit : kind ≠ .logemit) {path : Option String} (hm : (kind, path, .function r.callback) ∈ requests)
    (hvalid : reg.validateFunction repr r.callback.toFunction kind = .ok r.params) :
    AllAccepted repr requests (reg.append kind r) := by
  refine ⟨fun kind' r' hr' => ?_, h.formatters⟩
  rw [CallbackRegistry.append] at hr'
  dsimp only at hr'
  split at hr'
  · next hk =>
    subst hk
    obtain hr' | hr' := List.mem_append.mp hr'
    · exact h.callbacks _ r' hr'
    · rw [List.mem_singleton.mp hr']
      exact ⟨hfmt, hemit, ⟨path, hm⟩, hvalid⟩
  · exact h.callbacks kind' r' hr'

/-- **One registration.** -/
lemma AllAccepted.registered (h : AllAccepted repr requests reg) {request : CallbackKind × Option String × Candidate α}
    (hm : request ∈ requests) : AllAccepted repr requests (reg.registered repr request) := by
  obtain ⟨kind, path, candidate⟩ := request
  rw [CallbackRegistry.registered]
  dsimp only
  split
  · next reg' hreg =>
    cases candidate with
    | notCallable => cases kind <;> cases hreg
    | «class» cls =>
      cases kind with
      | logfmt =>
        rw [register] at hreg
        obtain ⟨spec, hspec, hreg⟩ := bind_eq_ok.mp hreg
        obtain rfl := Except.ok.inj hreg
        exact h.add_formatter ⟨path, Or.inr ⟨cls, hm, hspec⟩⟩
      | _ => cases hreg
    | function callback =>
      have hplain : kind ≠ .logfmt → kind ≠ .logemit →
          (if kind = .validate ∧ callback.isAsync = true then
            .error (.typeError "validate callbacks must not be async (transactions are synchronous)")
          else do
            let params ← reg.validateFunction repr callback.toFunction kind
            .ok (reg.append kind ⟨callback, params⟩)) = .ok reg' → AllAccepted repr requests reg' := by
        intro hfmt hemit hreg
        split at hreg
        · cases hreg
        · obtain ⟨params, hparams, hreg⟩ := bind_eq_ok.mp hreg
          obtain rfl := Except.ok.inj hreg
          exact h.append hfmt hemit hm hparams
      cases kind with
      | logfmt =>
        rw [register] at hreg
        obtain ⟨spec, hspec, hreg⟩ := bind_eq_ok.mp hreg
        obtain rfl := Except.ok.inj hreg
        exact h.add_formatter ⟨path, Or.inl ⟨callback, hm, hspec⟩⟩
      | logemit =>
        rw [register] at hreg
        split at hreg
        · cases hreg
        · obtain rfl := Except.ok.inj hreg
          exact ⟨h.callbacks, h.formatters⟩
      | _ => exact hplain (by decide) (by decide) hreg
  · exact h

lemma allAccepted_registerAll (kantaClass dataType : Option String)
    (requests : List (CallbackKind × Option String × Candidate α)) :
    AllAccepted repr requests ((new kantaClass dataType).registerAll repr requests) := by
  have hrun : ∀ (done todo : List (CallbackKind × Option String × Candidate α)) (reg : CallbackRegistry α),
      AllAccepted repr done reg → AllAccepted repr (done ++ todo) (reg.registerAll repr todo) := by
    intro done todo
    induction todo generalizing done with
    | nil =>
      intro reg h
      rw [List.append_nil]
      exact h
    | cons request todo ih =>
      intro reg h
      have hmem : request ∈ done ++ [request] := List.mem_append_right done List.mem_cons_self
      have hstep := (h.mono (List.subset_append_left done [request])).registered hmem
      have hrest := ih (done ++ [request]) _ hstep
      rw [List.append_assoc] at hrest
      exact hrest
  exact hrun [] requests _ ⟨nofun, nofun⟩

/-! ### What is called -/

lemma invokeLoop_congr {onError : Option (Exc → Callback α → Bool)}
    {call call' : CallbackRegistration α → Except Exc Val} {rs : List (CallbackRegistration α)}
    (h : ∀ r ∈ rs, call r = call' r) :
    invokeLoop onError call rs = invokeLoop onError call' rs := by
  induction rs with
  | nil => rfl
  | cons r rs ih =>
    obtain ⟨hr, hrs⟩ := List.forall_mem_cons.mp h
    rw [invokeLoop, invokeLoop, hr, ih hrs]

/-- Whether a formatter becomes one, or making its instance raises. -/
def Builds (repr : RawAnnotation → String) (reg : CallbackRegistry α) (ctx : InjectionContext α)
    (spec : LogFmtSpec α) : Prop :=
  (∃ formatter, reg.buildFormatter repr ctx spec = .ok formatter ∧ reg.Calls repr ctx spec formatter) ∨
    ∃ cls injectParams pattern bound e, spec = .class cls injectParams pattern ∧ reg.Made repr ctx cls bound ∧
      cls.make bound = .error e ∧ reg.buildFormatter repr ctx spec = .error e

lemma validateLogfmtFunction_ok {callback : Callback α} {pattern : Option String} {spec : LogFmtSpec α}
    (h : reg.validateLogfmtFunction repr callback pattern = .ok spec) :
    ∃ value params who allowed strOnly injs, callback.signature.params = value :: params ∧ value.isVar = false ∧
      params.mapM (reg.checkParameter repr who allowed true .logfmt callback.toFunction) = .ok injs ∧
      spec = .function callback strOnly (injs.any Injection.isPath) (injs.filterMap Injection.param) pattern := by
  unfold validateLogfmtFunction at h
  dsimp only at h
  split at h
  · cases h
  · split at h
    · cases h
    · next value params hparams =>
      split at h
      · cases h
      · next hvar =>
        split at h
        · cases h
        · obtain ⟨ann, -, h⟩ := bind_eq_ok.mp h
          split at h
          · cases h
          · next strOnly _ =>
            obtain ⟨injs, hinjs, h⟩ := bind_eq_ok.mp h
            obtain ⟨_, -, h⟩ := bind_eq_ok.mp h
            exact ⟨value, params, _, _, strOnly, injs, hparams, by simpa using hvar, hinjs, (Except.ok.inj h).symm⟩

lemma validateLogfmtClass_ok {cls : FormatterClass α} {pattern : Option String} {spec : LogFmtSpec α}
    (h : reg.validateLogfmtClass repr cls pattern = .ok spec) : ∃ who allowed injs,
      (afterSelf cls.init.signature.params).mapM (reg.checkParameter repr who allowed false .logfmt cls.init) =
        .ok injs ∧
      cls.resolve.isSome = true ∧ spec = .class cls (injs.filterMap Injection.param) pattern := by
  unfold validateLogfmtClass at h
  split at h
  · cases h
  · split at h
    · cases h
    · obtain ⟨injs, hinjs, h⟩ := bind_eq_ok.mp h
      obtain ⟨_, hresolve, h⟩ := bind_eq_ok.mp h
      refine ⟨_, _, injs, hinjs, ?_, (Except.ok.inj h).symm⟩
      cases hnone : cls.resolve with
      | some f => rfl
      | none =>
        rw [hnone] at hresolve
        cases hresolve

/-- A function formats with a value, the path if it takes it, and what it asks for. -/
lemma builds_function (hbuilt : Built .logfmt ctx) {callback : Callback α} {pattern : Option String}
    {spec : LogFmtSpec α} (htakes : callback.toFunction.Takes)
    (hvalid : reg.validateLogfmtFunction repr callback pattern = .ok spec) : Builds repr reg ctx spec := by
  obtain ⟨value, params, who, allowed, strOnly, injs, hparams, hvar, hinjs, rfl⟩ := validateLogfmtFunction_ok hvalid
  obtain ⟨hvars, hchecked⟩ := checked_of_mapM hinjs
  have hnodup := callback.signature.nodup
  rw [hparams] at hnodup
  obtain ⟨kwargs, hbuild, -, hfound⟩ :=
    found_keywords hbuilt CallbackKind.noConfusion (List.nodup_cons.mp hnodup).2 hchecked
  obtain ⟨hvalue, hpositional⟩ := htakes value params hparams
  have hkinds : ∀ p ∈ params, p.Keyworded := fun p hp => keyworded_of_not (hvars p hp) (hpositional p hp)
  refine Or.inl ⟨_, by rw [buildFormatter, hbuild]; rfl, .function callback strOnly _ _ pattern value params hparams
    _ (fun path => bound_of_found (hfound path).2) _ fun v path => ?_⟩
  show (if _ then _ else CallbackRegistry.call _ _ _ (withPath injs path kwargs)) = _
  rw [CallbackRegistry.call, Signature.bind, hparams, Signature.bindParams_first (first_of_not hvar hvalue) _ hkinds
    hnodup (hfound path).1 (required_of_found (hfound path).2)]

/-- What `resolve` is called with. -/
lemma callFormatter_of_resolves {cls : FormatterClass α} {f : Function} (hcls : cls.resolve = some f)
    (hf : f.Resolves) (resolve : Method α) : ∃ (self value : Parameter RawAnnotation) (others : BoundArguments α),
      (∀ b ∈ others, b.2 = none) ∧ ∀ v path, callFormatter cls resolve v path = resolve
        ((self.name, some .self) :: (value.name, some (.value v)) :: ("path", some (.path path)) :: others) := by
  obtain ⟨-, self, value, path, others, hparams, hname, hpositional, hothers⟩ := hf
  refine ⟨self, value, Signature.defaults others, fun b hb => ?_, fun v text => ?_⟩
  · obtain ⟨p, -, rfl⟩ := List.mem_map.mp hb
    rfl
  · have hbind : Signature.bindParams (self :: value :: path :: others) [.self, .value v, .path text]
        ([] : List (String × Argument α)) = _ :=
      @Signature.bindParams_positional _ _ [self, value, path] others _ rfl hpositional hothers
    rw [callFormatter, hcls]
    show CallbackRegistry.call _ _ _ _ = _
    rw [CallbackRegistry.call, Signature.bind, hparams, hbind, ← hname]
    rfl

/-- An instance of a class is made with what its `__init__` asks for, and called through `resolve`. -/
lemma builds_class (hbuilt : Built .logfmt ctx) {cls : FormatterClass α} {pattern : Option String}
    {spec : LogFmtSpec α} (htakes : cls.init.Takes)
    (hself : ∃ self params, cls.init.signature.params = self :: params ∧ self.name = "self" ∧ self.isVar = false)
    (hresolves : ∀ f, cls.resolve = some f → f.Resolves)
    (hvalid : reg.validateLogfmtClass repr cls pattern = .ok spec) : Builds repr reg ctx spec := by
  obtain ⟨self, params, hparams, hname, hvar⟩ := hself
  obtain ⟨who, allowed, injs, hinjs, hsome, rfl⟩ := validateLogfmtClass_ok hvalid
  obtain ⟨f, hf⟩ := Option.isSome_iff_exists.mp hsome
  rw [hparams, afterSelf, if_pos hname] at hinjs
  obtain ⟨hvars, hchecked⟩ := checked_of_mapM hinjs
  have hnodup := cls.init.signature.nodup
  rw [hparams] at hnodup
  obtain ⟨kwargs, hbuild, hfound, -⟩ :=
    found_keywords hbuilt CallbackKind.noConfusion (List.nodup_cons.mp hnodup).2 hchecked
  obtain ⟨hkeys, hfound⟩ := hfound rfl
  obtain ⟨hvalue, hpositional⟩ := htakes _ params hparams
  have hkinds : ∀ p ∈ params, p.Keyworded := fun p hp => keyworded_of_not (hvars p hp) (hpositional p hp)
  obtain ⟨bound, hbound, hcall⟩ : ∃ bound, reg.Made repr ctx cls bound ∧
      CallbackRegistry.call cls.init cls.make [.self] kwargs = cls.make bound := by
    refine ⟨_, ⟨self, params, _, hparams, hname, rfl, bound_of_found hfound⟩, ?_⟩
    rw [CallbackRegistry.call, Signature.bind, hparams, Signature.bindParams_first (first_of_not hvar hvalue) _ hkinds
      hnodup hkeys (required_of_found hfound), hname]
  cases hmake : cls.make bound with
  | ok resolve =>
    obtain ⟨_, value, others, hothers, hcalled⟩ := callFormatter_of_resolves hf (hresolves f hf) resolve
    refine Or.inl ⟨_, ?_, .class cls _ pattern bound hbound resolve hmake _ value others hothers _ hcalled⟩
    rw [buildFormatter, hbuild]
    show (CallbackRegistry.call _ _ _ _ >>= _) = _
    rw [hcall, hmake]
    rfl
  | error e =>
    refine Or.inr ⟨cls, _, pattern, bound, e, rfl, hbound, hmake, ?_⟩
    rw [buildFormatter, hbuild]
    show (CallbackRegistry.call _ _ _ _ >>= _) = _
    rw [hcall, hmake]
    rfl

end CallbackRegistry

end

open CallbackRegistry in
/-- **What registration accepts can be called.**  However callbacks are registered, each gets what its parameters ask
for by their names and annotations, and defaults for the others; `invoke` raises only what a callback raises. -/
theorem invoke_bound (kantaClass dataType : Option String)
    (requests : List (CallbackKind × Option String × Candidate α)) {kind : CallbackKind} {ctx : InjectionContext α}
    (hbuilt : Built kind ctx) (hpositional : ∀ path callback, (kind, path, .function callback) ∈ requests →
      ∀ p ∈ callback.signature.params, p.kind ≠ .positionalOnly) (onError : Option (Exc → Callback α → Bool)) :
    let reg := (new kantaClass dataType).registerAll repr requests
    ∃ bound : CallbackRegistration α → BoundArguments α,
      (∀ r ∈ reg.callbacks kind,
        reg.Bound repr kind ctx none r.callback.toFunction r.callback.signature.params (bound r)) ∧
      reg.invoke repr kind ctx onError =
        invokeLoop onError (fun r => r.callback.run (bound r)) (reg.callbacks kind) := by
  intro reg
  have haccepted : AllAccepted repr requests reg := allAccepted_registerAll kantaClass dataType requests
  have hcalls : ∀ r ∈ reg.callbacks kind, ∃ bound,
      reg.Bound repr kind ctx none r.callback.toFunction r.callback.signature.params bound ∧
        reg.invokeOne repr ctx r = r.callback.run bound := by
    intro r hr
    obtain ⟨-, hemit, ⟨path, hm⟩, hvalid⟩ := haccepted.callbacks kind r hr
    rw [validateFunction] at hvalid
    obtain ⟨injs, hinjs, hvalid⟩ := bind_eq_ok.mp hvalid
    have hparams := Except.ok.inj hvalid
    obtain ⟨hvars, hchecked⟩ := checked_of_mapM hinjs
    have hnodup := r.callback.signature.nodup
    obtain ⟨kwargs, hbuild, hfound, -⟩ := found_keywords hbuilt hemit hnodup hchecked
    obtain ⟨hkeys, hfound⟩ := hfound rfl
    have hkinds : ∀ p ∈ r.callback.signature.params, p.Keyworded :=
      fun p hp => keyworded_of_not (hvars p hp) (hpositional path r.callback hm p hp)
    refine ⟨_, bound_of_found hfound, ?_⟩
    rw [invokeOne, ← hparams, hbuild]
    show CallbackRegistry.call _ _ _ _ = _
    rw [CallbackRegistry.call, Signature.bind,
      Signature.bindParams_keywords hkinds hnodup hkeys (required_of_found hfound)]
  choose! bound hbound hcall using hcalls
  exact ⟨bound, hbound, invokeLoop_congr hcall⟩

end

namespace Sample

def noRepr : RawAnnotation → String := fun _ => ""

/-- `eval` of the name of a class. -/
def evalName (text : String) : Except String Annotation := .ok (.type text)

/-- `def seed(data: Data, kanta: "Kanta", *, verbose=False)`. -/
def seed : Callback ℕ where
  name := "seed"
  isAsync := false
  signature := ⟨[⟨"data", .positionalOrKeyword, some (.evaluated (.type "Data")), false⟩,
    ⟨"kanta", .positionalOrKeyword, some (.source "Kanta"), false⟩, ⟨"verbose", .keywordOnly, none, true⟩], by decide⟩
  returns := none
  eval := evalName
  run
    | [(_, some (.object data)), (_, some (.object kanta)), (_, none)] => .ok (.list [.int data, .int kanta])
    | _ => .error (.user 0)

/-- `def anything(**kwargs)`. -/
def anything : Callback ℕ where
  name := "anything"
  isAsync := false
  signature := ⟨[⟨"kwargs", .varKeyword, none, false⟩], by decide⟩
  returns := none
  eval := evalName
  run _ := .ok .null

/-- `def owner(value: str, path: str, state)`. -/
def owner : Callback ℕ where
  name := "owner"
  isAsync := false
  signature := ⟨[⟨"value", .positionalOrKeyword, some (.evaluated (.type "str")), false⟩,
    ⟨"path", .positionalOrKeyword, some (.evaluated (.type "str")), false⟩,
    ⟨"state", .positionalOrKeyword, none, false⟩], by decide⟩
  returns := none
  eval := evalName
  run
    | [(_, some (.value v)), (_, some (.path path)), (_, some (.object _))] => .ok (.list [v, .str path])
    | _ => .error (.user 0)

/-- A method `f(self, value, path)`. -/
def resolve : Function where
  name := "resolve"
  isAsync := false
  signature := ⟨[⟨"self", .positionalOrKeyword, none, false⟩, ⟨"value", .positionalOrKeyword, none, false⟩,
    ⟨"path", .positionalOrKeyword, none, false⟩], by decide⟩
  returns := none
  eval := evalName

/-- A subclass of `LogFmt` with its `__init__(self, prev=None, state=None)`. -/
def names : FormatterClass ℕ where
  name := "Names"
  isLogFmt := true
  init := { resolve with
    name := "__init__"
    signature := ⟨[⟨"self", .positionalOrKeyword, none, false⟩, ⟨"prev", .positionalOrKeyword, none, true⟩,
      ⟨"state", .positionalOrKeyword, none, true⟩], by decide⟩ }
  resolve := some resolve
  make _ := .ok fun
    | [_, (_, some (.value v)), (_, some (.path "name"))] => .ok v
    | _ => .ok .null

def requests : List (CallbackKind × Option String × Candidate ℕ) :=
  [(.bootstrap, none, .function anything), (.bootstrap, none, .function seed), (.logfmt, none, .class names),
    (.logfmt, some "$user", .function owner)]

def seeding : InjectionContext ℕ := ⟨some 1, some 2, none, none, none, none⟩

def formatting : InjectionContext ℕ := ⟨some 1, none, none, some 3, some 4, none⟩

end Sample

open CallbackRegistry Sample in
example : ((new (some "Kanta") (some "Data")).registerAll noRepr requests).invoke noRepr .bootstrap seeding none =
    .ok [.list [.int 2, .int 1]] := rfl

open CallbackRegistry Sample in
theorem invoke_bound_seed :
    let reg := (new (some "Kanta") (some "Data")).registerAll noRepr requests
    ∃ bound : CallbackRegistration ℕ → BoundArguments ℕ,
      (∀ r ∈ reg.callbacks .bootstrap,
        reg.Bound noRepr .bootstrap seeding none r.callback.toFunction r.callback.signature.params (bound r)) ∧
      reg.invoke noRepr .bootstrap seeding none =
        invokeLoop none (fun r => r.callback.run (bound r)) (reg.callbacks .bootstrap) :=
  invoke_bound noRepr _ _ requests (.bootstrap 1 2) (by
    intro path callback hm p hp
    simp only [requests, List.mem_cons, Prod.mk.injEq, reduceCtorEq, false_and, or_false, List.not_mem_nil,
      Candidate.function.injEq, true_and] at hm
    obtain ⟨-, rfl⟩ | ⟨-, rfl⟩ := hm
    · revert p
      decide
    · revert p
      decide) none

section

variable (repr : RawAnnotation → String) {α : Type}

end

section

variable (repr : RawAnnotation → String) {α : Type}

namespace CallbackRegistry

/-- A formatter for the user, where it returns a string or nothing. -/
def asFormat (formatter : Val → String → Except Exc Val) : Format := fun user =>
  match formatter (.str user) userPath with
  | .ok (.str text) => .ok (some text)
  | .ok _ => .ok none
  | .error e => .error e

/-- The formatters that a transaction gets from a registry, whose callbacks see the states as objects. -/
def formatters (reg : CallbackRegistry α) (kanta : α) (object : Dict → α) : List Formatter :=
  reg.logfmtCallbacks.map fun spec =>
    { path := spec.pattern
      build := fun previous current => (fun built => asFormat built.2) <$> reg.buildFormatter repr
        ⟨some kanta, none, none, some (object previous), some (object current), none⟩ spec }

variable {repr} {reg : CallbackRegistry α}

lemma pattern_of_buildFormatter {ctx : InjectionContext α} {spec : LogFmtSpec α}
    {built : Option String × (Val → String → Except Exc Val)} (h : reg.buildFormatter repr ctx spec = .ok built) :
    built.1 = spec.pattern := by
  cases spec with
  | function callback strOnly hasPath injectParams pattern =>
    obtain ⟨kwargs, -, h⟩ := bind_eq_ok.mp h
    rw [← Except.ok.inj h]
    rfl
  | «class» cls injectParams pattern =>
    obtain ⟨kwargs, -, h⟩ := bind_eq_ok.mp h
    obtain ⟨formatter, -, h⟩ := bind_eq_ok.mp h
    rw [← Except.ok.inj h]
    rfl

lemma formatValue_asFormat (user : String) {built : List (Option String × (Val → String → Except Exc Val))}
    (hstr : ∀ f ∈ built, ∀ v path result, f.2 v path = .ok result → result = .null ∨ ∃ text, result = .str text) :
    formatValue (.str user) userPath built =
      (fun text => (text.map Val.str).getD .null) <$> Kanta.formatValue user userPath
        (built.map fun f => (f.1, asFormat f.2)) := by
  induction built with
  | nil => rfl
  | cons f built ih =>
    obtain ⟨hf, hrest⟩ := List.forall_mem_cons.mp hstr
    obtain ⟨pattern, formatter⟩ := f
    rw [List.map_cons, formatValue, Kanta.formatValue]
    dsimp only
    split
    · exact ih hrest
    · rw [asFormat]
      cases hresult : formatter (.str user) userPath with
      | error e =>
        dsimp only
        split
        · exact ih hrest
        · rfl
      | ok result =>
        obtain rfl | ⟨text, rfl⟩ := hf _ _ _ hresult
        · exact ih hrest
        · rfl

/-- **The user in the log** of a transaction is what the formatters of the registry make of it. -/
theorem formatValue_formatters (kanta : α) (object : Dict → α) (previous current : Dict) (user : String)
    {built : List (Option String × (Val → String → Except Exc Val))}
    (hbuilt : reg.logfmtCallbacks.mapM (reg.buildFormatter repr
      ⟨some kanta, none, none, some (object previous), some (object current), none⟩) = .ok built)
    (hstr : ∀ f ∈ built, ∀ v path result, f.2 v path = .ok result → result = .null ∨ ∃ text, result = .str text) :
    ∃ formats, Kanta.buildLogfmt previous current (reg.formatters repr kanta object) = .ok formats ∧
      formatValue (.str user) userPath built =
        (fun text => (text.map Val.str).getD .null) <$> Kanta.formatValue user userPath formats := by
  refine ⟨_, ?_, formatValue_asFormat user hstr⟩
  rw [formatters]
  generalize reg.logfmtCallbacks = specs at hbuilt
  clear hstr
  induction specs generalizing built with
  | nil =>
    obtain rfl := Except.ok.inj hbuilt
    rfl
  | cons spec specs ih =>
    rw [List.mapM_cons] at hbuilt
    obtain ⟨f, hf, hbuilt⟩ := bind_eq_ok.mp hbuilt
    obtain ⟨built, hrest, hbuilt⟩ := bind_eq_ok.mp hbuilt
    obtain rfl := Except.ok.inj hbuilt
    rw [List.map_cons, Kanta.buildLogfmt]
    dsimp only
    rw [hf, ih hrest, List.map_cons, pattern_of_buildFormatter hf]
    rfl

end CallbackRegistry

end

end Kanta
