import Kanta.Lib.Signature
import Kanta.Structs

/-!
# Callbacks

Callbacks are registered once, and called with arguments that are found by the names and the annotations of their
parameters.  `register` checks a signature when nothing is known yet but the kind of the callback; `invoke` fills it
in from the context of an event.
-/

namespace Kanta

open Kanta.Lib

/-! ### Annotations -/

/-- An annotation; classes are told apart by their names. -/
inductive Annotation where
  | any
  | type (name : String)
  /-- `Annotated[base, ...]`, with the metadata that are strings. -/
  | annotated (base : Annotation) (metadata : List String)
  /-- `Union[...]` and `x | y`. -/
  | union (args : List Annotation)

/-- An annotation as the signature has it: the source of one, under `from __future__ import annotations`. -/
inductive RawAnnotation where
  | evaluated (ann : Annotation)
  | source (text : String)

/-- The keys of `_STATE_KINDS`. -/
inductive StateKey where
  | prev
  | state
deriving DecidableEq

/-- `_state_key`. -/
def stateKey (text : String) : Option StateKey :=
  if text = "prev" then some .prev else if text = "state" then some .state else none

namespace Annotation

/-- `ann is name`. -/
def isType (name : String) : Annotation → Bool
  | .type n => n == name
  | _ => false

/-- `bare is cls`, where there may be no class. -/
def isClass (ann : Annotation) : Option String → Bool
  | some name => ann.isType name
  | none => false

/-- `_state_tag`. -/
def stateTag : Annotation → Option StateKey
  | .annotated base metadata => if base.isType "dict" then metadata.findSome? stateKey else none
  | _ => none

/-- `_unwrap_optional`. -/
def unwrapOptional (ann : Annotation) : Annotation :=
  match ann with
  | .union args =>
    match args.filter fun arg => !arg.isType "NoneType" with
    | [arg] => arg
    | _ => ann
  | _ => ann

/-- `_is_optional_str`. -/
def isOptionalStr : Annotation → Bool
  | .union args => args.any (isType "NoneType") && args.any (isType "str")
  | ann => ann.isType "str"

end Annotation

/-! ### What is registered -/

/-- The kinds of callbacks. -/
inductive CallbackKind where
  | bootstrap
  | fatalError
  | logmigr
  | validate
  | logfmt
  | logemit
deriving DecidableEq

def CallbackKind.text : CallbackKind → String
  | .bootstrap => "bootstrap"
  | .fatalError => "fatal_error"
  | .logmigr => "logmigr"
  | .validate => "validate"
  | .logfmt => "logfmt"
  | .logemit => "logemit"

/-- What a call passes for a parameter. -/
inductive Argument (α : Type) where
  | self
  | null
  | object (a : α)
  | value (v : Val)
  | path (path : String)

def Argument.of {α : Type} : Option α → Argument α
  | some a => .object a
  | none => .null

/-- The arguments of a call by parameter; `none` is the default of the parameter. -/
abbrev BoundArguments (α : Type) := List (String × Option (Argument α))

/-- A function or method, with `eval` in its globals; an exception there is its text. -/
structure Function where
  name : String
  isAsync : Bool
  signature : Signature RawAnnotation
  returns : Option RawAnnotation
  eval : String → Except String Annotation

/-- Its first parameter takes a value by position, and the others are not by position only. -/
def Function.Takes (f : Function) : Prop :=
  ∀ value params, f.signature.params = value :: params →
    value.kind ≠ .keywordOnly ∧ ∀ p ∈ params, p.kind ≠ .positionalOnly

/-- A function with what a call of it does. -/
structure Callback (α : Type) extends Function where
  run : BoundArguments α → Except Exc Val

/-- It can be called with a value and a path behind `self`, as `LogFmt.__call__` calls `resolve`. -/
def Function.Resolves (f : Function) : Prop :=
  f.isAsync = false ∧ ∃ self value path others, f.signature.params = self :: value :: path :: others ∧
    path.name = "path" ∧ (∀ p ∈ [self, value, path], p.Positional) ∧
    ∀ p ∈ others, p.isVar = true ∨ p.hasDefault = true

/-- What the body of a method does with its arguments. -/
abbrev Method (α : Type) := BoundArguments α → Except Exc Val

/-- A class with its `__init__` and its `resolve`, if that is not `None`, and what a call of it makes, of which only
the method `resolve` is called. -/
structure FormatterClass (α : Type) where
  name : String
  isLogFmt : Bool
  init : Function
  resolve : Option Function
  make : BoundArguments α → Except Exc (Method α)

/-- What `register` is called with. -/
inductive Candidate (α : Type) where
  | function (callback : Callback α)
  | class (cls : FormatterClass α)
  | notCallable

/-- The names and annotations of the parameters that are injected. -/
abbrev InjectParams := List (String × Annotation)

/-- `_CallbackRegistration`. -/
structure CallbackRegistration (α : Type) where
  callback : Callback α
  params : InjectParams

/-- `_LogFmtFunctionSpec` and `_LogFmtClassSpec`. -/
inductive LogFmtSpec (α : Type) where
  | function (callback : Callback α) (strOnly hasPath : Bool) (injectParams : InjectParams) (path : Option String)
  | class (cls : FormatterClass α) (injectParams : InjectParams) (path : Option String)

structure CallbackRegistry (α : Type) where
  kantaClass : Option String
  dataType : Option String
  callbacks : CallbackKind → List (CallbackRegistration α)
  logfmtCallbacks : List (LogFmtSpec α)
  logemitCallbacks : List (Callback α)

/-- The values of an event. -/
structure InjectionContext (α : Type) where
  kanta : Option α
  data : Option α
  error : Option α
  previousState : Option α
  currentState : Option α
  report : Option α

def InjectionContext.stateOf {α : Type} (ctx : InjectionContext α) : StateKey → Option α
  | .prev => ctx.previousState
  | .state => ctx.currentState

/-! ### Registration -/

/-- What becomes of a parameter. -/
inductive Injection where
  | default
  | path
  | inject (name : String) (ann : Annotation)

def Injection.param : Injection → Option (String × Annotation)
  | .inject name ann => some (name, ann)
  | _ => none

def Injection.isPath : Injection → Bool
  | .path => true
  | _ => false

/-- The path that a formatter is for, if it is for one. -/
def LogFmtSpec.pattern {α : Type} : LogFmtSpec α → Option String
  | .function _ _ _ _ path => path
  | .class _ _ path => path

/-- `isinstance(value, str)`. -/
def Val.isStr : Val → Bool
  | .str _ => true
  | _ => false

/-- Whether a formatter is for strings only. -/
def strOnly (bare : Annotation) : Option Bool :=
  match bare with
  | .any => some false
  | _ => if bare.isType "str" then some true else none

section

variable (repr : RawAnnotation → String)

/-- `_resolve_raw_annotation`. -/
def Function.resolveRawAnnotation (f : Function) : RawAnnotation → Except Exc Annotation
  | .evaluated ann => .ok ann
  | .source text =>
    match f.eval text with
    | .ok ann => .ok ann
    | .error exc => .error (.typeError ("could not resolve annotation " ++ repr (.source text) ++ " for " ++ f.name ++
      ": " ++ exc))

variable {α : Type}

namespace CallbackRegistry

/-- `CallbackRegistry()`. -/
def new (kantaClass dataType : Option String) : CallbackRegistry α := ⟨kantaClass, dataType, fun _ => [], [], []⟩

variable (reg : CallbackRegistry α)

/-- `_is_allowed`. -/
def isAllowed (kind : CallbackKind) (ann : Annotation) : Bool :=
  let bare := ann.unwrapOptional
  if bare.stateTag.isSome then kind = .logfmt
  else if bare.isType "DatabaseError" then kind = .fatalError
  else if bare.isType "MigrationReport" then kind = .logmigr
  else if bare.isClass reg.dataType then kind = .bootstrap ∨ kind = .validate
  else if bare.isClass reg.kantaClass then kind ≠ .logemit
  else false

/-- `_allowed_message`. -/
def allowedMessage (kind : CallbackKind) : String :=
  let parts := (if kind = .bootstrap ∨ kind = .validate then reg.dataType.toList else []) ++
    (if kind ≠ .logemit then reg.kantaClass.toList else []) ++
    (if kind = .fatalError then ["DatabaseError"] else []) ++
    (if kind = .logmigr then ["MigrationReport"] else []) ++
    if kind = .logfmt then ["prev: dict", "state: dict"] else []
  if parts = [] then "none" else ", ".intercalate parts

/-- One parameter in the loops of `_validate_function`, `_validate_logfmt_function` and `_validate_logfmt_class`. -/
def checkParameter (who allowed : String) (takesPath : Bool) (kind : CallbackKind) (f : Function)
    (p : Parameter RawAnnotation) : Except Exc Injection :=
  if p.isVar then .error (.typeError (who ++ " must not use *args or **kwargs"))
  else
    match p.annotation with
    | none =>
      if (stateKey p.name).isSome then .ok (.inject p.name (.type "dict"))
      else if p.hasDefault then .ok .default
      else .error (.typeError (who ++ " has parameter '" ++ p.name ++ "' without an annotation or default value"))
    | some raw => do
      let ann ← f.resolveRawAnnotation repr raw
      if (stateKey p.name).isSome then .ok (.inject p.name ann)
      else if takesPath ∧ p.name = "path" ∧ ann.unwrapOptional.isType "str" then .ok .path
      else if reg.isAllowed kind ann then .ok (.inject p.name ann)
      else if p.hasDefault then .ok .default
      else .error (.typeError (who ++ " has parameter '" ++ p.name ++ "' with unsupported annotation " ++
        repr (.evaluated ann) ++ ". Allowed: " ++ allowed))

/-- `_validate_function`. -/
def validateFunction (f : Function) (kind : CallbackKind) : Except Exc InjectParams := do
  let found ← f.signature.params.mapM
    (reg.checkParameter repr (kind.text ++ " callback " ++ f.name) (reg.allowedMessage kind) false kind f)
  .ok (found.filterMap Injection.param)

/-- The return annotation of a formatter. -/
def checkReturn (who : String) (f : Function) : Except Exc Unit :=
  match f.returns with
  | none => .ok ()
  | some raw => do
    let ann ← f.resolveRawAnnotation repr raw
    if ann.isOptionalStr then .ok ()
    else .error (.typeError (who ++ " must return str | None, got " ++ repr (.evaluated ann)))

/-- `_validate_logfmt_function`. -/
def validateLogfmtFunction (callback : Callback α) (path : Option String) : Except Exc (LogFmtSpec α) :=
  let who := "logfmt callback " ++ callback.name
  if callback.isAsync then .error (.typeError "logfmt callbacks must not be async")
  else
    match callback.signature.params with
    | [] => .error (.typeError (who ++ " must accept a value parameter"))
    | value :: params =>
      if value.isVar then .error (.typeError (who ++ " must not use *args or **kwargs"))
      else
        let named := who ++ " value parameter '" ++ value.name ++ "' must be annotated as str or Any"
        match value.annotation with
        | none => .error (.typeError named)
        | some raw => do
          let ann ← callback.resolveRawAnnotation repr raw
          match strOnly ann.unwrapOptional with
          | none => .error (.typeError (named ++ ", got " ++ repr (.evaluated ann)))
          | some strOnly =>
            let found ← params.mapM (reg.checkParameter repr who ("str path, " ++ reg.allowedMessage .logfmt) true
              .logfmt callback.toFunction)
            checkReturn repr who callback.toFunction
            .ok (.function callback strOnly (found.any Injection.isPath) (found.filterMap Injection.param) path)

/-- A parameter of `resolve` that is called `path`. -/
def findPath (f : Function) : List (Parameter RawAnnotation) → Except Exc Bool
  | [] => .ok false
  | p :: params => do
    let bare ← p.annotation.mapM fun raw => Annotation.unwrapOptional <$> f.resolveRawAnnotation repr raw
    if p.name = "path" ∧ bare.all (·.isType "str") then .ok true else findPath f params

/-- `resolve` of a formatter class. -/
def checkResolve (who : String) : Option Function → Except Exc Unit
  | none => .error (.typeError (who ++ " must define a resolve method"))
  | some resolve =>
    let who := who ++ ".resolve"
    match resolve.signature.params with
    | [] => .error (.typeError (who ++ " must have 'self' as first parameter"))
    | first :: params =>
      if first.name ≠ "self" then .error (.typeError (who ++ " must have 'self' as first parameter"))
      else
        match params with
        | [] => .error (.typeError (who ++ " must accept a value parameter"))
        | value :: params => do
          match ← value.annotation.mapM (resolve.resolveRawAnnotation repr) with
          | some ann =>
            if (strOnly ann.unwrapOptional).isNone then
              .error (.typeError (who ++ " value parameter '" ++ value.name ++
                "' must be annotated as str or Any, got " ++ repr (.evaluated ann)))
          | none => .ok ()
          if ← findPath repr resolve params then checkReturn repr who resolve
          else .error (.typeError (who ++ " must accept a 'path: str' parameter"))

/-- The parameters behind a first one that is called `self`. -/
def afterSelf : List (Parameter RawAnnotation) → List (Parameter RawAnnotation)
  | [] => []
  | p :: params => if p.name = "self" then params else p :: params

/-- `_validate_logfmt_class`. -/
def validateLogfmtClass (cls : FormatterClass α) (path : Option String) : Except Exc (LogFmtSpec α) :=
  if ¬cls.isLogFmt then .error (.typeError "logfmt classes must inherit from kanta.callbacks.LogFmt")
  else if cls.init.isAsync then .error (.typeError "logfmt class __init__ must not be async")
  else do
    let who := "logfmt class " ++ cls.name
    let found ← (afterSelf cls.init.signature.params).mapM
      (reg.checkParameter repr (who ++ ".__init__") (reg.allowedMessage .logfmt) false .logfmt cls.init)
    checkResolve repr who cls.resolve
    .ok (.class cls (found.filterMap Injection.param) path)

/-- `self._callbacks[kind].append(...)`. -/
def append (kind : CallbackKind) (registration : CallbackRegistration α) : CallbackRegistry α :=
  { reg with callbacks := fun k => if k = kind then reg.callbacks k ++ [registration] else reg.callbacks k }

def register (kind : CallbackKind) (path : Option String) : Candidate α → Except Exc (CallbackRegistry α)
  | .class cls =>
    match kind with
    | .logfmt => do
      let spec ← reg.validateLogfmtClass repr cls path
      .ok { reg with logfmtCallbacks := reg.logfmtCallbacks ++ [spec] }
    | .logemit => .error (.typeError "logemit callbacks must be functions")
    | _ => .error (.typeError (kind.text ++ " callbacks must be functions, not classes"))
  | .notCallable =>
    match kind with
    | .logfmt => .error (.typeError "not a callable object")
    | .logemit => .error (.typeError "logemit callbacks must be functions")
    | _ => .error (.typeError (kind.text ++ " callback must be callable"))
  | .function callback =>
    match kind with
    | .logfmt => do
      let spec ← reg.validateLogfmtFunction repr callback path
      .ok { reg with logfmtCallbacks := reg.logfmtCallbacks ++ [spec] }
    | .logemit =>
      if callback.isAsync then .error (.typeError "logemit callbacks must not be async")
      else .ok { reg with logemitCallbacks := reg.logemitCallbacks ++ [callback] }
    | _ =>
      if kind = .validate ∧ callback.isAsync = true then
        .error (.typeError "validate callbacks must not be async (transactions are synchronous)")
      else do
        let params ← reg.validateFunction repr callback.toFunction kind
        .ok (reg.append kind ⟨callback, params⟩)

/-- A registration that raises changes nothing. -/
def registered (request : CallbackKind × Option String × Candidate α) : CallbackRegistry α :=
  match reg.register repr request.1 request.2.1 request.2.2 with
  | .ok reg => reg
  | .error _ => reg

def registerAll (requests : List (CallbackKind × Option String × Candidate α)) : CallbackRegistry α :=
  requests.foldl (registered repr) reg

/-! ### Calls -/

/-- `_resolve_annotation`; `none` is `_UNRESOLVED`. -/
def resolveAnnotation (name : String) (ann : Annotation) (ctx : InjectionContext α) : Option (Option α) :=
  let bare := ann.unwrapOptional
  match bare.stateTag, stateKey name with
  | some tag, _ => some (ctx.stateOf tag)
  | none, some key => some (ctx.stateOf key)
  | none, none =>
    if bare.isType "DatabaseError" then some ctx.error
    else if bare.isType "MigrationReport" then some ctx.report
    else if bare.isClass reg.dataType then some ctx.data
    else if bare.isClass reg.kantaClass then some ctx.kanta
    else none

/-- `_build_kwargs`. -/
def buildKwargs (params : InjectParams) (ctx : InjectionContext α) : Except Exc (List (String × Argument α)) :=
  params.mapM fun p =>
    match reg.resolveAnnotation p.1 p.2 ctx with
    | some a => .ok (p.1, .of a)
    | none => .error (.runtimeError ("no value available for annotation " ++ repr (.evaluated p.2)))

/-- `f(*args, **kwargs)`. -/
def call {β : Type} (f : Function) (run : BoundArguments α → Except Exc β) (args : List (Argument α))
    (kwargs : List (String × Argument α)) : Except Exc β :=
  match f.signature.bind args kwargs with
  | some bound => run bound
  | none => .error (.typeError (f.name ++ "() got wrong arguments"))

/-- The loop of `invoke`; `onError` says whether to go on. -/
def invokeLoop (onError : Option (Exc → Callback α → Bool)) (invoked : CallbackRegistration α → Except Exc Val) :
    List (CallbackRegistration α) → Except Exc (List Val)
  | [] => .ok []
  | r :: rest =>
    match invoked r with
    | .ok result => (result :: ·) <$> invokeLoop onError invoked rest
    | .error e =>
      if e.isException then
        match onError with
        | none => .error e
        | some report => if report e r.callback then invokeLoop onError invoked rest else .ok []
      else .error e

/-- One callback in the loops of `invoke` and `invoke_sync`. -/
def invokeOne (ctx : InjectionContext α) (r : CallbackRegistration α) : Except Exc Val := do
  let kwargs ← reg.buildKwargs repr r.params ctx
  call r.callback.toFunction r.callback.run [] kwargs

/-- `invoke`; without `on_error` it is `invoke_sync`. -/
def invoke (kind : CallbackKind) (ctx : InjectionContext α) (onError : Option (Exc → Callback α → Bool)) :
    Except Exc (List Val) :=
  invokeLoop onError (reg.invokeOne repr ctx) (reg.callbacks kind)

/-- `LogFmt.__call__`: `self.resolve(value, path)`. -/
def callFormatter (cls : FormatterClass α) (resolve : Method α) (value : Val) (path : String) : Except Exc Val :=
  match cls.resolve with
  | some f => call f resolve [.self, .value value, .path path] []
  | none => .error (.typeError "'NoneType' object is not callable")

/-- One formatter of `build_logfmt`, with the path it is for. -/
def buildFormatter (ctx : InjectionContext α) :
    LogFmtSpec α → Except Exc (Option String × (Val → String → Except Exc Val))
  | .function callback strOnly hasPath injectParams pattern => do
    let kwargs ← reg.buildKwargs repr injectParams ctx
    .ok (pattern, fun value path =>
      if strOnly = true ∧ value.isStr = false then .ok .null
      else call callback.toFunction callback.run [.value value]
        (if hasPath then Assoc.put "path" (.path path) kwargs else kwargs))
  | .class cls injectParams pattern => do
    let kwargs ← reg.buildKwargs repr injectParams ctx
    let resolve ← call cls.init cls.make [.self] kwargs
    .ok (pattern, callFormatter cls resolve)

/-- `format_value` of `build_logfmt`. -/
def formatValue (value : Val) (path : String) :
    List (Option String × (Val → String → Except Exc Val)) → Except Exc Val
  | [] => .ok .null
  | (pattern, formatter) :: rest =>
    if pattern.isSome ∧ pattern ≠ some path then formatValue value path rest
    else
      match formatter value path with
      | .ok .null => formatValue value path rest
      | .ok resolved => .ok resolved
      | .error e => if e.isException then formatValue value path rest else .error e

def buildLogfmt (ctx : InjectionContext α) : Except Exc (Val → String → Except Exc Val) := do
  let formatters ← reg.logfmtCallbacks.mapM (reg.buildFormatter repr ctx)
  .ok fun value path => formatValue value path formatters

end CallbackRegistry

end

end Kanta
