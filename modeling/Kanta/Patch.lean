import Kanta.Diff
import Kanta.PyInt

/-!
# The diff consumer

`applyDiff state diff` unescapes the whole diff and applies it.  Besides the producer's own format
it reads jsondiff's: `$replace`, positional `$delete` and `$insert` on lists, and per-index
diffs.  Every exception the interpreter raises on an ill-formed diff is in the result.
-/

namespace Kanta

open Kanta.Lib Kanta.Lib.Assoc

/-! ### Unescaping -/

/-- `_unescape`: only a `$$` start is stripped. -/
def unescape (value : String) : String :=
  if startsWith "$$" value then String.ofList (value.toList.drop 1) else value

mutual
/-- `unmarshal`: unescape every key and every string. -/
def unmarshal : Val → Val
  | .dict kvs => .dict (unmarshalItems kvs [])
  | .list xs => .list (unmarshalList xs)
  | .str s => .str (unescape s)
  | v => v
def unmarshalList : List Val → List Val
  | [] => []
  | x :: xs => unmarshal x :: unmarshalList xs
/-- The dict comprehension: a later key that unescapes to an earlier one takes its place. -/
def unmarshalItems : List (String × Val) → List (String × Val) → List (String × Val)
  | [], result => result
  | (k, v) :: r, result => unmarshalItems r (put (unescape k) (unmarshal v) result)
end

/-! ### Python's list and dict operations on plain builtins -/

/-- The truth value of `if v:`. -/
def truthy : Val → Bool
  | .null => false
  | .bool b => b
  | .int n => n ≠ 0
  | .float q => q ≠ 0
  | .str s => s ≠ ""
  | .list xs => !xs.isEmpty
  | .dict kvs => !kvs.isEmpty

/-- The items of `for x in v`. -/
def iterate : Val → Except Exc (List Val)
  | .list xs => .ok xs
  | .dict kvs => .ok ((keys kvs).map .str)
  | .str s => .ok (s.toList.map fun c => .str (String.ofList [c]))
  | _ => .error (.typeError "object is not iterable")

/-- The unpacking `a, b = v`. -/
def unpackPair (v : Val) : Except Exc (Val × Val) := do
  match ← iterate v with
  | [a, b] => .ok (a, b)
  | _ => .error .valueError

/-- The conversion of an index argument to a machine integer. -/
def toIndex : Val → Except Exc ℤ
  | .int n => if -(2 : ℤ) ^ 63 ≤ n ∧ n < (2 : ℤ) ^ 63 then .ok n else .error .overflowError
  | .bool b => .ok (if b then 1 else 0)
  | _ => .error (.typeError "object cannot be interpreted as an integer")

/-- The position an index means in a list, counted from the end when negative. -/
def position (result : List Val) (i : ℤ) : Except Exc ℕ :=
  let j := if i < 0 then i + result.length else i
  if 0 ≤ j ∧ j < result.length then .ok j.toNat else .error .indexError

/-- `result.pop(pos)`. -/
def listPop (result : List Val) (pos : Val) : Except Exc (List Val) := do
  let i ← toIndex pos
  let j ← position result i
  .ok (result.eraseIdx j)

/-- `result.insert(pos, value)`: positions outside are clamped. -/
def listInsert (result : List Val) (pos value : Val) : Except Exc (List Val) := do
  let i ← toIndex pos
  let j := if i < 0 then i + result.length else i
  .ok (result.insertIdx (min j.toNat result.length) value)

/-- `result.pop(k, None)` on a dict; an unhashable key is only noticed in a dict that is not empty. -/
def dictPop (result : List (String × Val)) (k : Val) : Except Exc (List (String × Val)) :=
  if result = [] then .ok result
  else
    match k with
    | .str s => .ok (remove s result)
    | .list _ => .error (.typeError "unhashable type: 'list'")
    | .dict _ => .error (.typeError "unhashable type: 'dict'")
    | _ => .ok result

/-! ### Applying a diff -/

/-- `_is_list_patch`. -/
def isListPatch (diff : List (String × Val)) : Bool :=
  (keys diff).all fun key => key = "$delete" || key = "$insert" || (pyInt key).isSome

/-- The positional deletions of a list edit. -/
def listDeletes (diff : List (String × Val)) (result : List Val) : Except Exc (List Val) :=
  match diff.lookup "$delete" with
  | none => .ok result
  | some deletes => if truthy deletes then do (← iterate deletes).foldlM listPop result else .ok result

/-- The positional insertions of a list edit. -/
def listInserts (diff : List (String × Val)) (result : List Val) : Except Exc (List Val) := do
  let inserts ← iterate ((diff.lookup "$insert").getD (.list []))
  inserts.foldlM (fun result item => do
    let (pos, value) ← unpackPair item
    listInsert result pos value) result

/-- The keys a `$delete` entry names. -/
def deleteKeys : Val → List Val
  | .list xs => xs
  | v => [v]

mutual
/-- `_apply`. -/
def rawApply : Val → Val → Except Exc Val
  | state, .dict diff =>
    if diff = [] then .ok state
    else
      match diff.lookup "$replace" with
      | some value => .ok value
      | none =>
        match state with
        | .list xs =>
          if isListPatch diff then do
            let result ← listDeletes diff xs
            let result ← listInserts diff result
            .list <$> applyIndices diff result
          else .ok (.dict diff)
        | .dict kvs => .dict <$> applyItems diff kvs
        | _ => .dict <$> applyItems diff []
  | _, diff => .ok diff
/-- The per-index diffs of a list edit. -/
def applyIndices : List (String × Val) → List Val → Except Exc (List Val)
  | [], result => .ok result
  | (key, value) :: rest, result =>
    if key = "$delete" ∨ key = "$insert" then applyIndices rest result
    else
      match pyInt key with
      | none => .error .valueError
      | some pos => do
        let j ← position result pos
        let new ← rawApply (result.getD j .null) value
        applyIndices rest (result.set j new)
/-- The loop of `_apply` over the items of a diff, on a dict. -/
def applyItems : List (String × Val) → List (String × Val) → Except Exc (List (String × Val))
  | [], result => .ok result
  | (key, value) :: rest, result =>
    if key = "$delete" then do
      let result ← (deleteKeys value).foldlM dictPop result
      applyItems rest result
    else if key = "$insert" then applyItems rest result
    else
      match result.lookup key with
      | some old => do
        let new ← rawApply old value
        applyItems rest (put key new result)
      | none => applyItems rest (put key value result)
end

/-- `apply_diff`. -/
def applyDiff (state diff : Val) : Except Exc Val := rawApply state (unmarshal diff)

/-- `patch`. -/
def patch (state diff : Val) : Except Exc Val := applyDiff state diff

end Kanta
