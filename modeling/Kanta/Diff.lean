import Kanta.Errors

/-!
# The diff producer

`diff previous current` describes the change between two state dicts: added keys and changed
values are plain assignments, removed keys are listed under `$delete`, dicts present on both sides
are diffed inside, and keys that start with `$` get another `$` in front.
-/

namespace Kanta

open Kanta.Lib Kanta.Lib.Assoc

/-- `s.startswith(start)`. -/
def startsWith (start s : String) : Bool := start.toList.isPrefixOf s.toList

/-- `_escape_key`. -/
def escapeKey (key : String) : String := if startsWith "$" key then "$" ++ key else key

mutual
/-- `_diff`; `none` is the marker for "unchanged". -/
def rawDiff : Val → Val → Option Val
  | .dict previous, .dict current =>
    let deleted := ((keys previous).filter fun k => k ∉ keys current).map fun k => Val.str (escapeKey k)
    let result := if deleted = [] then [] else [("$delete", Val.list deleted)]
    let result := diffItems previous current result
    if result = [] then none else some (.dict result)
  | previous, current => if previous.pyEq current then none else some current
/-- The loop of `_diff` over the items of the current dict. -/
def diffItems (previous : List (String × Val)) :
    List (String × Val) → List (String × Val) → List (String × Val)
  | [], result => result
  | (key, newValue) :: rest, result =>
    match previous.lookup key with
    | none => diffItems previous rest (put (escapeKey key) newValue result)
    | some old =>
      match rawDiff old newValue with
      | none => diffItems previous rest result
      | some sub => diffItems previous rest (put (escapeKey key) sub result)
end

/-- `diff`; `None` where there is no difference. -/
def diff (previous current : Dict) : Option Val := rawDiff previous.val current.val

end Kanta
