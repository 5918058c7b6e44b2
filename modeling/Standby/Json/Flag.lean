import Standby.Json.Basic
/-!
# Flags

A flag is a truth value that may be written in several ways: as a JSON boolean, as one of a closed set of
words, or as the integer 1 or 0.
-/

namespace Standby.Flag

def trueWords : List String := ["True", "TRUE", "true", "1", "ON", "On", "on", "YES", "Yes", "yes"]

def falseWords : List String := ["False", "FALSE", "false", "0", "OFF", "Off", "off", "NO", "No", "no"]

def ofText? (s : String) : Option Bool :=
  if trueWords.contains s then some true else if falseWords.contains s then some false else none

def ofJson? : Json → Option Bool
  | .bool b => some b
  | .str s => ofText? s
  | .num (.int n) => if n = 1 then some true else if n = 0 then some false else none
  | _ => none

end Standby.Flag
