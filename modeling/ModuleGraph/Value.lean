import ModuleGraph.Decimal
import ModuleGraph.Key

/-!
# Values of bindings

The values that a module binding can hold. Functions and namespaces are compared by identity: a
function by the number it was made with, a namespace by the instance it belongs to.
-/

namespace ModuleGraph

/-- What a host function does when it is called. `bump` and `peek` work on the module that made the
function. -/
inductive Behaviour where
  | count
  | upper
  | throw (message : String)
  | bump (cell : String)
  | peek (imported : String)
  | echo
deriving DecidableEq, Repr

/-- A host function. `home` is the module that made it. -/
structure Function where
  identity : Nat
  name : String
  behaviour : Behaviour
  home : Option ModuleKey
deriving DecidableEq, Repr

/-- The identity of an instance: its module, and the number of the call that made it. A call makes
at most one instance of a module. -/
structure InstanceId where
  key : ModuleKey
  round : Nat
deriving DecidableEq, Repr

/-- A value. A namespace is named by the instance whose exports it holds. -/
inductive Value where
  | undefined
  | null
  | boolean (value : Bool)
  | number (value : Float)
  | string (value : String)
  | function (function : Function)
  | namespace (owner : InstanceId)
deriving Repr

namespace Value

/-- Whether two values are the same one. Numbers are compared as numbers, so that a number that is
none differs from itself. -/
def same : Value → Value → Bool
  | .undefined, .undefined | .null, .null => true
  | .boolean a, .boolean b => a == b
  | .number a, .number b => a == b
  | .string a, .string b => a == b
  | .function f, .function g => f.identity == g.identity
  | .namespace i, .namespace j => i == j
  | _, _ => false

/-- The contents of a string value. -/
def string? : Value → Option String
  | .string s => some s
  | _ => none

/-- The number of a number value. -/
def number? : Value → Option Float
  | .number n => some n
  | _ => none

/-- A whole number below `10 ^ 21`, held to the range of 64 bits. -/
def wholeText (x : Float) : String :=
  toString x.toInt64.toInt

/-- A number as shown: whole numbers below `10 ^ 21` without a point, all others by their shortest
digits. -/
def numberText (x : Float) : String :=
  if x.isNaN then "NaN"
  else if x.isInf then if x < 0 then "-Infinity" else "Infinity"
  else if x.floor == x && x.abs < 1e21 then wholeText x
  else (if x < 0 then "-" else "") ++ (Decimal.ofFloat x).text

/-- The value as shown. -/
def text : Value → String
  | .undefined => "undefined"
  | .null => "null"
  | .boolean b => if b then "true" else "false"
  | .number n => numberText n
  | .string s => s
  | .function f => "[Function: " ++ f.name ++ "]"
  | .namespace owner => "[Module: " ++ owner.key.text ++ "]"

end Value

end ModuleGraph
