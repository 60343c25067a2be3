import OppexSdk.Lib.Binary64
import OppexSdk.Lib.Interaction

/-! # JavaScript values and what a program does with them

An object of the host is a reference: its getters, conversions and calls run code of the host,
which may throw any value and may do something else each time. What the program or the engine
makes itself, errors and plain records, has its properties here. The built-in prototypes are as
the language has them. -/
namespace OppexSdk.Lib.JavaScript
open OppexSdk.Lib.Binary64 OppexSdk.Lib.Interaction

/-- Code units of UTF-16. -/
abbrev JsString := List UInt16

def utf16 (c : Char) : List UInt16 :=
  if c.val < 0x10000 then [c.val.toUInt16]
  else
    let v := c.val - 0x10000
    [(0xD800 + v / 0x400).toUInt16, (0xDC00 + v % 0x400).toUInt16]

def js (s : String) : JsString := s.toList.flatMap utf16

/-- White space and line terminators. -/
def isWhiteSpace (u : UInt16) : Bool :=
  (0x09 ≤ u && u ≤ 0x0D) || u == 0x20 || u == 0xA0 || u == 0x1680 || (0x2000 ≤ u && u ≤ 0x200A) ||
    u == 0x2028 || u == 0x2029 || u == 0x202F || u == 0x205F || u == 0x3000 || u == 0xFEFF

/-- `String.prototype.trim`. -/
def trim (s : JsString) : JsString :=
  ((s.dropWhile isWhiteSpace).reverse.dropWhile isWhiteSpace).reverse

/-- The double nearest to an integer. -/
def numberOfInt (n : Int) : Double :=
  match ofRatio (decide (n < 0)) n.natAbs 1 with
  | some x => .finite x
  | none => .infinite (decide (n < 0))

inductive Value
  | undefined
  | null
  | boolean (b : Bool)
  | number (x : Double)
  | bigint (n : Int)
  | string (s : JsString)
  | symbol (id : Nat) (description : JsString)
  /-- An `Error` that the program or the engine made. -/
  | error (name message : JsString)
  /-- A plain object with its own properties. -/
  | record (fields : List (String × Value))
  /-- An object of the host, or a function of it. -/
  | object (ref : Nat) (callable : Bool)

namespace Value

/-- `ToBoolean`. -/
def truthy : Value → Bool
  | undefined | null => false
  | boolean b => b
  | number (.finite x) => x.significand != 0
  | number (.infinite _) => true
  | number .nan => false
  | bigint n => n != 0
  | string s => !s.isEmpty
  | symbol .. | error .. | record _ | object .. => true

/-- `typeof v === 'object' && v !== null`. -/
def isObject : Value → Bool
  | error .. | record _ | object _ false => true
  | _ => false

def isFunction : Value → Bool
  | object _ true => true
  | _ => false

def isUndefined : Value → Bool
  | undefined => true
  | _ => false

/-- `undefined` or `null`. -/
def isNullish : Value → Bool
  | undefined | null => true
  | _ => false

def isNumber : Value → Bool
  | number _ => true
  | _ => false

def isString : Value → Bool
  | string _ => true
  | _ => false

/-- A string or `null`. -/
def isNullableString : Value → Bool
  | string _ | null => true
  | _ => false

/-- The property of a record; a later field of the same name replaces an earlier one. -/
def own (fields : List (String × Value)) (key : String) : Value :=
  ((fields.reverse.find? (·.1 == key)).map (·.2)).getD undefined

end Value

def typeError (message : String) : Value := .error (js "TypeError") (js message)

/-- The engine's conversions between numbers, texts and JSON. -/
structure Engine where
  numberText : Double → JsString
  textNumber : JsString → Double
  /-- `none` when `JSON.parse` throws; arrays and objects are records. -/
  parse : JsString → Option Value
  stringify : List (String × Value) → JsString

/-! ## The host -/

section
variable (σ : Type)

/-- What a program asks. `σ` is what it shares with other calls. -/
inductive Query
  | get (ref : Nat) (key : String)
  | has (ref : Nat) (key : String)
  /-- `instanceof Error` -/
  | isError (ref : Nat)
  | toText (ref : Nat)
  | toNumber (ref : Nat)
  | call (ref : Nat) (args : List Value)
  /-- The own enumerable properties, read one after the other. -/
  | spread (ref : Nat)
  | console (method : String) (message : JsString)
  /-- `Date.now()` -/
  | now
  | sleep (ms : Nat)
  /-- A request: it is rejected with an `Error`, or has a status and a body. -/
  | send (url : JsString) (headers : List (String × JsString)) (body : JsString)
  | read
  | write (shared : σ)

def hostSignature : Signature where
  Query := Query σ
  Answer
    | .get .. | .call .. => Except Value Value
    | .has .. | .isError _ => Except Value Bool
    | .toText _ => Except Value JsString
    | .toNumber _ => Except Value Double
    | .spread _ => Except Value (List (String × Value))
    | .console .. => Except Value Unit
    | .now => Nat
    | .sleep _ | .write _ => Unit
    | .send .. => Except (JsString × JsString) (Nat × JsString)
    | .read => σ

abbrev Js (α : Type) := Program (hostSignature σ) Value α

end

section
variable {σ : Type}

/-- The questions a program waits for, with other code running in the meantime. -/
def Query.suspends : Query σ → Bool
  | .sleep _ | .send .. => true
  | _ => false

/-- `v.key` -/
def getProp (v : Value) (key : String) : Js σ Value :=
  match v with
  | .undefined => .throw (typeError s!"Cannot read properties of undefined (reading '{key}')")
  | .null => .throw (typeError s!"Cannot read properties of null (reading '{key}')")
  | .error name message =>
    pure (if key = "message" then .string message else if key = "name" then .string name
      else .undefined)
  | .record fields => pure (Value.own fields key)
  | .object ref _ => .ask (.get ref key : Query σ) .ofExcept
  | _ => pure .undefined

/-- `key in v` -/
def hasProp (v : Value) (key : String) : Js σ Bool :=
  match v with
  | .error .. => pure (key = "message" || key = "name" || key = "stack")
  | .record fields => pure (fields.any (·.1 == key))
  | .object ref _ => .ask (.has ref key : Query σ) .ofExcept
  | _ => .throw (typeError s!"Cannot use 'in' operator to search for '{key}' in a primitive")

/-- `v instanceof Error` -/
def instanceofError (v : Value) : Js σ Bool :=
  match v with
  | .error .. => pure true
  | .object ref _ => .ask (.isError ref : Query σ) .ofExcept
  | _ => pure false

/-- `Error.prototype.toString` -/
def errorText (name message : JsString) : JsString :=
  if name.isEmpty then message
  else if message.isEmpty then name
  else name ++ js ": " ++ message

variable (engine : Engine)

/-- `ToString`, as a template applies it. -/
def toText (v : Value) : Js σ JsString :=
  match v with
  | .undefined => pure (js "undefined")
  | .null => pure (js "null")
  | .boolean b => pure (js (toString b))
  | .number x => pure (engine.numberText x)
  | .bigint n => pure (js (toString n))
  | .string s => pure s
  | .symbol .. => .throw (typeError "Cannot convert a Symbol value to a string")
  | .error name message => pure (errorText name message)
  | .record _ => pure (js "[object Object]")
  | .object ref _ => .ask (.toText ref : Query σ) .ofExcept

/-- `String(v)` -/
def stringOf (v : Value) : Js σ JsString :=
  match v with
  | .symbol _ description => pure (js "Symbol(" ++ description ++ js ")")
  | v => toText engine v

/-- `Number(v)` -/
def numberOf (v : Value) : Js σ Double :=
  match v with
  | .undefined => pure .nan
  | .null => pure (numberOfInt 0)
  | .boolean b => pure (numberOfInt b.toNat)
  | .number x => pure x
  | .bigint n => pure (numberOfInt n)
  | .string s => pure (engine.textNumber s)
  | .symbol .. => .throw (typeError "Cannot convert a Symbol value to a number")
  | .error name message => pure (engine.textNumber (errorText name message))
  | .record _ => pure (engine.textNumber (js "[object Object]"))
  | .object ref _ => .ask (.toNumber ref : Query σ) .ofExcept

/-- `f(...args)` -/
def callValue (f : Value) (args : List Value) : Js σ Value :=
  match f with
  | .object ref true => .ask (.call ref args : Query σ) .ofExcept
  | _ => .throw (typeError "not a function")

/-- `{...v}` -/
def spread (v : Value) : Js σ (List (String × Value)) :=
  match v with
  | .record fields => pure fields
  | .object ref _ => .ask (.spread ref : Query σ) .ofExcept
  | _ => pure []

end

end OppexSdk.Lib.JavaScript
