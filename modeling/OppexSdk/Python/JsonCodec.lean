import OppexSdk.Lib.DecimalValue
import OppexSdk.Lib.JsonReader
import OppexSdk.Lib.Runes

/-! # Reading a response in Python

`JsonCodec.parse_response` of `python/src/oppex_sdk/_internal/json_codec.py`, over `json.loads` as
it is documented: RFC 8259 with `NaN`, `Infinity` and `-Infinity` as further numbers, integers of
any size, and no limit but those of the interpreter. A text is taken by its UTF-8 bytes. -/
namespace OppexSdk.Python.JsonCodec
open OppexSdk.Lib OppexSdk.Lib.Json OppexSdk.Lib.FromChars OppexSdk.Lib.Binary64

/-! ## Exceptions -/

/-- An `IncidentException`, without its cause. -/
structure IncidentException where
  message : Bytes
  statusCode : Int := -1
  retryable : Bool := false
  deriving DecidableEq

/-- The exceptions of the standard library. -/
inductive Builtin
  | valueError
  | overflowError
  | recursionError
  deriving DecidableEq

/-- What a call raises. -/
inductive Raised
  | incident (e : IncidentException)
  | transportError
  | builtin (e : Builtin)
  deriving DecidableEq

/-! ## `json.loads` -/

/-- The literals that `parse_constant` is called for. -/
def constants : List Bytes := [bytes "NaN", bytes "Infinity", bytes "-Infinity"]

def scanConstant (s : Bytes) : Option (Tree × Bytes) :=
  constants.findSome? fun lit => (expectText lit s).map fun s => (.num lit, s)

/-- `scan_once`, for a value of fewer than `levels` levels below its root. -/
def scanOnce : Nat → Bytes → Option (Tree × Bytes)
  | 0, _ => none
  | _ + 1, [] => none
  | levels + 1, b :: s =>
    if b = 0x22 then (parseBody s).map fun r => (.str r.1, r.2)
    else if b = 0x7B then parseObject (scanOnce levels) s
    else if b = 0x5B then parseArray (scanOnce levels) s
    else if b = 0x6E then (expectText (bytes "null") (b :: s)).map fun s => (.null, s)
    else if b = 0x74 then (expectText (bytes "true") (b :: s)).map fun s => (.bool true, s)
    else if b = 0x66 then (expectText (bytes "false") (b :: s)).map fun s => (.bool false, s)
    else (parseNumber JsonNumber (b :: s)).or (scanConstant (b :: s))

/-- `JSONDecoder.decode`. No value has more levels than the text has bytes. -/
def decode (text : Bytes) : Option Tree :=
  match scanOnce (text.length + 1) (skipWs text) with
  | some (t, s) => if skipWs s = [] then some t else none
  | none => none

/-- What the interpreter has too little of for a text. -/
inductive Limit
  /-- Its nesting exhausts the stack. -/
  | stack
  /-- It has an integer of more digits than are converted. -/
  | digits

/-- The limits of the interpreter. -/
abbrev Limits := Bytes → Option Limit

def loads (limits : Limits) (text : Bytes) : Except Builtin Tree :=
  match limits text with
  | some .stack => .error .recursionError
  | some .digits => .error .valueError
  | none =>
    match decode text with
    | some t => .ok t
    | none => .error .valueError

inductive Number
  | int (n : Int)
  | float (x : Double)
  deriving DecidableEq

/-- `parse_int`, `parse_float` and `parse_constant`. A decimal that is too large for a `float` is
infinite. -/
def number (lit : Bytes) : Number :=
  if lit = bytes "NaN" then .float .nan
  else if lit = bytes "Infinity" then .float (.infinite false)
  else if lit = bytes "-Infinity" then .float (.infinite true)
  else
    match integerValue lit with
    | some n => .int n
    | none =>
      match nearestDouble lit with
      | some x => .float (.finite x)
      | none => .float (.infinite (scanMinus lit).1)

/-- `scanstring`: unlike a pair, a surrogate escape on its own stays what it is. -/
def scanstring : List Item → Bytes
  | [] => []
  | .raw b _ :: rest => b :: scanstring rest
  | .short e :: rest => e.meaning :: scanstring rest
  | .unicode a b c d _ :: .unicode a' b' c' d' h' :: rest =>
    if isHighSurrogate (Item.unit a b c d) && isLowSurrogate (Item.unit a' b' c' d') then
      utf8 (combine (Item.unit a b c d) (Item.unit a' b' c' d')) ++ scanstring rest
    else unitBytes (Item.unit a b c d) ++ scanstring (.unicode a' b' c' d' h' :: rest)
  | .unicode a b c d _ :: rest => unitBytes (Item.unit a b c d) ++ scanstring rest

/-! ## `parse_response` -/

/-- `str.isspace`. -/
def isSpace (c : Char) : Bool :=
  Runes.isSpace c || (0x1C ≤ c.toNat && c.toNat ≤ 0x1F)

/-- `not text.strip()`. -/
def blank (text : Bytes) : Bool := (Runes.runes text).all fun r => isSpace r.toChar

structure IncidentResponse where
  successful : Bool
  code : Int
  message : Option Bytes
  incidentId : Option Bytes
  deriving DecidableEq

def malformed : IncidentException where
  message := bytes "Oppex returned a malformed JSON response"

/-- `payload.get(name)`. -/
def get (ms : List (List Item × Tree)) (name : Bytes) : Option Tree :=
  lastMember (fun key => scanstring key = name) ms

/-- `int(value)`. -/
def Number.toInt : Number → Except Builtin Int
  | .int n => .ok n
  | .float (.finite x) => .ok x.trunc
  | .float (.infinite _) => .error .overflowError
  | .float .nan => .error .valueError

/-- `int` takes the number. -/
def Number.IsFinite : Number → Prop
  | .int _ | .float (.finite _) => True
  | .float _ => False

def intOr (value : Option Tree) (fallback : Int) : Except Builtin Int :=
  match value with
  | some (.num lit) => (number lit).toInt
  | _ => .ok fallback

def textOrNone : Option Tree → Option Bytes
  | some (.str items) => some (scanstring items)
  | _ => none

def successfulOr (value : Option Tree) (fallback : Bool) : Bool :=
  match value with
  | some (.bool b) => b
  | _ => fallback

def parseResponse (limits : Limits) (body : Option Bytes) (httpStatus : Int) :
    Except Raised IncidentResponse :=
  let successful : Bool := 200 ≤ httpStatus && httpStatus < 300
  match body with
  | none => .ok ⟨successful, httpStatus, none, none⟩
  | some body =>
    if blank body then .ok ⟨successful, httpStatus, none, none⟩
    else
      match loads limits body with
      | .error .valueError => .error (.incident malformed)
      | .error e => .error (.builtin e)
      | .ok (.obj payload) =>
        match intOr (get payload (bytes "code")) httpStatus with
        | .error e => .error (.builtin e)
        | .ok code => .ok
            { successful := successfulOr (get payload (bytes "success")) successful
              code := code
              message := textOrNone (get payload (bytes "message"))
              incidentId := textOrNone (get payload (bytes "data")) }
      | .ok _ => .error (.incident malformed)

end OppexSdk.Python.JsonCodec
