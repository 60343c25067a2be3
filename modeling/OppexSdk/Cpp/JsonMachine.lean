import OppexSdk.Cpp.Json
import OppexSdk.Lib.Tracing

/-! # The C++ JSON parser, statement by statement

`Parser` of `cpp/src/json.cpp` once more, as the program it is: `position_` is assigned to, the
text is read without a check of the model's own, `std::from_chars` is given two pointers, and loops
and calls go on as long as the source lets them. Everything the memory safety of the parser depends
on is reported as an event. -/
namespace OppexSdk.Cpp.JsonMachine
open OppexSdk.Lib OppexSdk.Lib.Binary64 OppexSdk.Lib.FromChars OppexSdk.Lib.Tracing
open OppexSdk.Lib.Json (isWs isNumberByte)
open OppexSdk.Cpp.Json (Value Object compareAt appendUtf8 kMaxDepth)

inductive Loop
  | skipWhitespace
  | parseNumber
  | parseString
  | parseObject
  | parseArray
  deriving DecidableEq

inductive Event
  /-- `position_` has been assigned to. -/
  | moved (position : Nat)
  /-- `text_[position]`. -/
  | read (position : Nat)
  /-- `text_.compare(position, ...)`. -/
  | compared (position : Nat)
  /-- `std::from_chars` of the text between the two positions. -/
  | scanned (first last : Nat)
  /-- An iteration with `position_` at its start and its end, and whether it returns `nullopt`. -/
  | iterated (loop : Loop) (before after : Nat) (failed : Bool)
  /-- `position_ = saved` in the escape that began at `began`. -/
  | restored (began saved : Nat)
  /-- A call of `ParseValue`, and how many are active with it. -/
  | entered (frames : Nat)
  deriving DecidableEq

structure State where
  position : Nat
  /-- Active calls of `ParseValue`. -/
  frames : Nat

abbrev Machine := Prog State Event

section
variable (text : Bytes)

def position : Machine Nat := do return (← Prog.get).position

def moveTo (p : Nat) : Machine Unit := do
  Prog.modify fun s => { s with position := p }
  Prog.emit (.moved p)

/-- `text_[position_]`. Outside of the text there is nothing that could be said about the byte. -/
def peek : Machine UInt8 := do
  let p ← position
  Prog.emit (.read p)
  return text.getD p 0

/-- `text_[position_++]`. -/
def readNext : Machine UInt8 := do
  let character ← peek text
  moveTo ((← position) + 1)
  return character

/-- `position_ < text_.size()`. -/
def more : Machine Bool := do return (← position) < text.length

/-- `text_.compare(position_, expected.size(), expected) == 0`. -/
def compare (expected : Bytes) : Machine Bool := do
  let p ← position
  Prog.emit (.compared p)
  return compareAt text p expected

/-- A loop whose iterations are reported. -/
def whileLoop {α β : Type} (kind : Loop) (cond : Machine Bool)
    (body : β → Machine (Turn β (Option α))) (rest : β → Machine (Option α)) :
    Nat → β → Machine (Option α) :=
  loop cond (fun b => do
    let before ← position
    let turn ← body b
    Prog.emit (.iterated kind before (← position) (turn matches .leave none))
    return turn) rest

/-- `while (position_ < text_.size() && accept(text_[position_])) ++position_`. -/
def scanWhile (kind : Loop) (accept : UInt8 → Bool) (fuel : Nat) : Machine (Option Unit) :=
  whileLoop kind
    (do if ← more text then return accept (← peek text) else return false)
    (fun () => do
      moveTo ((← position) + 1)
      return .again ())
    (fun () => return some ()) fuel ()

def skipWhitespace (fuel : Nat) : Machine Unit := do
  let _ ← scanWhile text .skipWhitespace isWs fuel

def consume (expected : UInt8) : Machine Bool := do
  if ← more text then
    if (← peek text) = expected then
      moveTo ((← position) + 1)
      return true
    else return false
  else return false

def parseLiteral (literal : Bytes) (value : Value) : Machine (Option Value) := do
  if ← compare text literal then
    moveTo ((← position) + literal.length)
    return some value
  else return none

/-- `if (position_ < text_.size() && text_[position_] == '-') ++position_`. -/
def skipMinus : Machine Unit := do
  if ← more text then
    if (← peek text) = 0x2D then moveTo ((← position) + 1) else return ()
  else return ()

def parseNumber (fuel : Nat) : Machine (Option Value) := do
  let start ← position
  skipMinus text
  let _ ← scanWhile text .parseNumber isNumberByte fuel
  let last ← position
  if last = start then return none
  else
    Prog.emit (.scanned start last)
    let result := fromChars ((text.drop start).take (last - start)) (.finite zero)
    if result.1 ≠ [] then return none else return some (.number result.2)

def readHexQuad : Machine (Option Nat) := do
  let first ← position
  if first + 4 > text.length then return none
  else
    Prog.emit (.scanned first (first + 4))
    let result := fromCharsHex ((text.drop first).take 4)
    if result.1 ≠ [] then return none
    else
      moveTo (first + 4)
      return some result.2

/-- `ParseUnicodeEscape` with its `out`, for the escape whose backslash is at `began`. -/
def parseUnicodeEscape (began : Nat) (out : Bytes) : Machine (Option Bytes) := do
  match ← readHexQuad text with
  | none => return none
  | some first =>
    if 0xD800 ≤ first ∧ first ≤ 0xDBFF then
      if ← compare text (bytes "\\u") then
        let saved ← position
        moveTo (saved + 2)
        match ← readHexQuad text with
        | some low =>
          if 0xDC00 ≤ low ∧ low ≤ 0xDFFF then
            return some (out ++ appendUtf8 (0x10000 + ((first - 0xD800) <<< 10) + (low - 0xDC00)))
          else
            moveTo saved
            Prog.emit (.restored began saved)
            return some (out ++ appendUtf8 0xFFFD)
        | none =>
          moveTo saved
          Prog.emit (.restored began saved)
          return some (out ++ appendUtf8 0xFFFD)
      else return some (out ++ appendUtf8 0xFFFD)
    else if 0xD800 ≤ first ∧ first ≤ 0xDFFF then return some (out ++ appendUtf8 0xFFFD)
    else return some (out ++ appendUtf8 first)

/-- `ParseEscape` with its `out`, for the escape whose backslash is at `began`. -/
def parseEscape (began : Nat) (out : Bytes) : Machine (Option Bytes) := do
  if ← more text then
    let escape ← readNext text
    if escape = 0x22 ∨ escape = 0x5C ∨ escape = 0x2F then return some (out ++ [escape])
    else if escape = 0x62 then return some (out ++ [0x08])
    else if escape = 0x66 then return some (out ++ [0x0C])
    else if escape = 0x6E then return some (out ++ [0x0A])
    else if escape = 0x72 then return some (out ++ [0x0D])
    else if escape = 0x74 then return some (out ++ [0x09])
    else if escape = 0x75 then parseUnicodeEscape text began out
    else return none
  else return none

/-- One iteration of the loop of `ParseString`. -/
def stringTurn (out : Bytes) : Machine (Turn Bytes (Option Bytes)) := do
  let began ← position
  let character ← readNext text
  if character = 0x22 then return .leave (some out)
  else if character ≠ 0x5C then
    if character < 0x20 then return .leave none else return .again (out ++ [character])
  else
    match ← parseEscape text began out with
    | some out => return .again out
    | none => return .leave none

def parseString (fuel : Nat) : Machine (Option Bytes) := do
  if ← consume text 0x22 then
    whileLoop .parseString (more text) (stringTurn text) (fun _ => return none) fuel []
  else return none

section
variable (parseValue : Machine (Option Value)) (fuel : Nat)

/-- One iteration of the loop of `ParseObject`. -/
def memberTurn (object : Object) : Machine (Turn Object (Option Value)) := do
  skipWhitespace text fuel
  match ← parseString text fuel with
  | none => return .leave none
  | some key =>
    skipWhitespace text fuel
    if ← consume text 0x3A then
      skipWhitespace text fuel
      match ← parseValue with
      | none => return .leave none
      | some value =>
        let object := object.insertOrAssign key value
        skipWhitespace text fuel
        if ← consume text 0x2C then return .again object
        else if ← consume text 0x7D then return .leave (some (.object object))
        else return .leave none
    else return .leave none

def parseObject : Machine (Option Value) := do
  moveTo ((← position) + 1)
  skipWhitespace text fuel
  if ← consume text 0x7D then return some (.object [])
  else
    whileLoop .parseObject (return true) (memberTurn text parseValue fuel) (fun _ => return none)
      fuel []

/-- One iteration of the loop of `ParseArray`. -/
def elementTurn (array : List Value) : Machine (Turn (List Value) (Option Value)) := do
  skipWhitespace text fuel
  match ← parseValue with
  | none => return .leave none
  | some value =>
    let array := array ++ [value]
    skipWhitespace text fuel
    if ← consume text 0x2C then return .again array
    else if ← consume text 0x5D then return .leave (some (.array array))
    else return .leave none

def parseArray : Machine (Option Value) := do
  moveTo ((← position) + 1)
  skipWhitespace text fuel
  if ← consume text 0x5D then return some (.array [])
  else
    whileLoop .parseArray (return true) (elementTurn text parseValue fuel) (fun _ => return none)
      fuel []

end

/-- A call of `ParseValue`: its frame is active as long as it runs. -/
def framed {α : Type} (body : Machine α) : Machine α := do
  Prog.modify fun s => { s with frames := s.frames + 1 }
  Prog.emit (.entered (← Prog.get).frames)
  let result ← body
  Prog.modify fun s => { s with frames := s.frames - 1 }
  return result

/-- `ParseValue`. The fuel bounds the loops and the depth of the calls. -/
def parseValue : (fuel depth : Nat) → Machine (Option Value)
  | 0, _ => Prog.exhausted
  | fuel + 1, depth => framed do
    if depth > kMaxDepth then return none
    else if ← more text then
      let character ← peek text
      if character = 0x7B then parseObject text (parseValue fuel (depth + 1)) fuel
      else if character = 0x5B then parseArray text (parseValue fuel (depth + 1)) fuel
      else if character = 0x22 then return (← parseString text fuel).map .string
      else if character = 0x74 then parseLiteral text (bytes "true") (.bool true)
      else if character = 0x66 then parseLiteral text (bytes "false") (.bool false)
      else if character = 0x6E then parseLiteral text (bytes "null") .null
      else parseNumber text fuel
    else return none

def parseDocument (fuel : Nat) : Machine (Option Value) := do
  skipWhitespace text fuel
  match ← parseValue text fuel 0 with
  | none => return none
  | some value =>
    skipWhitespace text fuel
    if (← position) = text.length then return some value else return none

end

/-- `json::Parse`, from a new `Parser`. -/
def run (fuel : Nat) (text : Bytes) : Option (Outcome State Event (Option Value)) :=
  parseDocument text fuel ⟨0, 0⟩

end OppexSdk.Cpp.JsonMachine
