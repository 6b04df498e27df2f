import ComponentPreview.Json.Value

/-!
# Reading JSON

Besides the standard grammar `NaN`, `Infinity` and `-Infinity` are read as numbers. The last of
several fields of one name wins. A fault carries what was left to read where the text stopped being
JSON, and from that its offset. A text can also be JSON and too much of it: nested too deeply, or
with a whole number of too many digits.
-/

namespace ComponentPreview.Json

inductive Fault
  | value
  | name
  | colon
  | comma
  | unterminated
  | control
  | escape
  | unicodeEscape
  | extra
  | tooManyDigits
  | tooManyArrays
  | tooManyObjects
  deriving DecidableEq, Repr

def Fault.isTooDeep : Fault → Bool
  | tooManyArrays | tooManyObjects => true
  | _ => false

/-- Whether a text is refused for its measure and not for its grammar. -/
def Fault.isExcess (fault : Fault) : Bool :=
  fault == tooManyDigits || fault.isTooDeep

/-- A fault and the rest of the text from the place of the fault on. -/
structure ReadError where
  fault : Fault
  rest : List Char

abbrev Reading (α : Type) := Except ReadError (α × List Char)

def isGap (c : Char) : Bool :=
  c == ' ' || c == '\t' || c == '\n' || c == '\r'

def skipGap (text : List Char) : List Char :=
  text.dropWhile isGap

def hexValue? (c : Char) : Option Nat :=
  if c.isDigit then some (c.toNat - 48)
  else if 'a' ≤ c && c ≤ 'f' then some (c.toNat - 87)
  else if 'A' ≤ c && c ≤ 'F' then some (c.toNat - 55)
  else none

def unit? : List Char → Option Nat
  | [a, b, c, d] => do
      let a ← hexValue? a
      let b ← hexValue? b
      let c ← hexValue? c
      let d ← hexValue? d
      pure (((a * 16 + b) * 16 + c) * 16 + d)
  | _ => none

def simpleEscape? : Char → Option Char
  | '"' => some '"'
  | '\\' => some '\\'
  | '/' => some '/'
  | 'b' => some '\x08'
  | 'f' => some '\x0c'
  | 'n' => some '\n'
  | 'r' => some '\r'
  | 't' => some '\t'
  | _ => none

def isHighSurrogate (unit : Nat) : Bool := 0xd800 ≤ unit && unit < 0xdc00

def isLowSurrogate (unit : Nat) : Bool := 0xdc00 ≤ unit && unit < 0xe000

/-- Ends a high surrogate that no low one followed. -/
def settle (high : Option Nat) (done : List Char) : List Char :=
  match high with
  | some _ => '\ufffd' :: done
  | none => done

/-- Adds an escaped code unit: a low surrogate after a high one makes one character with it. -/
def addUnit (high : Option Nat) (done : List Char) (unit : Nat) : Option Nat × List Char :=
  match high with
  | some first =>
      if isLowSurrogate unit then
        (none, Char.ofNat (0x10000 + (first - 0xd800) * 0x400 + (unit - 0xdc00)) :: done)
      else if isHighSurrogate unit then (some unit, settle high done)
      else (none, Char.ofNat unit :: settle high done)
  | none =>
      if isHighSurrogate unit then (some unit, done)
      else if isLowSurrogate unit then (none, '\ufffd' :: done)
      else (none, Char.ofNat unit :: done)

/-- Reads a literal after its opening quote. `opening` is the text from that quote on, `high` a
high surrogate just read, `done` what was read before it, in reverse. -/
def readLiteral (opening : List Char) (high : Option Nat) (done : List Char) :
    List Char → Reading (List Char)
  | [] => .error ⟨.unterminated, opening⟩
  | c :: rest =>
      if c = '"' then .ok ((settle high done).reverse, rest)
      else if c = '\\' then
        match rest with
        | [] => .error ⟨.unterminated, opening⟩
        | 'u' :: h₁ :: h₂ :: h₃ :: h₄ :: after =>
            match unit? [h₁, h₂, h₃, h₄] with
            | some unit =>
                if after.isEmpty then .error ⟨.unicodeEscape, rest⟩
                else
                  readLiteral opening (addUnit high done unit).1 (addUnit high done unit).2 after
            | none => .error ⟨.unicodeEscape, rest⟩
        | escaped :: after =>
            if escaped = 'u' then .error ⟨.unicodeEscape, rest⟩
            else match simpleEscape? escaped with
              | some meant => readLiteral opening none (meant :: settle high done) after
              | none => .error ⟨.escape, c :: rest⟩
      else if c.toNat < 32 then .error ⟨.control, c :: rest⟩
      else readLiteral opening none (c :: settle high done) rest

def digitsToNat (digits : List Char) : Nat :=
  digits.foldl (fun n c => 10 * n + (c.toNat - 48)) 0

/-- The fraction after a whole part: its digits and the rest. -/
def readFraction : List Char → List Char × List Char
  | '.' :: c :: rest =>
      if c.isDigit then ((c :: rest).takeWhile Char.isDigit, (c :: rest).dropWhile Char.isDigit)
      else ([], '.' :: c :: rest)
  | text => ([], text)

def readExponent (text : List Char) : Option Int × List Char :=
  match text with
  | e :: rest =>
      if e == 'e' || e == 'E' then
        let signed := match rest with
          | '-' :: digits => (true, digits)
          | '+' :: digits => (false, digits)
          | digits => (false, digits)
        let digits := signed.2.takeWhile Char.isDigit
        if digits.isEmpty then (none, text)
        else
          let size : Int := digitsToNat digits
          (some (if signed.1 then -size else size), signed.2.dropWhile Char.isDigit)
      else (none, text)
  | [] => (none, text)

/-- A whole number of more digits than this is not read. -/
def maxDigits : Nat := 4300

/-- Reads a number whose sign, if it has one, has been taken off `text`. -/
def readMagnitude (text : List Char) (negative : Bool) (unsigned : List Char) : Reading Json :=
  let whole := match unsigned with
    | '0' :: rest => (['0'], rest)
    | _ => (unsigned.takeWhile Char.isDigit, unsigned.dropWhile Char.isDigit)
  if whole.1.isEmpty then .error ⟨.value, text⟩
  else
    let (fraction, afterFraction) := readFraction whole.2
    let (exponent, rest) := readExponent afterFraction
    if fraction.isEmpty && exponent.isNone then
      if maxDigits < whole.1.length then .error ⟨.tooManyDigits, text⟩
      else
        let size : Int := digitsToNat whole.1
        .ok (.int (if negative then -size else size), rest)
    else
      .ok (.num (Double.ofDecimal negative (digitsToNat (whole.1 ++ fraction))
        (exponent.getD 0 - fraction.length)), rest)

def keywords : List (String × Json) :=
  [("null", .null), ("true", .bool true), ("false", .bool false), ("NaN", .num .notANumber),
    ("Infinity", .num (.infinite false)), ("-Infinity", .num (.infinite true))]

def readKeyword? (text : List Char) : Option (Json × List Char) :=
  keywords.findSome? fun (word, value) =>
    if word.toList.isPrefixOf text then some (value, text.drop word.length) else none

/-- Reads what is neither a literal nor nested. -/
def readPlain (text : List Char) : Reading Json :=
  match readKeyword? text with
  | some reading => .ok reading
  | none =>
      match text with
      | '-' :: unsigned => readMagnitude text true unsigned
      | _ => readMagnitude text false text

mutual

/-- Reads one value, in which arrays and objects may be nested to a depth. The first argument
bounds the steps. -/
def readValue : Nat → Nat → List Char → Reading Json
  | 0, _, text => .error ⟨.value, text⟩
  | fuel + 1, depth, text =>
      match text with
      | '"' :: rest =>
          match readLiteral text none [] rest with
          | .ok (value, rest) => .ok (.str (String.ofList value), rest)
          | .error error => .error error
      | '[' :: rest =>
          match depth with
          | 0 => .error ⟨.tooManyArrays, text⟩
          | depth + 1 =>
              match skipGap rest with
              | ']' :: rest => .ok (.arr [], rest)
              | rest => readItems fuel depth [] rest
      | '\x7b' :: rest =>
          match depth with
          | 0 => .error ⟨.tooManyObjects, text⟩
          | depth + 1 =>
              match skipGap rest with
              | '\x7d' :: rest => .ok (.obj [], rest)
              | rest => readFields fuel depth [] rest
      | _ => readPlain text

/-- Reads the items of an array from the start of one on; `done` are those before, in reverse. -/
def readItems : Nat → Nat → List Json → List Char → Reading Json
  | 0, _, _, text => .error ⟨.value, text⟩
  | fuel + 1, depth, done, text =>
      match readValue fuel depth text with
      | .error error => .error error
      | .ok (item, rest) =>
          match skipGap rest with
          | ']' :: rest => .ok (.arr (item :: done).reverse, rest)
          | ',' :: rest => readItems fuel depth (item :: done) (skipGap rest)
          | rest => .error ⟨.comma, rest⟩

/-- Reads the fields of an object from the name of one on. -/
def readFields : Nat → Nat → List (String × Json) → List Char → Reading Json
  | 0, _, _, text => .error ⟨.value, text⟩
  | fuel + 1, depth, done, text =>
      match text with
      | '"' :: rest =>
          match readLiteral text none [] rest with
          | .error error => .error error
          | .ok (name, rest) =>
              match skipGap rest with
              | ':' :: rest =>
                  match readValue fuel depth (skipGap rest) with
                  | .error error => .error error
                  | .ok (value, rest) =>
                      let fields := Named.put (String.ofList name) value done
                      match skipGap rest with
                      | '\x7d' :: rest => .ok (.obj fields, rest)
                      | ',' :: rest => readFields fuel depth fields (skipGap rest)
                      | rest => .error ⟨.comma, rest⟩
              | rest => .error ⟨.colon, rest⟩
      | _ => .error ⟨.name, text⟩

end

/-- Reads a text that holds one value, nested to a depth, and nothing else. -/
def readTextWithin (depth : Nat) (text : List Char) : Except ReadError Json :=
  match readValue (text.length + 2) depth (skipGap text) with
  | .error error => .error error
  | .ok (value, rest) =>
      match skipGap rest with
      | [] => .ok value
      | rest => .error ⟨.extra, rest⟩

/-- How deeply the arrays and objects of a text may be nested. -/
def maxDepth : Nat := 950

/-- Reads a text that holds one value and nothing else. -/
def readText (text : List Char) : Except ReadError Json :=
  readTextWithin maxDepth text

/-- How many characters stand before a fault. -/
def ReadError.offset (error : ReadError) (text : List Char) : Nat :=
  text.length - error.rest.length

end ComponentPreview.Json
