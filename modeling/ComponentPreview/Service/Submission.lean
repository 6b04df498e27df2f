import ComponentPreview.Json.Bytes
import ComponentPreview.Preview
import ComponentPreview.Service.Numeral
import ComponentPreview.Unicode.Token

/-!
# Submissions

A submission is the body of a request for a preview. Its fields are read leniently: a number may
come as text, a truth value as text or number. Every fault is reported with the place where it lies.
-/

namespace ComponentPreview

inductive FaultKind
  | missing
  | notObject
  | extraField
  | notText
  | textTooLong
  | textMismatch
  | notInteger
  | integerText
  | integerTextSize
  | fractionalInteger
  | notFinite
  | belowMinimum
  | notBoolean
  | booleanText
  | notMapping
  | invalidJson
  deriving DecidableEq, Repr

def FaultKind.label : FaultKind → String
  | missing => "missing"
  | notObject => "model_attributes_type"
  | extraField => "extra_forbidden"
  | notText => "string_type"
  | textTooLong => "string_too_long"
  | textMismatch => "string_pattern_mismatch"
  | notInteger => "int_type"
  | integerText => "int_parsing"
  | integerTextSize => "int_parsing_size"
  | fractionalInteger => "int_from_float"
  | notFinite => "finite_number"
  | belowMinimum => "greater_than_equal"
  | notBoolean => "bool_type"
  | booleanText => "bool_parsing"
  | notMapping => "dict_type"
  | invalidJson => "json_invalid"

structure Fault where
  place : List String
  kind : FaultKind
  deriving DecidableEq, Repr

namespace Fault

def encode (fault : Fault) : Json :=
  .arr [.ofStrings fault.place, .str fault.kind.label]

def comparePlaces : List String → List String → Ordering
  | [], [] => .eq
  | [], _ => .lt
  | _, [] => .gt
  | x :: xs, y :: ys => if x == y then comparePlaces xs ys else compare x y

/-- Whether one fault stands no later than another: by place, then by kind. -/
def precedes (a b : Fault) : Bool :=
  match comparePlaces a.place b.place with
  | .lt => true
  | .gt => false
  | .eq => a.kind.label ≤ b.kind.label

def sorted (faults : List Fault) : List Fault :=
  faults.mergeSort precedes

end Fault

structure Submission where
  code : String
  options : Json
  session : Option String
  version : Int
  collaboration : Bool

namespace Submission

def readString : Json → Except FaultKind String
  | .str value => .ok value
  | _ => .error .notText

def maxSessionLength : Nat := 128

def isSessionChar (c : Char) : Bool :=
  isTokenChar c || c == '-' || c == '.'

def readSession : Json → Except FaultKind (Option String)
  | .null => .ok none
  | .str value =>
      if maxSessionLength < value.length then .error .textTooLong
      else if value.isEmpty || !value.toList.all isSessionChar then .error .textMismatch
      else .ok (some value)
  | _ => .error .notText

def readIntegerText (text : List Char) : Except FaultKind Int :=
  match Numeral.read text with
  | .ok value => .ok value
  | .error .malformed => .error .integerText
  | .error .tooLong => .error .integerTextSize

def wordLimit : Int := 9223372036854775808

def readIntegral (number : Double) : Except FaultKind Int :=
  match number with
  | .finite _ _ _ =>
      match number.toInt? with
      | some value =>
          if -wordLimit < value && value < wordLimit then .ok value else .error .integerTextSize
      | none => .error .fractionalInteger
  | _ => .error .notFinite

def readInteger : Json → Except FaultKind Int
  | .int value => .ok value
  | .bool value => .ok (if value then 1 else 0)
  | .num value => readIntegral value
  | .str value => readIntegerText value.toList
  | _ => .error .notInteger

def readVersion (value : Json) : Except FaultKind Int := do
  let version ← readInteger value
  if version < 1 then throw .belowMinimum
  return version

def trueTexts : List String := ["1", "on", "t", "true", "y", "yes"]

def falseTexts : List String := ["0", "off", "f", "false", "n", "no"]

def booleanOf : Int → Except FaultKind Bool
  | 0 => .ok false
  | 1 => .ok true
  | _ => .error .booleanText

def readBoolean : Json → Except FaultKind Bool
  | .bool value => .ok value
  | .str value =>
      let folded := String.ofList (value.toList.map Char.toLower)
      if trueTexts.contains folded then .ok true
      else if falseTexts.contains folded then .ok false
      else .error .booleanText
  | .int value =>
      if -wordLimit ≤ value && value < wordLimit then booleanOf value else .error .notBoolean
  | .num value =>
      match readIntegral value with
      | .ok value => booleanOf value
      | .error _ => .error .notBoolean
  | _ => .error .notBoolean

def readOptions : Json → Except FaultKind Json
  | .obj fields => .ok (.obj fields)
  | _ => .error .notMapping

/-- Reads a field of a body under the first of its names that is there. -/
def readField (fields : List (String × Json)) (names : List String) (default : Except FaultKind α)
    (read : Json → Except FaultKind α) : Except Fault α :=
  match names.find? fun name => (Named.get? name fields).isSome with
  | some name =>
      match read ((Named.get? name fields).getD .null) with
      | .ok value => .ok value
      | .error kind => .error ⟨["body", name], kind⟩
  | none =>
      match default with
      | .ok value => .ok value
      | .error kind => .error ⟨["body", names.headD ""], kind⟩

def sessionNames (fields : List (String × Json)) : List String :=
  if (Named.get? "sessionId" fields).isSome then ["sessionId"] else ["sessionId", "session_id"]

def isKnown (fields : List (String × Json)) (name : String) : Bool :=
  (["code", "type", "options", "version", "collaboration"] ++ sessionNames fields).contains name

def faultOf : Except Fault α → List Fault
  | .ok _ => []
  | .error fault => [fault]

def extraFaults (fields : List (String × Json)) : List Fault :=
  (fields.filter fun field => !isKnown fields field.1).map fun field =>
    ⟨["body", field.1], .extraField⟩

/-- Why a body is no submission: it cannot be read, or it can and has faults. -/
inductive Refusal
  | unreadable
  | faulty (faults : List Fault)
  deriving DecidableEq, Repr

def ofFields (fields : List (String × Json)) : Except Refusal Submission :=
  let code := readField fields ["code"] (.error .missing) readString
  let type := readField fields ["type"] (.ok "component") readString
  let options := readField fields ["options"] (.ok (.obj [])) readOptions
  let session := readField fields (sessionNames fields) (.ok none) readSession
  let version := readField fields ["version"] (.ok 1) readVersion
  let collaboration := readField fields ["collaboration"] (.ok false) readBoolean
  match code, type, options, session, version, collaboration, extraFaults fields with
  | .ok code, .ok _, .ok options, .ok session, .ok version, .ok collaboration, [] =>
      .ok { code, options, session, version, collaboration }
  | code, type, options, session, version, collaboration, extra =>
      .error (.faulty (faultOf code ++ faultOf type ++ faultOf options ++ faultOf session ++
        faultOf version ++ faultOf collaboration ++ extra))

/-- Reads the body of a request; `none` is a request without one. -/
def ofJson : Option Json → Except Refusal Submission
  | none => .error (.faulty [⟨["body"], .missing⟩])
  | some .null => .error (.faulty [⟨["body"], .missing⟩])
  | some (.obj fields) => ofFields fields
  | some _ => .error (.faulty [⟨["body"], .notObject⟩])

/-- Reads a body from its bytes. Bytes that are no text and JSON beyond measure are unreadable; a
text that is no JSON is a fault with the offset where it stops being it. -/
def ofBytes (bytes : List UInt8) : Except Refusal Submission :=
  if bytes.isEmpty then ofJson none
  else
    match Json.textOfBytes? bytes with
    | none => .error .unreadable
    | some text =>
        match Json.readText text with
        | .ok value => ofJson (some value)
        | .error error =>
            if error.fault.isExcess then .error .unreadable
            else .error (.faulty [⟨["body", toString (error.offset text)], .invalidJson⟩])

end Submission

end ComponentPreview
