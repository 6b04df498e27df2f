import ComponentPreview.Decimal.Shortest
import ComponentPreview.Json.Value

/-!
# Writing JSON

Values are written on one line with a space after each comma and colon. Quotes, backslashes and
control characters are escaped; on demand everything but printable ASCII is escaped too, characters
above `U+FFFF` as a pair of surrogates.
-/

namespace ComponentPreview.Json

def hexDigits (width n : Nat) : String :=
  let digits := Nat.toDigits 16 n
  String.ofList (List.replicate (width - digits.length) '0' ++ digits)

def escapeUnit (unit : Nat) : String :=
  "\\u" ++ hexDigits 4 unit

/-- One character inside a literal. -/
def escapeChar (asciiOnly : Bool) (c : Char) : String :=
  if c = '"' then "\\\""
  else if c = '\\' then "\\\\"
  else if c = '\n' then "\\n"
  else if c = '\r' then "\\r"
  else if c = '\t' then "\\t"
  else if c = '\x08' then "\\b"
  else if c = '\x0c' then "\\f"
  else
    let n := c.toNat
    if n < 32 then escapeUnit n
    else if !asciiOnly || n < 127 then c.toString
    else if n < 0x10000 then escapeUnit n
    else escapeUnit (0xd800 + (n - 0x10000) / 0x400) ++ escapeUnit (0xdc00 + (n - 0x10000) % 0x400)

def quote (asciiOnly : Bool) (text : List Char) : String :=
  text.foldl (fun done c => done ++ escapeChar asciiOnly c) "\"" ++ "\""

mutual

def print (asciiOnly : Bool) : Json → String
  | .null => "null"
  | .bool true => "true"
  | .bool false => "false"
  | .int value => toString value
  | .num value => value.render "Infinity" "NaN"
  | .str value => quote asciiOnly value.toList
  | .arr items => "[" ++ printItems asciiOnly items ++ "]"
  | .obj fields => "\x7b" ++ printFields asciiOnly fields ++ "\x7d"

def printItems (asciiOnly : Bool) : List Json → String
  | [] => ""
  | [item] => print asciiOnly item
  | item :: items => print asciiOnly item ++ ", " ++ printItems asciiOnly items

def printFields (asciiOnly : Bool) : List (String × Json) → String
  | [] => ""
  | [(name, value)] => quote asciiOnly name.toList ++ ": " ++ print asciiOnly value
  | (name, value) :: fields =>
      quote asciiOnly name.toList ++ ": " ++ print asciiOnly value ++ ", " ++
        printFields asciiOnly fields

end

/-- The literal of a text in ASCII alone. -/
def literal (text : String) : String :=
  quote true text.toList

end ComponentPreview.Json
