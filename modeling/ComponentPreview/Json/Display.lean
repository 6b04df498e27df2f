import ComponentPreview.Decimal.Shortest
import ComponentPreview.Json.Printer
import ComponentPreview.Unicode.Printable

/-!
# Values inside messages

How a value reads inside a sentence: a text as it is, anything else in the notation of literals,
where nested texts stand in quotes and unprintable characters are escaped. Single quotes are used
unless the text holds one and no double quote.
-/

namespace ComponentPreview.Json

def quoteMark (text : List Char) : Char :=
  if text.contains '\'' && !text.contains '"' then '"' else '\''

def inspectChar (mark c : Char) : String :=
  if c = mark || c = '\\' then String.ofList ['\\', c]
  else if c = '\n' then "\\n"
  else if c = '\r' then "\\r"
  else if c = '\t' then "\\t"
  else if isPrintable c then c.toString
  else
    let n := c.toNat
    if n < 0x100 then "\\x" ++ hexDigits 2 n
    else if n < 0x10000 then "\\u" ++ hexDigits 4 n
    else "\\U" ++ hexDigits 8 n

def inspectText (text : List Char) : String :=
  let mark := quoteMark text
  text.foldl (fun done c => done ++ inspectChar mark c) mark.toString ++ mark.toString

mutual

def inspect : Json → String
  | .null => "None"
  | .bool true => "True"
  | .bool false => "False"
  | .int value => toString value
  | .num value => value.render "inf" "nan"
  | .str value => inspectText value.toList
  | .arr items => "[" ++ inspectItems items ++ "]"
  | .obj fields => "\x7b" ++ inspectFields fields ++ "\x7d"

def inspectItems : List Json → String
  | [] => ""
  | [item] => inspect item
  | item :: items => inspect item ++ ", " ++ inspectItems items

def inspectFields : List (String × Json) → String
  | [] => ""
  | [(name, value)] => inspectText name.toList ++ ": " ++ inspect value
  | (name, value) :: fields =>
      inspectText name.toList ++ ": " ++ inspect value ++ ", " ++ inspectFields fields

end

def display : Json → String
  | .str value => value
  | value => value.inspect

end ComponentPreview.Json
