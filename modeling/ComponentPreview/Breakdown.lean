import ComponentPreview.Client.Exchange

/-!
# Breakdowns

What nobody provides for: an answer that does not have the shape in which it is used, or that could
not even be taken. It ends the job in which it comes up, and with it whoever waits for that job.
-/

namespace ComponentPreview

inductive Breakdown
  /-- A value is asked for a field and is no object. -/
  | noFields (value : Json)
  /-- A value is gone through and holds nothing one after the other. -/
  | noElements (value : Json)
  /-- The beginning of a value is asked for that is neither a text nor a list. -/
  | noBeginning (value : Json)
  /-- Texts are joined, and one of them is no text. -/
  | noText (index : Nat) (value : Json)
  | call (error : CallError)

namespace Breakdown

def kindOf : Json → String
  | .null => "NoneType"
  | .bool _ => "bool"
  | .int _ => "int"
  | .num _ => "float"
  | .str _ => "str"
  | .arr _ => "list"
  | .obj _ => "dict"

def tooDeepMessage (fault : Json.ByteFault) : String :=
  "maximum recursion depth exceeded while decoding a JSON " ++
    (if fault = .content .tooManyArrays then "array" else "object") ++ " from a unicode string"

def callMessage : CallError → String
  | .transport error => error.message
  | .unreadable fault => tooDeepMessage fault
  | .unknownKind url => "unknown url type: " ++ Json.inspectText url.toList

def message : Breakdown → String
  | noFields value => "'" ++ kindOf value ++ "' object has no attribute 'get'"
  | noElements value => "'" ++ kindOf value ++ "' object is not iterable"
  | noBeginning (.obj _) => "unhashable type: 'slice'"
  | noBeginning value => "'" ++ kindOf value ++ "' object is not subscriptable"
  | noText index value =>
      "sequence item " ++ toString index ++ ": expected str instance, " ++ kindOf value ++ " found"
  | call error => callMessage error

end Breakdown

end ComponentPreview
