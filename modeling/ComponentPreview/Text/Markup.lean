import ComponentPreview.Json.Printer

/-!
# Texts inside markup

A text is escaped so that it opens no tag and ends no attribute value. A JSON value inside a script
element holds no angle bracket, no ampersand and no line separator.
-/

namespace ComponentPreview.Markup

/-- The characters of a text that stand for something else in markup. -/
def entity? : Char → Option String
  | '&' => some "&amp;"
  | '<' => some "&lt;"
  | '>' => some "&gt;"
  | '"' => some "&quot;"
  | _ => none

def escapeWith (entity? : Char → Option String) (text : String) : String :=
  text.toList.foldl
    (fun done c =>
      match entity? c with
      | some entity => done ++ entity
      | none => done.push c)
    ""

def escape (text : String) : String :=
  escapeWith entity? text

/-- As `escape`, for values in either kind of quotes. -/
def escapeAttribute (text : String) : String :=
  escapeWith (fun c => if c = '\'' then some "&#x27;" else entity? c) text

def inScript? : Char → Option String
  | '<' => some "\\u003c"
  | '>' => some "\\u003e"
  | '&' => some "\\u0026"
  | _ => none

/-- JSON safe inside a script element. -/
def scriptJson (value : Json) : String :=
  escapeWith
    (fun c =>
      if c = '\u2028' then some "\\u2028"
      else if c = '\u2029' then some "\\u2029"
      else inScript? c)
    (value.print false)

/-- JSON in ASCII, safe inside a script element. -/
def asciiScriptJson (value : Json) : String :=
  escapeWith inScript? (value.print true)

end ComponentPreview.Markup
