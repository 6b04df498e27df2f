import ComponentPreview.Source.Basic

/-!
# Security of a component

Dynamic code execution is a critical risk, markup injected unsanitized a high one.
-/

namespace ComponentPreview

inductive DynamicCode
  | evaluation
  | functionConstructor
  | textTimer
  deriving DecidableEq, Repr

inductive HtmlSink
  | dangerousProperty
  | innerMarkup
  | outerMarkup
  | documentWrite
  deriving DecidableEq, Repr

inductive Risk
  | low
  | medium
  | high
  | critical
  deriving DecidableEq, Repr

def Risk.label : Risk → String
  | low => "low"
  | medium => "medium"
  | high => "high"
  | critical => "critical"

open Pattern

namespace DynamicCode

def label : DynamicCode → String
  | evaluation => "eval()"
  | functionConstructor => "Function()"
  | textTimer => "string-based timer"

def isTextMark (c : Char) : Bool :=
  isQuoteMark c || c == '\x60'

def pattern : DynamicCode → Pattern
  | evaluation => notAfter isNameChar ++ lit "eval" ++ spacing ++ lit "("
  | functionConstructor =>
      notAfter (fun c => isNameChar c || c == '.') ++ lit "Function" ++ spacing ++ lit "("
  | textTimer =>
      wordEdge ++ lit "set" ++ anyOf ["Timeout", "Interval"] ++ spacing ++ lit "(" ++ spacing ++
        one isTextMark

def all : List DynamicCode := [evaluation, functionConstructor, textTimer]

/-- The primitives of dynamic code execution that a text uses. -/
def usages (text : List Char) : List DynamicCode :=
  all.filter fun primitive => primitive.pattern.occursIn text

end DynamicCode

namespace HtmlSink

def label : HtmlSink → String
  | dangerousProperty => "dangerouslySetInnerHTML"
  | innerMarkup => "innerHTML"
  | outerMarkup => "outerHTML"
  | documentWrite => "document.write()"

def pattern : HtmlSink → Pattern
  | dangerousProperty => wholeWord "dangerouslySetInnerHTML"
  | innerMarkup => wholeWord "innerHTML"
  | outerMarkup => wholeWord "outerHTML"
  | documentWrite => wordEdge ++ lit "document.write" ++ spacing ++ lit "("

def all : List HtmlSink := [dangerousProperty, innerMarkup, outerMarkup, documentWrite]

def usages (text : List Char) : List HtmlSink :=
  all.filter fun sink => sink.pattern.occursIn text

end HtmlSink

structure Security where
  sinks : List HtmlSink
  dynamicCode : List DynamicCode
  deriving DecidableEq, Repr

namespace Security

def ofText (text : List Char) : Security where
  sinks := HtmlSink.usages text
  dynamicCode := DynamicCode.usages text

def hasHtmlInjection (security : Security) : Bool :=
  !security.sinks.isEmpty

def hasDynamicCode (security : Security) : Bool :=
  !security.dynamicCode.isEmpty

def risk (security : Security) : Risk :=
  if security.hasDynamicCode then .critical
  else if security.hasHtmlInjection then .high
  else .low

def issues (security : Security) : List String :=
  (security.sinks.map fun sink => "Using " ++ sink.label ++ " - potential XSS risk") ++
    security.dynamicCode.map fun primitive =>
      "Using " ++ primitive.label ++ " - dynamic code execution"

def suggestions (security : Security) : List String :=
  (if security.hasHtmlInjection then
    ["Sanitize HTML content before injecting it into the page"] else []) ++
  (if security.hasDynamicCode then
    ["Avoid eval() and Function() - use plain functions instead"] else [])

end Security

end ComponentPreview
