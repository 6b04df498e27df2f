import ComponentPreview.Analysis.Basic
import ComponentPreview.Config

/-!
# Validation of a source

Hard checks reject a source: it is empty, too large, or executes code it makes up. Soft checks only
warn. An empty source is rejected at once, since nothing else can be said about it.
-/

namespace ComponentPreview

inductive Rejection
  | empty
  | tooLarge (limit : Int)
  | dangerous (labels : List String)
  deriving DecidableEq, Repr

namespace Rejection

def sizeLimit (limit : Int) : String :=
  if limit % 1000 = 0 then "Code too large (max " ++ toString (limit / 1000) ++ "KB)"
  else "Code too large (max " ++ toString limit ++ " bytes)"

def message : Rejection → String
  | empty => "Empty code provided"
  | tooLarge limit => sizeLimit limit
  | dangerous labels => "Security risk: " ++ ", ".intercalate labels ++ " usage detected"

def kind : Rejection → FailureKind
  | empty => .input
  | tooLarge _ => .input
  | dangerous _ => .security

def remedy : Rejection → String
  | empty => "Please provide valid React component code"
  | tooLarge _ => "Split the component into smaller files"
  | dangerous _ => "Remove dynamic code execution (eval, Function) from the component"

end Rejection

structure Validation where
  rejections : List Rejection
  warnings : List String
  suggestions : List String
  deriving DecidableEq, Repr

namespace Validation

open Pattern

def isValid (validation : Validation) : Bool :=
  validation.rejections.isEmpty

def message? (validation : Validation) : Option String :=
  if validation.isValid then none
  else some ("; ".intercalate (validation.rejections.map Rejection.message))

def kind? (validation : Validation) : Option FailureKind :=
  validation.rejections.head?.map Rejection.kind

/-- A keyword that ends in a parenthesis also stands for calls with white space before it. -/
def isCall (keyword : String) : Bool :=
  keyword.toList.getLast? == some '('

def keywordPattern (keyword : String) : Pattern :=
  if isCall keyword then
    notAfter isNameChar ++ word keyword.toList.dropLast ++ spacing ++ lit "("
  else notAfter isNameChar ++ lit keyword ++ notAhead (one isNameChar)

/-- The keywords that a text contains. -/
def blockedIn (keywords : List String) (text : List Char) : List String :=
  keywords.filter fun keyword => (keywordPattern keyword).occursIn text

def keywordLabel (keyword : String) : String :=
  if isCall keyword then
    String.ofList (keyword.toList.reverse.dropWhile (· == '(')).reverse ++ "()"
  else keyword

def dangers (config : Config) (text : List Char) : List String :=
  (blockedIn config.blockedKeywords text).foldl
    (fun found keyword =>
      if found.contains (keywordLabel keyword) then found else found ++ [keywordLabel keyword])
    ((DynamicCode.usages text).map DynamicCode.label)

def rejectionsOf (config : Config) (source : Source) : List Rejection :=
  let labels := dangers config source.text
  (if config.maxCodeSize < source.byteLength then [.tooLarge config.maxCodeSize] else []) ++
    if labels.isEmpty then [] else [.dangerous labels]

def deprecatedMethods : List String :=
  ["componentWillMount", "componentWillReceiveProps", "componentWillUpdate"]

def statefulCall : Pattern :=
  wordEdge ++ lit "use" ++ anyOf ["State", "Effect"] ++ wordEdge

def warningsOf (config : Config) (text : List Char) (analysis : Analysis) : List String :=
  let deprecated := deprecatedMethods.filter fun method => (wholeWord method).occursIn text
  let calls := (statefulCall.findAll text).length
  (if analysis.security.hasHtmlInjection then
    ["Potential XSS risk with unsanitized HTML injection"] else []) ++
  (if analysis.accessibility.contains .imageWithoutAlt then
    ["Missing alt attributes on images"] else []) ++
  (if analysis.accessibility.contains .clickWithoutKeyboard then
    ["Interactive elements should have keyboard support"] else []) ++
  (if deprecated.isEmpty then []
    else ["Deprecated lifecycle methods detected: " ++ ", ".intercalate deprecated]) ++
  (if config.maxStatefulCalls < calls then
    ["High number of state/effect hooks (" ++ toString calls ++ ") may impact performance"]
    else [])

def advice (text : List Char) : List String :=
  (if Text.mentions text "ReactDOM.render" && !Text.mentions text "createRoot" then
    ["Consider using React 18 createRoot instead of ReactDOM.render"] else []) ++
  (if Text.mentions text "addEventListener" && !Text.mentions text "removeEventListener" then
    ["Consider cleaning up event listeners to prevent memory leaks"] else []) ++
  (if Text.mentions text "setState" && Text.mentions text "prevState" then
    ["Consider using functional updates for state to avoid stale closures"] else [])

def of (config : Config) (source : Source) (analysis : Analysis) : Validation :=
  if source.text.all isBlank then ⟨[.empty], [], [Rejection.empty.remedy]⟩
  else
    let rejections := rejectionsOf config source
    let warnings := warningsOf config source.text analysis
    { rejections
      warnings
      suggestions :=
        Text.distinct (rejections.map Rejection.remedy ++ warnings ++ advice source.text) }

end Validation

end ComponentPreview
