import ComponentPreview.Controller.Request

/-!
# Reports of a session

One line for each change of phase, with warnings and suggestions below it. A report on metadata of
the wrong shape ends where it cannot go on.
-/

namespace ComponentPreview.Report

def isForeign (stub : Json) : Bool :=
  stub.get "origin" |>.str? |>.all (· != "library")

def nameOf (stub : Json) : Json :=
  if stub.has "name" then stub.get "name" else .str "?"

def isObject : Json → Bool
  | .obj _ => true
  | _ => false

/-- The texts that values from a place on are. -/
def textsFrom (index : Nat) : List Json → Except Breakdown (List String)
  | [] => .ok []
  | .str text :: values => (textsFrom (index + 1) values).map (text :: ·)
  | value :: _ => .error (.noText index value)

/-- The names that stand in for something that no library provides. -/
def placeholders (metadata : Json) : Except Breakdown (List String) :=
  match Controller.elements? (metadata.get "stubs") with
  | none => .error (.noElements (metadata.get "stubs"))
  | some stubs =>
      match stubs.find? (!isObject ·) with
      | some stub => .error (.noFields stub)
      | none => textsFrom 0 ((stubs.filter isForeign).map nameOf)

def renderingLine (label : String) (placeholders : List String) : String :=
  let names := ", ".intercalate placeholders
  label ++ " rendering" ++
    (if names.isEmpty then "" else " (placeholders: " ++ names ++ ")") ++ "\n"

/-- The report of a rendering and what it breaks down over. -/
def rendering (label : String) (metadata : Json) : String × Option Breakdown :=
  match placeholders metadata with
  | .error breakdown => ("", some breakdown)
  | .ok names =>
      let line := renderingLine label names
      match Controller.elements? (metadata.get "warnings") with
      | none => (line, some (.noElements (metadata.get "warnings")))
      | some warnings =>
          (line ++ String.join (warnings.map fun warning =>
            "    warning: " ++ warning.display ++ "\n"), none)

/-- What a report on metadata breaks down over. -/
def objection (metadata : Json) : Option Breakdown :=
  (rendering "" metadata).2

def failure (label : String) (failure : Failure) : String :=
  label ++ " " ++ failure.kind.label ++ ": " ++ failure.message.display ++ "\n" ++
    String.join (failure.suggestions.map fun suggestion =>
      "    suggestion: " ++ suggestion.display ++ "\n") ++
    if failure.kind = .transport then "    type 'r' and Enter to retry\n" else ""

def text (phase : Phase) (version : Nat) (metadata : Json) (failed : Option Failure) : String :=
  let label := "  v" ++ toString version
  match phase, failed with
  | .requesting, _ => label ++ " requesting...\n"
  | .rendering, _ => (rendering label metadata).1
  | .ready, _ => label ++ " ready\n"
  | .errored, some reason => failure label reason
  | _, _ => ""

end ComponentPreview.Report
