import ComponentPreview.Json.Display
import ComponentPreview.Text.Integer
import ComponentPreview.Unicode.Token
import ComponentPreview.Unicode.Word

/-!
# Replacement templates

A template says what a match is replaced by. A backslash in it begins an escape: of a control
character, of a character by its octal number, or of a group of the match. The only group there is
has number zero, the whole match. A text without backslashes stands for itself.
-/

namespace ComponentPreview

inductive TemplatePiece
  | literal (c : Char)
  | whole
  deriving DecidableEq, Repr

/-- What a match is replaced by, piece by piece. -/
abbrev Template := List TemplatePiece

namespace Template

/-- A character of a template, or one with the backslash before it. -/
inductive Token
  | plain (c : Char)
  | escaped (c : Char)
  deriving DecidableEq, Repr

namespace Token

def text : Token → List Char
  | plain c => [c]
  | escaped c => ['\\', c]

/-- A backslash at the very end stands for itself. -/
def read : List Char → List Token
  | '\\' :: c :: rest => escaped c :: read rest
  | c :: rest => plain c :: read rest
  | [] => []

def digit? : Token → Option Nat
  | plain c => if c.isDigit then some (c.toNat - 48) else none
  | escaped _ => none

def octal? (token : Token) : Option Nat :=
  token.digit?.filter (· < 8)

end Token

def textOf (tokens : List Token) : List Char :=
  tokens.flatMap Token.text

/-- What is wrong with an escape. -/
inductive Flaw
  | unknown (escape : List Char)
  | octalRange (escape : List Char)
  | noGroup (number : Int)
  | noOpening
  | noName
  | noClosing
  | nameCharacter (name : List Char)
  deriving DecidableEq, Repr

def Flaw.message : Flaw → String
  | unknown escape => "bad escape " ++ String.ofList escape
  | octalRange escape =>
      "octal escape value " ++ String.ofList escape ++ " outside of range 0-0o377"
  | noGroup number => "invalid group reference " ++ toString number
  | noOpening => "missing <"
  | noName => "missing group name"
  | noClosing => "missing >, unterminated name"
  | nameCharacter name => "bad character in group name " ++ Json.inspectText name

/-- A flaw with the number of characters before it, or the name of a group that there is not. -/
inductive Fault
  | flaw (flaw : Flaw) (offset : Nat)
  | unknownGroup (name : List Char)
  deriving DecidableEq, Repr

/-- The line and column of a place; both are counted from one. -/
def lineAndColumn (text : List Char) (offset : Nat) : Nat × Nat :=
  let lines := Text.lines (text.take offset)
  (lines.length, (lines.getLastD []).length + 1)

/-- The message of a fault in a template. -/
def Fault.message (text : List Char) : Fault → String
  | .flaw what offset =>
      what.message ++ " at position " ++ toString offset ++
        if text.contains '\n' then
          let (line, column) := lineAndColumn text offset
          " (line " ++ toString line ++ ", column " ++ toString column ++ ")"
        else ""
  | .unknownGroup name => "unknown group name " ++ Json.inspectText name

def control? : Char → Option Char
  | 'a' => some '\x07'
  | 'b' => some '\x08'
  | 'f' => some '\x0c'
  | 'n' => some '\n'
  | 'r' => some '\r'
  | 't' => some '\t'
  | 'v' => some '\x0b'
  | '\\' => some '\\'
  | _ => none

/-- Whether a name is made as names of groups are. -/
def isGroupName : List Char → Bool
  | [] => false
  | c :: rest => isNameChar c && isTokenChar c && (digitValue? c).isNone && rest.all isTokenChar

/-- The group that a name or number in angle brackets means. -/
def group (name : List Char) (offset : Nat) : Except Fault TemplatePiece :=
  if isGroupName name then .error (.unknownGroup name)
  else
    match Text.readInteger? name with
    | some number =>
        if number < 0 then .error (.flaw (.nameCharacter name) offset)
        else if number = 0 then .ok .whole
        else .error (.flaw (.noGroup number) offset)
    | none => .error (.flaw (.nameCharacter name) offset)

/-- The value of at most `bound` octal digits after others, and what follows them. -/
def octalTail (value : Nat) : Nat → List Token → Nat × List Token
  | bound + 1, token :: tokens =>
      match token.octal? with
      | some digit => octalTail (8 * value + digit) bound tokens
      | none => (value, token :: tokens)
  | _, tokens => (value, tokens)

theorem length_octalTail_le (value bound : Nat) (tokens : List Token) :
    (octalTail value bound tokens).2.length ≤ tokens.length := by
  fun_induction octalTail value bound tokens with
  | case1 _ _ _ _ _ _ ih => exact Nat.le_succ_of_le ih
  | case2 => exact Nat.le_refl _
  | case3 => exact Nat.le_refl _

/-- The three octal digits that a digit begins, if it does. -/
def octal? (digit : Nat) : List Token → Option Nat
  | second :: third :: _ => do
      let second ← second.octal?
      let third ← third.octal?
      if digit < 8 then some (64 * digit + 8 * second + third) else none
  | _ => none

/-- Reads the pieces from a place on; a digit after another belongs to the same number. -/
def pieces (offset : Nat) (tokens : List Token) : Except Fault Template :=
  match tokens with
  | [] => .ok []
  | .plain c :: rest => return .literal c :: (← pieces (offset + 1) rest)
  | .escaped 'g' :: .plain '<' :: rest =>
      let name := textOf (rest.takeWhile (· != .plain '>'))
      match _split : rest.dropWhile (· != .plain '>') with
      | [] => .error (.flaw (if name.isEmpty then .noName else .noClosing) (offset + 3))
      | _ :: after => do
          if name.isEmpty then throw (.flaw .noName (offset + 3))
          let piece ← group name (offset + 3)
          return piece :: (← pieces (offset + 4 + name.length) after)
  | .escaped 'g' :: _ => .error (.flaw .noOpening (offset + 2))
  | .escaped '0' :: rest =>
      let tail := octalTail 0 2 rest
      return .literal (Char.ofNat tail.1) ::
        (← pieces (offset + 2 + (rest.length - tail.2.length)) tail.2)
  | .escaped c :: rest =>
      if c.isDigit then
        let digit := c.toNat - 48
        match octal? digit rest with
        | some value =>
            if 0xff < value then
              .error (.flaw (.octalRange ('\\' :: c :: textOf (rest.take 2))) offset)
            else return .literal (Char.ofNat value) :: (← pieces (offset + 4) (rest.drop 2))
        | none =>
            let number := match rest.head?.bind Token.digit? with
              | some next => 10 * digit + next
              | none => digit
            .error (.flaw (.noGroup number) (offset + 1))
      else
        match control? c with
        | some meant => return .literal meant :: (← pieces (offset + 2) rest)
        | none =>
            if c.isAlpha then .error (.flaw (.unknown ['\\', c]) offset)
            else return .literal '\\' :: .literal c :: (← pieces (offset + 2) rest)
termination_by tokens.length
decreasing_by
  all_goals simp only [List.length_cons, List.length_drop]
  · omega
  · have := (List.dropWhile_sublist (l := rest) (· != Token.plain '>')).length_le
    simp only [_split, List.length_cons] at this
    omega
  · have := length_octalTail_le 0 2 rest
    omega
  all_goals omega

def read (text : List Char) : Except Fault Template :=
  pieces 0 (Token.read text)

/-- The template that stands for a text as it is. -/
def ofText (text : String) : Template :=
  text.toList.map .literal

/-- What a match is replaced by. -/
def fill (template : Template) (found : List Char) : List Char :=
  template.flatMap fun
    | .literal c => [c]
    | .whole => found

theorem fill_ofText (text : String) (found : List Char) :
    (ofText text).fill found = text.toList := by
  simp [ofText, fill, List.flatMap_map]

end Template

end ComponentPreview
