import ComponentPreview.Script.Brackets
import ComponentPreview.Source.Basic
import ComponentPreview.Text.Basic

/-!
# Type annotations

Return types, parameter types and the types of bindings are erased wherever their surroundings show
that they are types.
-/

namespace ComponentPreview.Annotation

open Pattern

def isTypeChar (c : Char) : Bool :=
  !(c == '\x7b' || c == '\x7d' || c == ';' || c == '=' || c == '(' || c == ')')

def returnType : Pattern :=
  lit ")" ++ spacing ++ lit ":" ++ spacing ++ one isNameStart ++
    few isTypeChar (beginsAfterBlanks '\x7b')

def arrowReturnType : Pattern :=
  lit ")" ++ spacing ++ lit ":" ++ spacing ++ one isNameStart ++
    few isTypeChar (beginsAfterBlanks '=') ++ spacing ++ lit "=>"

def eraseReturnTypes (text : List Char) : List Char :=
  returnType.replace (fun _ => [')']) text

def eraseArrowReturnTypes (text : List Char) : List Char :=
  arrowReturnType.replace (fun _ => ") =>".toList) text

def isFlat (c : Char) : Bool := c != '(' && c != ')'

/-- A list in parentheses, nested at most once, before an arrow or a block. -/
def parameterList : Pattern :=
  lit "(" ++
    capture (every isFlat ++ repeated (lit "(" ++ every isFlat ++ lit ")" ++ every isFlat)) ++
    lit ")" ++ ahead (spacing ++ either (lit "=>") (lit "\x7b"))

def typedParameter : Pattern :=
  capture (spacing ++ optional (lit "...") ++ name) ++ spacing ++ optional (lit "?") ++ spacing ++
    lit ":"

/-- Keeps of a type and what follows it only the default value. -/
def defaultOf (typed : List Char) : List Char :=
  match Brackets.fromAssignment? none 0 typed with
  | some value => ' ' :: value
  | none => []

def eraseNamed (parameter : List Char) : List Char :=
  match typedParameter.opening? parameter with
  | some found => found.group 0 ++ defaultOf (':' :: found.stop.rest)
  | none => parameter

def eraseParameterType (parameter : List Char) : List Char :=
  match parameter.dropWhile isBlank with
  | opener :: inner =>
      if opener == '\x7b' || opener == '[' then
        let closer := if opener == '[' then ']' else '\x7d'
        let block := Brackets.splitBlock opener closer [] 1 inner
        if (Text.trimStart isBlank block.2).head? == some ':' then
          parameter.takeWhile isBlank ++ opener :: block.1 ++ defaultOf block.2
        else parameter
      else eraseNamed parameter
  | [] => eraseNamed parameter

def eraseTypesOf (parameters : List Char) : List Char :=
  Text.join [','] ((Brackets.cutAtCommas parameters).map eraseParameterType)

def eraseParameterTypes (text : List Char) : List Char :=
  parameterList.replace (fun list => '(' :: eraseTypesOf (list.group 0) ++ [')']) text

def declarator : Pattern := anyOf ["const", "let", "var"] ++ gap

def isBindingTypeChar (c : Char) : Bool :=
  c != '=' && c != ';' && c != '\n'

/-- An annotation up to an assignment. -/
def bindingType : Pattern :=
  spacing ++ lit ":" ++ many isBlank ++ one isBindingTypeChar ++
    few isBindingTypeChar (beginsAfterBlanks '=') ++
    ahead (spacing ++ lit "=" ++ one fun c => c != '=' && c != '>')

def namedBinding : Pattern :=
  wordEdge ++ capture (declarator ++ name) ++ bindingType

def isOpener (c : Char) : Bool := c == '\x7b' || c == '['

def isCloser (c : Char) : Bool := c == '\x7d' || c == ']'

def destructuredBinding : Pattern :=
  wordEdge ++
    capture (declarator ++ one isOpener ++ few (fun c => c != '=' && c != ';') (begins isCloser) ++
      one isCloser) ++
    bindingType

def isGenericChar (c : Char) : Bool :=
  !(c == '<' || c == '>' || c == '(' || c == ')' || c == '=' || c == ';')

def hookGeneric : Pattern :=
  wordEdge ++ capture (lit "use" ++ one Char.isUpper ++ every isNameChar) ++ spacing ++ lit "<" ++
    every isGenericChar ++ optional (lit "<" ++ every isGenericChar ++ lit ">") ++
    every isGenericChar ++ lit ">" ++ spacing ++ lit "("

def eraseBindingTypes (text : List Char) : List Char :=
  let named := namedBinding.replace (·.group 0) text
  let destructured := destructuredBinding.replace (·.group 0) named
  hookGeneric.replace (fun found => found.group 0 ++ ['(']) destructured

end ComponentPreview.Annotation
