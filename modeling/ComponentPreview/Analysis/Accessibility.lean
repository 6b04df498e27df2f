import ComponentPreview.Source.Basic

/-!
# Accessibility of a component

Each issue has a penalty, and the score is what the penalties leave of one hundred.
-/

namespace ComponentPreview

inductive AccessibilityIssue
  | imageWithoutAlt
  | clickWithoutKeyboard
  | clickableContainer
  deriving DecidableEq, Repr

namespace AccessibilityIssue

def penalty : AccessibilityIssue → Nat
  | imageWithoutAlt => 20
  | clickWithoutKeyboard => 15
  | clickableContainer => 10

def message : AccessibilityIssue → String
  | imageWithoutAlt => "Missing alt attribute on images"
  | clickWithoutKeyboard => "Missing keyboard support for interactive elements"
  | clickableContainer => "Clickable non-semantic container"

def suggestion : AccessibilityIssue → String
  | imageWithoutAlt => "Add alt attributes to all images for screen readers"
  | clickWithoutKeyboard => "Add onKeyDown handlers or ARIA labels to clickable elements"
  | clickableContainer =>
      "Use semantic HTML elements (button, link) instead of div with onClick"

end AccessibilityIssue

namespace Accessibility

open Pattern

def imageTag : Pattern :=
  lit "<" ++ anyOf ["img", "Image"] ++ wordEdge ++ every (· != '>') ++ lit ">"

def altAttribute : Pattern := wordEdge ++ lit "alt" ++ spacing ++ lit "="

def clickHandler : Pattern := wholeWord "onClick"

def keyHandler : Pattern :=
  wordEdge ++ lit "onKey" ++ anyOf ["Down", "Up", "Press"] ++ wordEdge

def ariaLabel : Pattern :=
  wordEdge ++ lit "aria-label" ++ optional (lit "ledby") ++ wordEdge

def clickableContainer : Pattern :=
  lit "<" ++ anyOf ["div", "span"] ++ wordEdge ++
    most (· != '>') (begins (· == 'o')) ++ wordEdge ++ lit "onClick" ++ spacing ++ lit "="

def isPresent (text : List Char) : AccessibilityIssue → Bool
  | .imageWithoutAlt => (imageTag.findAll text).any fun tag => !altAttribute.occursIn tag.text
  | .clickWithoutKeyboard =>
      clickHandler.occursIn text && !keyHandler.occursIn text && !ariaLabel.occursIn text
  | .clickableContainer => clickableContainer.occursIn text

def issues (text : List Char) : List AccessibilityIssue :=
  [.imageWithoutAlt, .clickWithoutKeyboard, .clickableContainer].filter (isPresent text)

def score (issues : List AccessibilityIssue) : Nat :=
  100 - (issues.map AccessibilityIssue.penalty).foldl (· + ·) 0

end Accessibility

end ComponentPreview
