import ComponentPreview.Source.Basic
import ComponentPreview.Text.Basic

/-!
# Rendering performance of a component
-/

namespace ComponentPreview

inductive Bottleneck
  | staleClosure
  | emptyDependencies
  | missingKey
  | indexKey
  deriving DecidableEq, Repr

def Bottleneck.message : Bottleneck → String
  | staleClosure => "Potential stale closure in state updates"
  | emptyDependencies => "Empty dependency array might miss dependencies"
  | missingKey => "Missing key prop in list rendering"
  | indexKey => "Array index used as list key"

structure Performance where
  hasMemoization : Bool
  hasOptimization : Bool
  hasLazyLoading : Bool
  hasCodeSplitting : Bool
  estimatedRenders : Nat
  bottlenecks : List Bottleneck
  deriving DecidableEq, Repr

namespace Performance

open Pattern

def statePair : Pattern :=
  lit "const" ++ spacing ++ lit "[" ++ spacing ++ capture name ++ spacing ++ lit "," ++ spacing ++
    capture (lit "set" ++ one Char.isUpper ++ every isNameChar) ++ spacing ++ lit "]" ++ spacing ++
    lit "=" ++ spacing ++ optional (lit "React.") ++ lit "useState" ++ wordEdge

/-- A setter called with the value that its closure captured. -/
def staleUpdate (value setter : List Char) : Pattern :=
  wordEdge ++ word setter ++ lit "(" ++ spacing ++ word value ++ wordEdge

def classStaleUpdate : Pattern :=
  lit "this.setState(" ++ spacing ++ lit "\x7b" ++
    most (· != '\x7d') (begins (· == 't')) ++ lit "this.state."

def emptyDependencies : Pattern :=
  lit "," ++ spacing ++ lit "[" ++ spacing ++ lit "]" ++ spacing ++ lit ")"

def listMap : Pattern := lit ".map" ++ spacing ++ lit "("

def keyAttribute : Pattern := wordEdge ++ lit "key" ++ spacing ++ lit "="

def indexKey : Pattern :=
  keyAttribute ++ spacing ++ lit "\x7b" ++ spacing ++ anyOf ["index", "idx", "i"] ++ spacing ++
    lit "\x7d"

/-- The state variables of a source and their setters, each pair once. -/
def statePairs (text : List Char) : List (List Char × List Char) :=
  Text.distinct ((statePair.findAll text).map fun pair => (pair.group 0, pair.group 1))

def hasStaleClosure (text : List Char) : Bool :=
  classStaleUpdate.occursIn text ||
    (statePairs text).any fun (value, setter) => (staleUpdate value setter).occursIn text

def isPresent (text : List Char) : Bottleneck → Bool
  | .staleClosure => hasStaleClosure text
  | .emptyDependencies => Text.mentions text "useEffect" && emptyDependencies.occursIn text
  | .missingKey => listMap.occursIn text && !keyAttribute.occursIn text
  | .indexKey => listMap.occursIn text && keyAttribute.occursIn text && indexKey.occursIn text

def bottlenecksOf (text : List Char) : List Bottleneck :=
  [.staleClosure, .emptyDependencies, .missingKey, .indexKey].filter (isPresent text)

def renders (text : List Char) : Nat :=
  1 + (if Text.mentions text "useState" then 2 else 0) +
    (if Text.mentions text "useEffect" then 1 else 0) +
    (if Text.mentions text "useContext" then 1 else 0)

def ofText (text : List Char) : Performance :=
  let memoizes := ["React.memo", "useMemo", "useCallback"].any (Text.mentions text)
  let loadsLazily := Text.mentions text "React.lazy"
  { hasMemoization := memoizes
    hasOptimization := memoizes || Text.mentions text "shouldComponentUpdate" ||
      Text.mentions text "PureComponent"
    hasLazyLoading := loadsLazily || Text.mentions text "Suspense"
    hasCodeSplitting := loadsLazily ||
      (wordEdge ++ lit "import" ++ spacing ++ lit "(").occursIn text
    estimatedRenders := renders text
    bottlenecks := bottlenecksOf text }

end Performance

end ComponentPreview
