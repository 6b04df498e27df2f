import ComponentPreview.Unicode.Word

/-!
# Patterns

A pattern describes a stretch of text by classes of characters. Where several stretches fit, the
order of its alternatives decides: `most` and `repeated` prefer more, `few` prefers less, `either`
prefers its left side. `Pattern.run` tries the stretches in that order and answers the first after
which the rest of the pattern fits too. `most` and `few` end only where what follows passes a test,
which keeps hopeless places out of the search.
-/

namespace ComponentPreview

/-- A place in a text: the character before it, the number of characters before it, and the
characters after it. -/
structure Cursor where
  before : Option Char
  offset : Nat
  rest : List Char

namespace Cursor

def start (text : List Char) : Cursor :=
  ⟨none, 0, text⟩

def past (c : Char) (offset : Nat) (rest : List Char) : Cursor :=
  ⟨some c, offset + 1, rest⟩

/-- The place after `word`, if `word` stands here. -/
def skip? : List Char → Cursor → Option Cursor
  | [], cursor => some cursor
  | w :: word, ⟨_, offset, c :: rest⟩ => if w == c then skip? word (past c offset rest) else none
  | _ :: _, ⟨_, _, []⟩ => none

/-- The places after none, one, two … characters of a class where what follows passes a test, the
furthest first. -/
def stretch (isIn : Char → Bool) (isEnd : List Char → Bool) (cursor : Cursor) : List Cursor :=
  go cursor.before cursor.offset [] cursor.rest
where
  go (before : Option Char) (offset : Nat) (seen : List Cursor) : List Char → List Cursor
    | [] => if isEnd [] then ⟨before, offset, []⟩ :: seen else seen
    | text@(c :: rest) =>
        let seen := if isEnd text then ⟨before, offset, text⟩ :: seen else seen
        if isIn c then go (some c) (offset + 1) seen rest else seen

def precedes (isIn : Char → Bool) (cursor : Cursor) : Bool :=
  match cursor.rest with
  | [] => false
  | c :: _ => isIn c

def follows (isIn : Char → Bool) (cursor : Cursor) : Bool :=
  match cursor.before with
  | none => false
  | some c => isIn c

end Cursor

/-- A stretch of text: where it starts and how many characters it has. -/
structure Span where
  first : Cursor
  size : Nat

namespace Span

def between (first last : Cursor) : Span :=
  ⟨first, last.offset - first.offset⟩

def text (span : Span) : List Char :=
  span.first.rest.take span.size

end Span

inductive Pattern
  | nothing
  | word (text : List Char)
  | one (isIn : Char → Bool)
  | most (isIn : Char → Bool) (isEnd : List Char → Bool)
  | few (isIn : Char → Bool) (isEnd : List Char → Bool)
  | both (left right : Pattern)
  | either (left right : Pattern)
  | repeated (body : Pattern)
  | capture (body : Pattern)
  | wordEdge
  | lineStart
  | lastEnd
  | textEnd
  | notAfter (isIn : Char → Bool)
  | ahead (body : Pattern)
  | notAhead (body : Pattern)

/-- How far a pattern has come, with the spans captured on the way. -/
structure Progress where
  here : Cursor
  groups : List Span

def Progress.moveTo (progress : Progress) (here : Cursor) : Progress :=
  { progress with here }

namespace Pattern

/-- Runs a body up to `bound` times, more before fewer. -/
def iterate (body : Progress → (Progress → Option Progress) → Option Progress) :
    Nat → Progress → (Progress → Option Progress) → Option Progress
  | 0, progress, next => next progress
  | bound + 1, progress, next =>
      match body progress fun later => iterate body bound later next with
      | some found => some found
      | none => next progress

/-- Tries the places after none, one, two … characters of a class where what follows passes a test,
the nearest first. -/
def nearest (isIn : Char → Bool) (isEnd : List Char → Bool) (attempt : Cursor → Option Progress)
    (before : Option Char) (offset : Nat) : List Char → Option Progress
  | [] => if isEnd [] then attempt ⟨before, offset, []⟩ else none
  | text@(c :: rest) =>
      match if isEnd text then attempt ⟨before, offset, text⟩ else none with
      | some found => some found
      | none => if isIn c then nearest isIn isEnd attempt (some c) (offset + 1) rest else none

def run : Pattern → Progress → (Progress → Option Progress) → Option Progress
  | nothing, progress, next => next progress
  | word text, progress, next =>
      match progress.here.skip? text with
      | some there => next (progress.moveTo there)
      | none => none
  | one isIn, progress, next =>
      match progress.here with
      | ⟨_, offset, c :: rest⟩ =>
          if isIn c then next (progress.moveTo (.past c offset rest)) else none
      | ⟨_, _, []⟩ => none
  | most isIn isEnd, progress, next =>
      (progress.here.stretch isIn isEnd).findSome? fun there => next (progress.moveTo there)
  | few isIn isEnd, progress, next =>
      nearest isIn isEnd (fun there => next (progress.moveTo there)) progress.here.before
        progress.here.offset progress.here.rest
  | both left right, progress, next => run left progress fun later => run right later next
  | either left right, progress, next =>
      match run left progress next with
      | some found => some found
      | none => run right progress next
  | repeated body, progress, next =>
      iterate (run body) progress.here.rest.length progress next
  | capture body, progress, next =>
      run body progress fun later =>
        next { later with groups := later.groups ++ [Span.between progress.here later.here] }
  | wordEdge, progress, next =>
      if progress.here.follows isWord != progress.here.precedes isWord then next progress else none
  | lineStart, progress, next =>
      if progress.here.before.isNone || progress.here.follows (· == '\n') then next progress
      else none
  | lastEnd, progress, next => if progress.here.rest.isEmpty then next progress else none
  | textEnd, progress, next =>
      if progress.here.rest.isEmpty || progress.here.rest == ['\n'] then next progress else none
  | notAfter isIn, progress, next => if progress.here.follows isIn then none else next progress
  | ahead body, progress, next =>
      match run body progress some with
      | some _ => next progress
      | none => none
  | notAhead body, progress, next =>
      match run body progress some with
      | some _ => none
      | none => next progress

/-- One pattern after the other. Sequences nest to the right, so that a place where the first part
does not fit costs nothing for the others. -/
def andThen : Pattern → Pattern → Pattern
  | both left right, last => both left (andThen right last)
  | first, last => both first last

theorem run_andThen (first last : Pattern) (progress : Progress)
    (next : Progress → Option Progress) :
    (andThen first last).run progress next =
      first.run progress fun later => last.run later next := by
  fun_induction andThen first last generalizing progress next with
  | case1 left right last ih => simp only [run, ih]
  | case2 first last => simp only [run]

instance : Append Pattern := ⟨andThen⟩

instance : OrElse Pattern := ⟨fun left right => either left (right ())⟩

def lit (text : String) : Pattern :=
  word text.toList

def many (isIn : Char → Bool) : Pattern :=
  most isIn fun _ => true

def oneOrMore (isIn : Char → Bool) : Pattern :=
  one isIn ++ many isIn

/-- Whether a text begins with a character of a class. -/
def begins (isIn : Char → Bool) : List Char → Bool
  | [] => false
  | c :: _ => isIn c

/-- All the characters of a class that stand here, and no fewer. -/
def every (isIn : Char → Bool) : Pattern :=
  most isIn (!begins isIn ·)

def optional (body : Pattern) : Pattern :=
  either body nothing

def anyOf : List String → Pattern
  | [] => one fun _ => false
  | [text] => lit text
  | text :: texts => either (lit text) (anyOf texts)

/-- A stretch of text that a pattern describes, with the stretches it captured in order. -/
structure Match where
  whole : Span
  stop : Cursor
  groups : List Span

namespace Match

def text (found : Match) : List Char :=
  found.whole.text

def group (found : Match) (index : Nat) : List Char :=
  match found.groups[index]? with
  | some span => span.text
  | none => []

end Match

/-- The stretch that starts here. -/
def at? (pattern : Pattern) (here : Cursor) : Option Match :=
  match pattern.run ⟨here, []⟩ some with
  | some found => some ⟨Span.between here found.here, found.here, found.groups⟩
  | none => none

def opening? (pattern : Pattern) (text : List Char) : Option Match :=
  pattern.at? (.start text)

/-- The leftmost stretch from a place on. -/
def firstFrom? (pattern : Pattern) (before : Option Char) (offset : Nat) :
    List Char → Option Match
  | [] => pattern.at? ⟨before, offset, []⟩
  | c :: rest =>
      match pattern.at? ⟨before, offset, c :: rest⟩ with
      | some found => some found
      | none => pattern.firstFrom? (some c) (offset + 1) rest

def first? (pattern : Pattern) (text : List Char) : Option Match :=
  pattern.firstFrom? none 0 text

def occursIn (pattern : Pattern) (text : List Char) : Bool :=
  (pattern.first? text).isSome

/-- A text taken apart: characters outside every match, and matches. -/
inductive Piece
  | kept (c : Char)
  | found (found : Match)

/-- Takes a text apart from the left without overlap. The first argument is how many characters of
the last match are still to come; what is already taken apart stands in reverse. -/
def dissectFrom (pattern : Pattern) (skip : Nat) (before : Option Char) (offset : Nat)
    (done : List Piece) : List Char → List Piece
  | [] => done.reverse
  | c :: rest =>
      match skip with
      | skip + 1 => pattern.dissectFrom skip (some c) (offset + 1) done rest
      | 0 =>
          match pattern.at? ⟨before, offset, c :: rest⟩ with
          | some found =>
              if found.whole.size = 0 then
                pattern.dissectFrom 0 (some c) (offset + 1) (.kept c :: done) rest
              else
                pattern.dissectFrom (found.whole.size - 1) (some c) (offset + 1)
                  (.found found :: done) rest
          | none => pattern.dissectFrom 0 (some c) (offset + 1) (.kept c :: done) rest

def dissect (pattern : Pattern) (text : List Char) : List Piece :=
  pattern.dissectFrom 0 none 0 [] text

/-- The matches of a pattern, from the left and without overlap. -/
def findAll (pattern : Pattern) (text : List Char) : List Match :=
  (pattern.dissect text).filterMap fun
    | .kept _ => none
    | .found found => some found

/-- Puts `edit` of each match in its place. -/
def replace (pattern : Pattern) (edit : Match → List Char) (text : List Char) : List Char :=
  (pattern.dissect text).flatMap fun
    | .kept c => [c]
    | .found found => edit found

def erase (pattern : Pattern) (text : List Char) : List Char :=
  pattern.replace (fun _ => []) text

/-- The parts of a text between the matches of a pattern. -/
def cut (pattern : Pattern) (text : List Char) : List (List Char) :=
  (pattern.dissect text).foldr
    (fun piece parts =>
      match piece, parts with
      | .found _, parts => [] :: parts
      | .kept c, part :: others => (c :: part) :: others
      | .kept c, [] => [[c]])
    [[]]

end Pattern

end ComponentPreview
