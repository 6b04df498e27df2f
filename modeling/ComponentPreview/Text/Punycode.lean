/-!
# Punycode

A text in ASCII that stands for one in any script: the ASCII characters come first, and after a
hyphen the others in ascending order. Each is given by how many steps of inserting lie between it
and the one before, a number in base 36 whose lowest digits tell by their size where it ends.
-/

namespace ComponentPreview.Punycode

def digit (value : Nat) : Char :=
  if value < 26 then Char.ofNat ('a'.toNat + value) else Char.ofNat ('0'.toNat + (value - 26))

/-- The least digit that another one follows, at the `place`-th value. -/
def threshold (bias place : Nat) : Nat :=
  min 26 (max 1 (place - bias))

theorem threshold_pos (bias place : Nat) : 0 < threshold bias place := by
  simp only [threshold]
  omega

def digits (bias place value : Nat) : List Char :=
  let least := threshold bias place
  if value < least then [digit value]
  else
    digit (least + (value - least) % (36 - least)) ::
      digits bias (place + 36) ((value - least) / (36 - least))
termination_by value
decreasing_by
  have := threshold_pos bias place
  exact Nat.lt_of_le_of_lt (Nat.div_le_self _ _) (by omega)

def biasOf (value offset : Nat) : Nat :=
  if 455 < value then biasOf (value / 35) (offset + 36) else offset + 36 * value / (value + 38)
termination_by value
decreasing_by omega

/-- The bias after a distance was written, as fits the next one. -/
def adapt (distance count : Nat) (isFirst : Bool) : Nat :=
  let scaled := distance / if isFirst then 700 else 2
  biasOf (scaled + scaled / count) 0

/-- What is written of the characters outside ASCII. `count` characters are in place, and `distance`
steps have been passed since the last of them. -/
structure Progress where
  count : Nat
  isFirst : Bool := true
  bias : Nat := 72
  distance : Nat := 0
  written : List Char := []

namespace Progress

/-- Passes a character of the text while those equal to `current` are put in. -/
def pass (current : Nat) (progress : Progress) (c : Char) : Progress :=
  if c.toNat < current then { progress with distance := progress.distance + 1 }
  else if c.toNat = current then
    { count := progress.count + 1
      isFirst := false
      bias := adapt progress.distance (progress.count + 1) progress.isFirst
      distance := 0
      written := progress.written ++ digits progress.bias 36 progress.distance }
  else progress

/-- Puts in all characters of a text that have one of the code points, which are given in ascending
order from `next` on. -/
def insertAll (text : List Char) : Nat → List Nat → Progress → Progress
  | _, [], progress => progress
  | next, current :: others, progress =>
      let skipped := (current - next) * (progress.count + 1)
      let progress := text.foldl (pass current)
        { progress with distance := progress.distance + skipped }
      insertAll text (current + 1) others { progress with distance := progress.distance + 1 }

end Progress

def isAscii (c : Char) : Bool :=
  c.toNat < 128

def encode (text : List Char) : List Char :=
  let ascii := text.filter isAscii
  let others := ((text.filter (!isAscii ·)).map Char.toNat).mergeSort.eraseDups
  ascii ++ (if ascii.isEmpty then [] else ['-']) ++
    (Progress.insertAll text 128 others { count := ascii.length }).written

end ComponentPreview.Punycode
