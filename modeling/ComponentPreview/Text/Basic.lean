/-!
# Operations on texts

A text under inspection is a list of characters. Cutting a text at separators keeps every other
character, and joining the parts again gives the text back (`join_cut`).
-/

namespace ComponentPreview.Text

def trimStart (drop : Char → Bool) (text : List Char) : List Char :=
  text.dropWhile drop

def trimEnd (drop : Char → Bool) (text : List Char) : List Char :=
  (text.reverse.dropWhile drop).reverse

def trim (drop : Char → Bool) (text : List Char) : List Char :=
  trimEnd drop (trimStart drop text)

def startsWith (text : List Char) (start : String) : Bool :=
  start.toList.isPrefixOf text

/-- Whether `needle` stands somewhere in a text. -/
def occurs (needle : List Char) : List Char → Bool
  | [] => needle.isEmpty
  | c :: rest => needle.isPrefixOf (c :: rest) || occurs needle rest

def mentions (text : List Char) (needle : String) : Bool :=
  occurs needle.toList text

/-- How often `needle` stands in a text without overlap, counted from the left. The first argument
is how many characters of the last occurrence are still to come. -/
def tally (needle : List Char) : Nat → Nat → List Char → Nat
  | _, count, [] => count
  | skip + 1, count, _ :: rest => tally needle skip count rest
  | 0, count, c :: rest =>
      if needle.isPrefixOf (c :: rest) then tally needle (needle.length - 1) (count + 1) rest
      else tally needle 0 count rest

def timesMentioned (text : List Char) (needle : String) : Nat :=
  tally needle.toList 0 0 text

private def cutStep (isCut : Char → Bool) (c : Char) (parts : List (List Char)) :
    List (List Char) :=
  if isCut c then [] :: parts
  else match parts with
    | [] => [[c]]
    | part :: others => (c :: part) :: others

/-- The parts of a text between the characters at which it is cut. -/
def cut (isCut : Char → Bool) (text : List Char) : List (List Char) :=
  text.foldr (cutStep isCut) [[]]

def lines (text : List Char) : List (List Char) :=
  cut (· == '\n') text

def join (separator : List Char) : List (List Char) → List Char
  | [] => []
  | [part] => part
  | part :: others => part ++ separator ++ join separator others

theorem cut_ne_nil (isCut : Char → Bool) (text : List Char) : cut isCut text ≠ [] := by
  cases text with
  | nil => simp [cut]
  | cons c rest =>
      simp only [cut, List.foldr_cons]
      unfold cutStep
      split
      · simp
      · split <;> simp

theorem join_cut (c : Char) (text : List Char) : join [c] (cut (· == c) text) = text := by
  induction text with
  | nil => rfl
  | cons d rest ih =>
      have step : cut (· == c) (d :: rest) = cutStep (· == c) d (cut (· == c) rest) := rfl
      rw [step]
      match h : cut (· == c) rest with
      | [] => exact absurd h (cut_ne_nil _ _)
      | part :: others =>
          rw [h] at ih
          by_cases same : d = c
          · subst same
            simp [cutStep, join, ih]
          · cases others <;> simp_all [cutStep, join]

/-- Keeps the first of equal entries. -/
def distinct [BEq α] (entries : List α) : List α :=
  entries.foldl (fun kept entry => if kept.contains entry then kept else kept ++ [entry]) []

end ComponentPreview.Text
