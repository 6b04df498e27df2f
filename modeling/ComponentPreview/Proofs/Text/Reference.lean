import ComponentPreview.Proofs.Json.Literal

/-!
# Character references

Markup names characters by references, which an ampersand begins. What each name and each number
stands for is a table; how far a reference goes is fixed. Whatever the rest of the table says, an
escaped text is taken back, also one that reads like references itself.
-/

namespace ComponentPreview.Markup

/-- What references stand for. The semicolon that ends a name, if one does, belongs to it. -/
structure References where
  named? : List Char → Option (List Char)
  numbered : Nat → List Char
  ampersand : named? ['a', 'm', 'p', ';'] = some ['&']
  less : named? ['l', 't', ';'] = some ['<']
  greater : named? ['g', 't', ';'] = some ['>']
  quotation : named? ['q', 'u', 'o', 't', ';'] = some ['"']
  apostrophe : numbered 39 = ['\'']

namespace References

instance : Inhabited References where
  default := {
    named? := fun name => [("amp;", '&'), ("lt;", '<'), ("gt;", '>'), ("quot;", '"')].findSome?
      fun (known, c) => if known.toList = name then some [c] else none
    numbered := fun n => [Char.ofNat n]
    ampersand := by decide
    less := by decide
    greater := by decide
    quotation := by decide
    apostrophe := by decide }

variable (references : References)

/-- What stands for a name: if it is not known, what stands for the longest known name that it
begins with, and the rest of it. -/
def ofName (name : List Char) : List Char :=
  match references.named? name with
  | some meant => meant
  | none =>
      let known := (List.range' 2 (name.length - 2)).reverse.findSome? fun size =>
        (references.named? (name.take size)).map (· ++ name.drop size)
      known.getD ('&' :: name)

end References

def isNameChar (c : Char) : Bool :=
  !(c == '\t' || c == '\n' || c == '\x0c' || c == ' ' || c == '<' || c == '&' || c == '#' ||
    c == ';')

def isHexDigit (c : Char) : Bool :=
  (Json.hexValue? c).isSome

def number (base : Nat) (digits : List Char) : Nat :=
  digits.foldl (fun n c => base * n + (Json.hexValue? c).getD 0) 0

/-- The semicolon that a text begins with, if it does. -/
def semicolon : List Char → List Char
  | ';' :: _ => [';']
  | _ => []

/-- What stands for the reference after an ampersand, and how many characters it takes. -/
def reference? (references : References) : List Char → Option (List Char × Nat)
  | '#' :: rest =>
      let (mark, base, digits) := match rest with
        | 'x' :: hex | 'X' :: hex => (2, 16, hex.takeWhile isHexDigit)
        | _ => (1, 10, rest.takeWhile Char.isDigit)
      if digits.isEmpty then none
      else
        let size := mark + digits.length
        some (references.numbered (number base digits),
          size + (semicolon (('#' :: rest).drop size)).length)
  | text =>
      let name := (text.take 32).takeWhile isNameChar
      if name.isEmpty then none
      else
        let name := name ++ semicolon (text.drop name.length)
        some (references.ofName name, name.length)

/-- Takes references back, from the end of one on that goes so much further. -/
def unescapeFrom (references : References) : Nat → List Char → List Char
  | _, [] => []
  | skipped + 1, _ :: rest => unescapeFrom references skipped rest
  | 0, '&' :: rest =>
      match reference? references rest with
      | some (meant, size) => meant ++ unescapeFrom references size rest
      | none => '&' :: unescapeFrom references 0 rest
  | 0, c :: rest => c :: unescapeFrom references 0 rest

def unescape (references : References) (text : List Char) : List Char :=
  unescapeFrom references 0 text

/-- What a character of an attribute value gives way to. -/
def attributeEntity? (c : Char) : Option String :=
  if c = '\'' then some "&#x27;" else entity? c

theorem toList_escapeAttribute (text : String) :
    (escapeAttribute text).toList = text.toList.flatMap (replaced attributeEntity?) :=
  toList_escapeWith _ _

def attributeEntities : List (Char × Option String) :=
  [('&', some "&amp;"), ('<', some "&lt;"), ('>', some "&gt;"), ('"', some "&quot;"),
    ('\'', some "&#x27;")]

theorem attributeEntity?_cases (c : Char) :
    attributeEntity? c = none ∧ c ∉ ['&', '<', '>', '"', '\''] ∨
    (c, attributeEntity? c) ∈ attributeEntities := by
  by_cases mem : c ∈ ['&', '<', '>', '"', '\'']
  · refine .inr ?_
    simp only [List.mem_cons, List.not_mem_nil, or_false] at mem
    rcases mem with rfl | rfl | rfl | rfl | rfl <;> decide
  · refine .inl ⟨?_, mem⟩
    simp only [List.mem_cons, List.not_mem_nil, or_false, not_or] at mem
    unfold attributeEntity? entity?
    rw [if_neg mem.2.2.2.2]
    split <;> simp_all

theorem not_mem_of_mem_escapeAttribute (text : String) :
    ∀ c ∈ (escapeAttribute text).toList, c ∉ ['<', '>', '"', '\''] := by
  rw [toList_escapeAttribute]
  intro c mem
  obtain ⟨d, -, mem⟩ := List.mem_flatMap.1 mem
  rcases attributeEntity?_cases d with ⟨none, plain⟩ | known
  · rw [replaced_of_none none, List.mem_singleton] at mem
    exact mem ▸ fun marked => plain (List.mem_cons_of_mem _ marked)
  · have clean : ∀ entry ∈ attributeEntities, entry.2.all fun entity =>
        entity.toList.all fun c => !(['<', '>', '"', '\''].contains c) := by decide
    unfold replaced at mem
    split at mem
    · next entity found =>
        have clean := clean _ known
        rw [found, Option.all_some, List.all_eq_true] at clean
        simpa using clean c mem
    · next none =>
        rw [none] at known
        simp [attributeEntities] at known

variable (references : References)

theorem unescapeFrom_plain {c : Char} (h : c ≠ '&') (rest : List Char) :
    unescapeFrom references 0 (c :: rest) = c :: unescapeFrom references 0 rest := by
  rw [unescapeFrom.eq_def]
  split <;> simp_all

theorem reference?_named {name meant : List Char} (some : name ≠ []) (short : name.length ≤ 32)
    (chars : name.all isNameChar = true)
    (known : references.named? (name ++ [';']) = Option.some meant) (rest : List Char) :
    reference? references (name ++ [';'] ++ rest) =
      Option.some (meant, (name ++ [';']).length) := by
  rw [List.append_assoc, List.singleton_append]
  have chars := List.all_eq_true.1 chars
  have whole : ((name ++ ';' :: rest).take 32).takeWhile isNameChar = name := by
    rw [List.take_append, List.take_of_length_le short, List.takeWhile_append_of_pos chars]
    cases 32 - name.length with
    | zero => simp
    | succ n => simp [isNameChar]
  have hash : ∀ rest', name ++ ';' :: rest ≠ '#' :: rest' := by
    intro rest' first
    obtain ⟨c, others, rfl⟩ := List.exists_cons_of_ne_nil some
    obtain rfl := (List.cons.inj first).1
    exact absurd (chars '#' List.mem_cons_self) (by decide)
  unfold reference?
  split
  · next first => exact absurd first (hash _)
  · simp [whole, some, semicolon, References.ofName, known]

theorem reference?_apostrophe (rest : List Char) :
    reference? references (['#', 'x', '2', '7', ';'] ++ rest) = some (['\''], 5) := by
  have digits : ('2' :: '7' :: ';' :: rest).takeWhile isHexDigit = ['2', '7'] := by
    simp [isHexDigit, Json.hexValue?]
  have code : number 16 ['2', '7'] = 39 := by decide
  simp only [List.cons_append, List.nil_append, reference?, digits]
  simp [code, references.apostrophe, semicolon]

theorem unescapeFrom_reference {text meant : List Char}
    (h : ∀ rest, reference? references (text ++ rest) = some (meant, text.length))
    (rest : List Char) :
    unescapeFrom references 0 ('&' :: (text ++ rest)) =
      meant ++ unescapeFrom references 0 rest := by
  have skip : ∀ text : List Char,
      unescapeFrom references text.length (text ++ rest) = unescapeFrom references 0 rest := by
    intro text
    induction text with
    | nil => rfl
    | cons c text ih => exact ih
  rw [unescapeFrom, h rest]
  exact congrArg (meant ++ ·) (skip text)

theorem unescapeFrom_replaced (c : Char) (rest : List Char) :
    unescapeFrom references 0 (replaced attributeEntity? c ++ rest) =
      c :: unescapeFrom references 0 rest := by
  rcases attributeEntity?_cases c with ⟨none, plain⟩ | mem
  · rw [replaced_of_none none]
    exact unescapeFrom_plain references (by simp_all) rest
  · simp only [attributeEntities, List.mem_cons, Prod.mk.injEq, List.not_mem_nil, or_false] at mem
    rcases mem with ⟨rfl, entity⟩ | ⟨rfl, entity⟩ | ⟨rfl, entity⟩ | ⟨rfl, entity⟩ | ⟨rfl, entity⟩
    · rw [replaced, entity]
      exact unescapeFrom_reference references (reference?_named references
        (List.cons_ne_nil 'a' ['m', 'p']) (by decide) (by decide) references.ampersand) rest
    · rw [replaced, entity]
      exact unescapeFrom_reference references (reference?_named references
        (List.cons_ne_nil 'l' ['t']) (by decide) (by decide) references.less) rest
    · rw [replaced, entity]
      exact unescapeFrom_reference references (reference?_named references
        (List.cons_ne_nil 'g' ['t']) (by decide) (by decide) references.greater) rest
    · rw [replaced, entity]
      exact unescapeFrom_reference references (reference?_named references
        (List.cons_ne_nil 'q' ['u', 'o', 't']) (by decide) (by decide) references.quotation) rest
    · rw [replaced, entity]
      exact unescapeFrom_reference references (reference?_apostrophe references) rest

/-- An escaped text is taken back. -/
theorem unescape_escapeAttribute (text : String) :
    unescape references (escapeAttribute text).toList = text.toList := by
  rw [toList_escapeAttribute, unescape]
  induction text.toList with
  | nil => rfl
  | cons c rest ih => rw [List.flatMap_cons, unescapeFrom_replaced, ih]

end ComponentPreview.Markup
