import ComponentPreview.Proofs.Json.Literal
import ComponentPreview.Proofs.Json.Measure
import Mathlib.Data.List.Nodup
import Mathlib.Data.List.TakeWhile

/-!
# Legible values

A value is legible if it holds no fraction, its objects name no field twice, and its whole numbers
are not too long. Whatever is legible is read back from the text that it is written as, in ASCII
alone or not, plainly or inside a script.
-/

namespace ComponentPreview

open Markup

/-- A way of writing JSON. Characters may give way to what spells them inside literals. -/
structure Hand where
  asciiOnly : Bool
  entity? : Char → Option String
  spelled : Spelled entity?

namespace Hand

def plain (asciiOnly : Bool) : Hand :=
  ⟨asciiOnly, fun _ => none, spelled_none⟩

def inScript : Hand :=
  ⟨false, scriptEntity?, spelled_scriptEntity⟩

def inAsciiScript : Hand :=
  ⟨true, inScript?, spelled_inScript⟩

variable (hand : Hand)

def ink (text : String) : List Char :=
  text.toList.flatMap (replaced hand.entity?)

def write (value : Json) : List Char :=
  hand.ink (value.print hand.asciiOnly)

/-- A literal after its opening quote. -/
def body (text : List Char) : List Char :=
  (text.flatMap fun c => hand.ink (Json.escapeChar hand.asciiOnly c)) ++ ['"']

def literal (text : String) : List Char :=
  '"' :: hand.body text.toList

def writeItems (items : List Json) : List Char :=
  hand.ink (Json.printItems hand.asciiOnly items)

def writeFields (fields : List (String × Json)) : List Char :=
  hand.ink (Json.printFields hand.asciiOnly fields)

theorem write_plain (asciiOnly : Bool) (value : Json) :
    (plain asciiOnly).write value = (value.print asciiOnly).toList := by
  rw [write, ink]
  exact List.flatMap_singleton' _

theorem write_inScript (value : Json) : inScript.write value = (scriptJson value).toList :=
  (toList_scriptJson value).symm

theorem write_inAsciiScript (value : Json) :
    inAsciiScript.write value = (asciiScriptJson value).toList :=
  (toList_asciiScriptJson value).symm

/-! ## What is written -/

@[simp] theorem ink_append (first second : String) :
    hand.ink (first ++ second) = hand.ink first ++ hand.ink second := by
  simp [ink]

theorem ink_of_clean {text : String} (h : ∀ c ∈ text.toList, isMarked c = false) :
    hand.ink text = text.toList :=
  hand.spelled.flatMap_replaced h

theorem ink_quote (text : String) :
    hand.ink (Json.quote hand.asciiOnly text.toList) = hand.literal text := by
  have mark : replaced hand.entity? '"' = ['"'] :=
    replaced_of_none ((hand.spelled '"').resolve_right (by simp [isMarked]))
  rw [ink, Json.toList_quote, List.flatMap_append, List.flatMap_cons, mark, List.flatMap_assoc,
    List.flatMap_singleton, mark]
  rfl

theorem write_null : hand.write .null = ['n', 'u', 'l', 'l'] := by
  rw [write, Json.print]
  exact hand.ink_of_clean (by simp [isMarked])

theorem write_bool (value : Bool) :
    hand.write (.bool value) =
      if value then ['t', 'r', 'u', 'e'] else ['f', 'a', 'l', 's', 'e'] := by
  cases value
  · rw [write, Json.print]
    exact hand.ink_of_clean (by simp [isMarked])
  · rw [write, Json.print]
    exact hand.ink_of_clean (by simp [isMarked])

theorem write_str (text : String) : hand.write (.str text) = hand.literal text := by
  rw [write, Json.print, ink_quote]

theorem write_arr (items : List Json) :
    hand.write (.arr items) = '[' :: hand.writeItems items ++ [']'] := by
  have opening : hand.ink "[" = ['['] := hand.ink_of_clean (by simp [isMarked])
  have closing : hand.ink "]" = [']'] := hand.ink_of_clean (by simp [isMarked])
  rw [write, Json.print, ink_append, ink_append, opening, closing]
  rfl

theorem write_obj (fields : List (String × Json)) :
    hand.write (.obj fields) = '\x7b' :: hand.writeFields fields ++ ['\x7d'] := by
  have opening : hand.ink "\x7b" = ['\x7b'] := hand.ink_of_clean (by simp [isMarked])
  have closing : hand.ink "\x7d" = ['\x7d'] := hand.ink_of_clean (by simp [isMarked])
  rw [write, Json.print, ink_append, ink_append, opening, closing]
  rfl

theorem ink_comma : hand.ink ", " = [',', ' '] :=
  hand.ink_of_clean (by simp [isMarked])

theorem writeItems_nil : hand.writeItems [] = [] := by
  rw [writeItems, Json.printItems]
  rfl

theorem writeItems_singleton (item : Json) : hand.writeItems [item] = hand.write item := by
  rw [writeItems, Json.printItems, write]

theorem writeItems_cons (item : Json) {items : List Json} (h : items ≠ []) :
    hand.writeItems (item :: items) = hand.write item ++ ',' :: ' ' :: hand.writeItems items := by
  rw [writeItems, Json.printItems.eq_3 _ _ _ h, ink_append, ink_append, ink_comma, write,
    writeItems]
  simp

theorem writeFields_nil : hand.writeFields [] = [] := by
  rw [writeFields, Json.printFields]
  rfl

theorem writeFields_singleton (name : String) (value : Json) :
    hand.writeFields [(name, value)] = hand.literal name ++ ':' :: ' ' :: hand.write value := by
  have colon : hand.ink ": " = [':', ' '] := hand.ink_of_clean (by simp [isMarked])
  rw [writeFields, Json.printFields, ink_append, ink_append, ink_quote, colon, write]
  simp

theorem writeFields_cons (name : String) (value : Json) {fields : List (String × Json)}
    (h : fields ≠ []) :
    hand.writeFields ((name, value) :: fields) =
      hand.literal name ++ ':' :: ' ' :: (hand.write value ++
        ',' :: ' ' :: hand.writeFields fields) := by
  have colon : hand.ink ": " = [':', ' '] := hand.ink_of_clean (by simp [isMarked])
  rw [writeFields, Json.printFields.eq_3 _ _ _ _ h]
  simp [ink_quote, colon, ink_comma, write, writeFields]

end Hand

namespace Json

/-! ## Whole numbers -/

/-- Whether a number that the text follows has come to its end. -/
def EndsNumber (rest : List Char) : Prop :=
  ∀ c ∈ rest.head?, c.isDigit = false ∧ c ≠ '.' ∧ c ≠ 'e' ∧ c ≠ 'E'

theorem endsNumber_nil : EndsNumber [] := by simp [EndsNumber]

theorem endsNumber_cons {c : Char} {rest : List Char} :
    EndsNumber (c :: rest) ↔ c.isDigit = false ∧ c ≠ '.' ∧ c ≠ 'e' ∧ c ≠ 'E' := by
  simp [EndsNumber]

theorem readFraction_of_endsNumber {rest : List Char} (ends : EndsNumber rest) :
    readFraction rest = ([], rest) := by
  match rest, ends with
  | [], _ => rfl
  | c :: rest, ends =>
      have point : c ≠ '.' := (endsNumber_cons.1 ends).2.1
      unfold readFraction
      split
      · simp_all
      · rfl

theorem readExponent_of_endsNumber {rest : List Char} (ends : EndsNumber rest) :
    readExponent rest = (none, rest) := by
  match rest, ends with
  | [], _ => rfl
  | c :: rest, ends =>
      obtain ⟨-, -, small, large⟩ := endsNumber_cons.1 ends
      simp [readExponent, small, large]

theorem readMagnitude_digits (text : List Char) (negative : Bool) {digits rest : List Char}
    (digit : ∀ c ∈ digits, c.isDigit = true) (some : digits ≠ [])
    (leading : digits.head? = Option.some '0' → digits = ['0'])
    (short : digits.length ≤ maxDigits) (ends : EndsNumber rest) :
    readMagnitude text negative (digits ++ rest) =
      .ok (.int (if negative then -(digitsToNat digits : Int) else digitsToNat digits), rest) := by
  have stop : rest.takeWhile Char.isDigit = [] ∧ rest.dropWhile Char.isDigit = rest := by
    match rest, ends with
    | [], _ => simp
    | c :: rest, ends => simp [(endsNumber_cons.1 ends).1]
  have fraction := readFraction_of_endsNumber ends
  have exponent := readExponent_of_endsNumber ends
  by_cases zero : digits = ['0']
  · subst zero
    simp [readMagnitude, fraction, exponent, maxDigits]
  · have whole : (digits ++ rest).takeWhile Char.isDigit = digits := by
      rw [List.takeWhile_append_of_pos digit, stop.1, List.append_nil]
    have after : (digits ++ rest).dropWhile Char.isDigit = rest := by
      rw [List.dropWhile_append_of_pos digit, stop.2]
    unfold readMagnitude
    split
    · next first =>
        obtain ⟨c, others, rfl⟩ := List.exists_cons_of_ne_nil some
        exact absurd (leading (congrArg Option.some (List.cons.inj first).1)) zero
    · rw [whole, after]
      simp [some, fraction, exponent, Nat.not_lt.2 short]

theorem eq_zero_of_head?_toDigits {n : Nat} (h : (Nat.toDigits 10 n).head? = some '0') :
    n = 0 := by
  induction n using Nat.strong_induction_on with
  | _ n ih =>
      by_cases small : n < 10
      · have table : ∀ n < 10, n.digitChar = '0' → n = 0 := by decide
        rw [Nat.toDigits_of_lt_base small] at h
        exact table n small (Option.some.inj h)
      · rw [Nat.toDigits_of_base_le (by decide) (Nat.le_of_not_lt small),
          List.head?_append_of_ne_nil _ Nat.toDigits_ne_nil] at h
        have := ih (n / 10) (by omega) h
        omega

theorem readMagnitude_toDigits (text : List Char) (negative : Bool) {n : Nat}
    (short : n < 10 ^ maxDigits) {rest : List Char} (ends : EndsNumber rest) :
    readMagnitude text negative (Nat.toDigits 10 n ++ rest) =
      .ok (.int (if negative then -(n : Int) else n), rest) := by
  have value : digitsToNat (Nat.toDigits 10 n) = n :=
    Nat.ofDigitChars_toDigits (by decide) (by decide)
  have leading (h : (Nat.toDigits 10 n).head? = some '0') : Nat.toDigits 10 n = ['0'] := by
    rw [eq_zero_of_head?_toDigits h]
    rfl
  rw [readMagnitude_digits text negative
    (fun c => Nat.isDigit_of_mem_toDigits (by decide) (by decide)) Nat.toDigits_ne_nil leading
    ((Nat.length_toDigits_le_iff (by decide) (by decide)).2 short) ends, value]

theorem readKeyword?_digit {c : Char} (digit : c.isDigit = true) (rest : List Char) :
    readKeyword? (c :: rest) = none ∧ readKeyword? ('-' :: c :: rest) = none := by
  have other : c ≠ 'n' ∧ c ≠ 't' ∧ c ≠ 'f' ∧ c ≠ 'N' ∧ c ≠ 'I' ∧ c ≠ '-' := by
    refine ⟨?_, ?_, ?_, ?_, ?_, ?_⟩ <;> rintro rfl <;> cases digit
  simp [readKeyword?, keywords, other.1.symm, other.2.1.symm,
    other.2.2.1.symm, other.2.2.2.1.symm, other.2.2.2.2.1.symm, other.2.2.2.2.2.symm]

theorem toList_repr (value : Int) :
    value.repr.toList = if 0 ≤ value then Nat.toDigits 10 value.natAbs
      else '-' :: Nat.toDigits 10 value.natAbs := by
  rw [Int.repr_eq_if]
  split
  · next positive => rw [Nat.toList_repr, (by omega : value.toNat = value.natAbs)]
  · next negative =>
      rw [String.toList_append, Nat.toList_repr, (by omega : (-value).toNat = value.natAbs)]
      rfl

theorem isDigit_or_minus_of_mem_repr {value : Int} {c : Char} (mem : c ∈ value.repr.toList) :
    c.isDigit = true ∨ c = '-' := by
  have digit (mem : c ∈ Nat.toDigits 10 value.natAbs) : c.isDigit = true :=
    Nat.isDigit_of_mem_toDigits (by decide) (by decide) mem
  rw [toList_repr] at mem
  split at mem
  · exact .inl (digit mem)
  · exact (List.mem_cons.1 mem).symm.imp_left digit

theorem exists_cons_repr (value : Int) :
    ∃ c rest, value.repr.toList = c :: rest ∧ (c.isDigit = true ∨ c = '-') := by
  have some : value.repr.toList ≠ [] := by
    rw [toList_repr]
    split
    · exact Nat.toDigits_ne_nil
    · exact List.cons_ne_nil _ _
  obtain ⟨c, rest, written⟩ := List.exists_cons_of_ne_nil some
  exact ⟨c, rest, written, isDigit_or_minus_of_mem_repr (written ▸ List.mem_cons_self)⟩

theorem readPlain_repr {value : Int} (short : IsShort value) {rest : List Char}
    (ends : EndsNumber rest) :
    readPlain (value.repr.toList ++ rest) = .ok (.int value, rest) := by
  obtain ⟨c, others, digits⟩ :=
    List.exists_cons_of_ne_nil (Nat.toDigits_ne_nil (n := value.natAbs) (b := 10))
  have digit : c.isDigit = true :=
    Nat.isDigit_of_mem_toDigits (by decide) (by decide) (digits ▸ List.mem_cons_self)
  have magnitude := fun text negative => readMagnitude_toDigits text negative short ends
  have keyword := readKeyword?_digit digit (others ++ rest)
  rw [toList_repr]
  rw [digits, List.cons_append] at magnitude
  split
  · next positive =>
      have minus : c ≠ '-' := by rintro rfl; cases digit
      have size : (value.natAbs : Int) = value := by omega
      rw [digits, List.cons_append]
      unfold readPlain
      rw [keyword.1]
      simp [minus, magnitude, size]
  · next negative =>
      have size : -(value.natAbs : Int) = value := by omega
      rw [digits, List.cons_append, List.cons_append]
      unfold readPlain
      rw [keyword.2]
      simp only [magnitude, if_true, size]

/-! ## Literals -/

variable (hand : Hand)

theorem readLiteral_body (opening done text rest : List Char) :
    readLiteral opening none done (hand.body text ++ rest) = .ok (done.reverse ++ text, rest) := by
  induction text generalizing done with
  | nil =>
      rw [Hand.body, List.flatMap_nil, List.nil_append, List.singleton_append, readLiteral.eq_def]
      simp [settle]
  | cons c text ih =>
      have spells := hand.spelled.spells (spells_escapeChar hand.asciiOnly c)
      have more : hand.body text ++ rest ≠ [] := by simp [Hand.body]
      have unfolded : hand.body (c :: text) = hand.ink (escapeChar hand.asciiOnly c) ++
          hand.body text := by
        simp [Hand.body]
      rw [unfolded, List.append_assoc, Hand.ink, readLiteral_of_spells opening done spells more, ih]
      simp

/-! ## Values -/

/-- Whether a value nested to a depth is read back from what is written. -/
inductive Legible : Nat → Json → Prop
  | null {depth : Nat} : Legible depth .null
  | bool {depth : Nat} (value : Bool) : Legible depth (.bool value)
  | int {depth : Nat} {value : Int} (short : IsShort value) :
      Legible depth (.int value)
  | str {depth : Nat} (text : String) : Legible depth (.str text)
  | arr {depth : Nat} {items : List Json} (each : ∀ item ∈ items, Legible depth item) :
      Legible (depth + 1) (.arr items)
  | obj {depth : Nat} {fields : Named Json} (names : (fields.map Prod.fst).Nodup)
      (each : ∀ field ∈ fields, Legible depth field.2) : Legible (depth + 1) (.obj fields)

variable {depth : Nat}

/-- Neither a gap nor the end of an array. -/
def Starts (text : List Char) : Prop :=
  ∃ c rest, text = c :: rest ∧ isGap c = false ∧ c ≠ ']'

theorem write_int (value : Int) : hand.write (.int value) = value.repr.toList := by
  rw [Hand.write, Json.print]
  refine hand.ink_of_clean fun c mem => ?_
  have mem : c ∈ value.repr.toList := mem
  have start := isDigit_or_minus_of_mem_repr mem
  by_contra marked
  simp only [isMarked, Bool.not_eq_false, Bool.or_eq_true, beq_iff_eq] at marked
  rcases marked with (((rfl | rfl) | rfl) | rfl) | rfl <;> revert start <;> decide

theorem Legible.starts {value : Json} (legible : Legible depth value) :
    Starts (hand.write value) := by
  cases legible with
  | null => exact ⟨_, _, hand.write_null, rfl, by decide⟩
  | bool value =>
      rw [Hand.write_bool]
      cases value
      · exact ⟨_, _, rfl, rfl, by decide⟩
      · exact ⟨_, _, rfl, rfl, by decide⟩
  | @int _ value short =>
      obtain ⟨c, rest, written, start⟩ := exists_cons_repr value
      refine ⟨c, rest, (write_int hand value).trans written, ?_, ?_⟩
      · by_contra gap
        simp only [isGap, Bool.not_eq_false, Bool.or_eq_true, beq_iff_eq] at gap
        rcases gap with ((rfl | rfl) | rfl) | rfl <;> revert start <;> decide
      · rintro rfl
        revert start
        decide
  | str text => exact ⟨_, _, hand.write_str text, rfl, by decide⟩
  | arr each => exact ⟨_, _, hand.write_arr _, rfl, by decide⟩
  | obj names each => exact ⟨_, _, hand.write_obj _, rfl, by decide⟩

theorem readValue_plain {c : Char} (other : c ≠ '"' ∧ c ≠ '[' ∧ c ≠ '\x7b') (fuel : Nat)
    (rest : List Char) : readValue (fuel + 1) depth (c :: rest) = readPlain (c :: rest) := by
  rw [readValue.eq_def]
  simp [other]

theorem readValue_write_int (fuel : Nat) {value : Int} (short : IsShort value)
    {rest : List Char} (ends : EndsNumber rest) :
    readValue (fuel + 1) depth (hand.write (.int value) ++ rest) = .ok (.int value, rest) := by
  obtain ⟨c, others, written, start⟩ := exists_cons_repr value
  have other : c ≠ '"' ∧ c ≠ '[' ∧ c ≠ '\x7b' := by
    refine ⟨?_, ?_, ?_⟩ <;> rintro rfl <;> revert start <;> decide
  rw [← readPlain_repr short ends, write_int, written, List.cons_append,
    readValue_plain other]

theorem readValue_literal (fuel : Nat) (text : String) (rest : List Char) :
    readValue (fuel + 1) depth (hand.literal text ++ rest) = .ok (.str text, rest) := by
  rw [Hand.literal, List.cons_append, readValue, readLiteral_body]
  simp

/-- Whether a value is read back, whatever follows that is not part of a number. -/
def ReadsBack (depth : Nat) (value : Json) : Prop :=
  Starts (hand.write value) ∧ ∀ fuel rest, (hand.write value).length ≤ fuel → EndsNumber rest →
    readValue fuel depth (hand.write value ++ rest) = .ok (value, rest)

theorem skipGap_append {text : List Char} (starts : Starts text) (rest : List Char) :
    skipGap (text ++ rest) = text ++ rest := by
  obtain ⟨c, others, rfl, gap, -⟩ := starts
  simp [skipGap, gap]

theorem skipGap_mark {c : Char} (mark : isGap c = false) (rest : List Char) :
    skipGap (c :: rest) = c :: rest := by
  simp [skipGap, mark]

theorem skipGap_space (rest : List Char) : skipGap (' ' :: rest) = skipGap rest := rfl

variable {hand}

theorem starts_writeItems {items : List Json} (some : items ≠ [])
    (each : ∀ item ∈ items, ReadsBack hand depth item) : Starts (hand.writeItems items) := by
  match items, some with
  | [item], _ =>
      rw [hand.writeItems_singleton]
      exact (each item List.mem_cons_self).1
  | item :: next :: items, _ =>
      obtain ⟨c, rest, written, start⟩ := (each item List.mem_cons_self).1
      rw [hand.writeItems_cons item (List.cons_ne_nil next items), written]
      exact ⟨c, _, rfl, start⟩

theorem readItems_writeItems {items : List Json} (some : items ≠ [])
    (each : ∀ item ∈ items, ReadsBack hand depth item) (done : List Json) {fuel : Nat}
    (enough : (hand.writeItems items).length < fuel) (rest : List Char) :
    readItems fuel depth done (hand.writeItems items ++ ']' :: rest) =
      .ok (.arr (done.reverse ++ items), rest) := by
  induction items generalizing done fuel with
  | nil => exact absurd rfl some
  | cons item items ih =>
      obtain ⟨fuel, rfl⟩ := Nat.exists_eq_add_one_of_ne_zero (Nat.ne_zero_of_lt enough)
      obtain ⟨first, others⟩ := List.forall_mem_cons.1 each
      cases items with
      | nil =>
          rw [hand.writeItems_singleton] at enough ⊢
          rw [readItems, first.2 fuel _ (by omega) (endsNumber_cons.2 (by decide))]
          simp [skipGap, isGap]
      | cons next items =>
          have more := List.cons_ne_nil next items
          rw [hand.writeItems_cons item more] at enough ⊢
          simp only [List.length_append, List.length_cons] at enough
          have gap := skipGap_append (starts_writeItems more others) (']' :: rest)
          rw [List.append_assoc, List.cons_append, List.cons_append, readItems,
            first.2 fuel _ (by omega) (endsNumber_cons.2 (by decide))]
          simp only [skipGap_mark (c := ',') rfl, skipGap_space, gap]
          rw [ih more others (item :: done) (by omega)]
          simp

variable (hand) in
theorem exists_writeFields {fields : Named Json} (some : fields ≠ []) :
    ∃ rest, hand.writeFields fields = '"' :: rest := by
  match fields, some with
  | [(name, value)], _ => exact ⟨_, hand.writeFields_singleton name value⟩
  | (name, value) :: next :: fields, _ =>
      exact ⟨_, hand.writeFields_cons name value (List.cons_ne_nil next fields)⟩

theorem put_of_notMem {name : String} (value : Json) {entries : Named Json}
    (h : name ∉ entries.map Prod.fst) :
    Named.put name value entries = entries ++ [(name, value)] := by
  induction entries with
  | nil => rfl
  | cons entry entries ih =>
      rw [List.map_cons, List.mem_cons, not_or] at h
      rw [Named.put, if_neg (by simpa using Ne.symm h.1), ih h.2, List.cons_append]

theorem readFields_field (name : String) {value : Json} (reads : ReadsBack hand depth value)
    (done : Named Json) {fuel : Nat} (enough : (hand.write value).length ≤ fuel)
    {rest : List Char} (ends : EndsNumber rest) :
    readFields (fuel + 1) depth done
        (hand.literal name ++ ':' :: ' ' :: (hand.write value ++ rest)) =
      match skipGap rest with
      | '\x7d' :: rest => .ok (.obj (Named.put name value done), rest)
      | ',' :: rest => readFields fuel depth (Named.put name value done) (skipGap rest)
      | rest => .error ⟨.comma, rest⟩ := by
  rw [Hand.literal, List.cons_append, readFields, readLiteral_body]
  simp only [skipGap_mark (c := ':') rfl, skipGap_space, skipGap_append reads.1, List.reverse_nil,
    List.nil_append]
  rw [reads.2 fuel rest enough ends, String.ofList_toList] <;> rfl

theorem readFields_writeFields {fields : Named Json} (some : fields ≠ [])
    (each : ∀ field ∈ fields, ReadsBack hand depth field.2) (done : Named Json)
    (names : ((done ++ fields).map Prod.fst).Nodup) {fuel : Nat}
    (enough : (hand.writeFields fields).length < fuel) (rest : List Char) :
    readFields fuel depth done (hand.writeFields fields ++ '\x7d' :: rest) =
      .ok (.obj (done ++ fields), rest) := by
  induction fields generalizing done fuel with
  | nil => exact absurd rfl some
  | cons field fields ih =>
      obtain ⟨name, value⟩ := field
      obtain ⟨fuel, rfl⟩ := Nat.exists_eq_add_one_of_ne_zero (Nat.ne_zero_of_lt enough)
      have first : ReadsBack hand depth value := each (name, value) List.mem_cons_self
      have others : ∀ field ∈ fields, ReadsBack hand depth field.2 :=
        fun field mem => each field (List.mem_cons_of_mem _ mem)
      have fresh : name ∉ done.map Prod.fst := by
        rw [List.map_append, List.map_cons, List.nodup_middle, List.nodup_cons] at names
        exact fun mem => names.1 (List.mem_append_left _ mem)
      cases fields with
      | nil =>
          rw [hand.writeFields_singleton] at enough ⊢
          simp only [List.length_append, List.length_cons] at enough
          rw [List.append_assoc, List.cons_append, List.cons_append,
            readFields_field name first done (by omega) (endsNumber_cons.2 (by decide)),
            put_of_notMem value fresh]
          rfl
      | cons next fields =>
          have more := List.cons_ne_nil next fields
          have gap : skipGap (hand.writeFields (next :: fields) ++ '\x7d' :: rest) =
              hand.writeFields (next :: fields) ++ '\x7d' :: rest := by
            obtain ⟨rest, written⟩ := exists_writeFields hand more
            rw [written]
            rfl
          rw [hand.writeFields_cons name value more] at enough ⊢
          simp only [List.length_append, List.length_cons] at enough
          simp only [List.append_assoc, List.cons_append]
          rw [readFields_field name first done (by omega) (endsNumber_cons.2 (by decide)),
            put_of_notMem value fresh]
          simp only [skipGap_mark (c := ',') rfl, skipGap_space, gap]
          rw [ih more others _ (by simpa using names) (by omega)]
          simp

theorem readValue_write_arr {items : List Json}
    (each : ∀ item ∈ items, ReadsBack hand depth item) {fuel : Nat}
    (enough : (hand.write (.arr items)).length ≤ fuel + 1) (rest : List Char) :
    readValue (fuel + 1) (depth + 1) (hand.write (.arr items) ++ rest) =
      .ok (.arr items, rest) := by
  rw [hand.write_arr] at enough ⊢
  simp only [List.cons_append, List.append_assoc, List.nil_append, List.length_append,
    List.length_cons] at enough ⊢
  rw [readValue]
  by_cases none : items = []
  · rw [none, hand.writeItems_nil]
    rfl
  · have starts := starts_writeItems none each
    have room : (hand.writeItems items).length < fuel := by omega
    have read := readItems_writeItems none each [] room rest
    obtain ⟨c, others, written, -, other⟩ := id starts
    rw [List.reverse_nil, List.nil_append] at read
    rw [skipGap_append starts, ← read, written, List.cons_append]
    split
    · next closing => exact absurd (List.cons.inj closing).1 other
    · rfl

theorem readValue_write_obj {fields : Named Json} (names : (fields.map Prod.fst).Nodup)
    (each : ∀ field ∈ fields, ReadsBack hand depth field.2) {fuel : Nat}
    (enough : (hand.write (.obj fields)).length ≤ fuel + 1) (rest : List Char) :
    readValue (fuel + 1) (depth + 1) (hand.write (.obj fields) ++ rest) =
      .ok (.obj fields, rest) := by
  rw [hand.write_obj] at enough ⊢
  simp only [List.cons_append, List.append_assoc, List.nil_append, List.length_append,
    List.length_cons] at enough ⊢
  rw [readValue]
  by_cases none : fields = []
  · rw [none, hand.writeFields_nil]
    rfl
  · have room : (hand.writeFields fields).length < fuel := by omega
    have read := readFields_writeFields none each [] names room rest
    obtain ⟨others, written⟩ := exists_writeFields hand none
    rw [List.nil_append] at read
    rw [← read, written]
    rfl

theorem Legible.readsBack_of_succ {value : Json} (legible : Legible depth value)
    (reads : ∀ fuel rest, (hand.write value).length ≤ fuel + 1 → EndsNumber rest →
      readValue (fuel + 1) depth (hand.write value ++ rest) = .ok (value, rest)) :
    ReadsBack hand depth value := by
  have starts := legible.starts hand
  refine ⟨starts, fun fuel rest enough ends => ?_⟩
  match fuel with
  | 0 =>
      obtain ⟨c, others, written, -⟩ := starts
      rw [written] at enough
      cases enough
  | fuel + 1 => exact reads fuel rest enough ends

/-- Whatever is legible is read back. -/
theorem Legible.readsBack (hand : Hand) {value : Json} (legible : Legible depth value) :
    ReadsBack hand depth value := by
  induction legible with
  | null =>
      refine Legible.null.readsBack_of_succ fun fuel rest _ _ => ?_
      rw [hand.write_null]
      rfl
  | bool value =>
      refine (Legible.bool value).readsBack_of_succ fun fuel rest _ _ => ?_
      rw [hand.write_bool]
      cases value
      · rfl
      · rfl
  | int short =>
      exact (Legible.int short).readsBack_of_succ fun fuel rest _ ends =>
        readValue_write_int hand fuel short ends
  | str text =>
      refine (Legible.str text).readsBack_of_succ fun fuel rest _ _ => ?_
      rw [hand.write_str, readValue_literal]
  | arr each ih =>
      exact (Legible.arr each).readsBack_of_succ fun fuel rest enough _ =>
        readValue_write_arr ih enough rest
  | obj names each ih =>
      exact (Legible.obj names each).readsBack_of_succ fun fuel rest enough _ =>
        readValue_write_obj names ih enough rest

theorem readText_write (hand : Hand) {value : Json} (legible : Legible maxDepth value) :
    readText (hand.write value) = .ok value := by
  obtain ⟨starts, reads⟩ := legible.readsBack hand
  have gap := skipGap_append starts []
  have read := reads ((hand.write value).length + 2) [] (by omega) endsNumber_nil
  rw [List.append_nil] at gap read
  rw [readText, readTextWithin, gap, read]
  rfl

theorem readText_scriptJson_str (text : String) :
    readText (scriptJson (.str text)).toList = .ok (.str text) := by
  rw [← Hand.write_inScript]
  exact readText_write .inScript (.str text)

end Json

end ComponentPreview
