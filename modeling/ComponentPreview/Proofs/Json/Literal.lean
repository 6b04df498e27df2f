import ComponentPreview.Json.Reader
import ComponentPreview.Proofs.Text.Markup

/-!
# Literals

A literal is written character by character, and inside a script some of its characters give way to
escapes. However a character is spelled, reading takes it back.
-/

namespace ComponentPreview

namespace Json

theorem toList_quote (asciiOnly : Bool) (text : List Char) :
    (quote asciiOnly text).toList =
      '"' :: (text.flatMap fun c => (escapeChar asciiOnly c).toList) ++ ['"'] := by
  have step : ∀ (cs : List Char) (done : String),
      (cs.foldl (fun done c => done ++ escapeChar asciiOnly c) done).toList =
        done.toList ++ cs.flatMap fun c => (escapeChar asciiOnly c).toList := by
    intro cs
    induction cs with
    | nil => simp
    | cons c cs ih =>
        intro done
        rw [List.foldl_cons, ih, List.flatMap_cons, String.toList_append, List.append_assoc]
  rw [quote, String.toList_append, step]
  simp

theorem toList_escapeUnit (unit : Nat) :
    (escapeUnit unit).toList = '\\' :: 'u' ::
      (List.replicate (4 - (Nat.toDigits 16 unit).length) '0' ++ Nat.toDigits 16 unit) := by
  simp [escapeUnit, hexDigits]

/-! ## Code units -/

theorem hexValue?_digitChar {digit : Nat} (h : digit < 16) :
    hexValue? digit.digitChar = some digit := by
  have table : ∀ digit < 16, hexValue? digit.digitChar = some digit := by decide
  exact table digit h

/-- Hexadecimal digits, filled up with zeros to a width. -/
def paddedDigits (width n : Nat) : List Char :=
  List.replicate (width - (Nat.toDigits 16 n).length) '0' ++ Nat.toDigits 16 n

theorem paddedDigits_one {n : Nat} (h : n < 16) : paddedDigits 1 n = [n.digitChar] := by
  simp [paddedDigits, Nat.toDigits_of_lt_base h]

theorem paddedDigits_succ (width n : Nat) :
    paddedDigits (width + 2) n = paddedDigits (width + 1) (n / 16) ++ [(n % 16).digitChar] := by
  by_cases small : n < 16
  · rw [Nat.div_eq_of_lt small, Nat.mod_eq_of_lt small]
    simp [paddedDigits, Nat.toDigits_of_lt_base small, List.replicate_succ']
  · rw [paddedDigits, paddedDigits, Nat.toDigits_of_base_le (by decide) (Nat.le_of_not_lt small)]
    simp

theorem paddedDigits_four {unit : Nat} (h : unit < 65536) :
    paddedDigits 4 unit = [(unit / 4096).digitChar, (unit / 256 % 16).digitChar,
      (unit / 16 % 16).digitChar, (unit % 16).digitChar] := by
  rw [paddedDigits_succ, paddedDigits_succ, paddedDigits_succ,
    paddedDigits_one (by omega : unit / 16 / 16 / 16 < 16)]
  simp [Nat.div_div_eq_div_mul]

theorem unit?_paddedDigits {unit : Nat} (h : unit < 65536) :
    unit? (paddedDigits 4 unit) = some unit := by
  rw [paddedDigits_four h]
  simp only [unit?, hexValue?_digitChar (by omega : unit / 4096 < 16),
    hexValue?_digitChar (Nat.mod_lt _ (by decide) : unit / 256 % 16 < 16),
    hexValue?_digitChar (Nat.mod_lt _ (by decide) : unit / 16 % 16 < 16),
    hexValue?_digitChar (Nat.mod_lt _ (by decide) : unit % 16 < 16)]
  exact congrArg some (by omega)

theorem exists_of_unit? {digits : List Char} {unit : Nat} (h : unit? digits = some unit) :
    ∃ h₁ h₂ h₃ h₄, digits = [h₁, h₂, h₃, h₄] := by
  match digits, h with
  | [h₁, h₂, h₃, h₄], _ => exact ⟨h₁, h₂, h₃, h₄, rfl⟩

/-! ## Spellings -/

/-- What may stand for a character inside a literal. -/
inductive Spells (c : Char) : List Char → Prop
  | plain : c ≠ '"' → c ≠ '\\' → 32 ≤ c.toNat → Spells c [c]
  | short (escaped : Char) : escaped ≠ 'u' → simpleEscape? escaped = some c →
      Spells c ['\\', escaped]
  | unit (digits : List Char) : unit? digits = some c.toNat → Spells c ('\\' :: 'u' :: digits)
  | pair (high low : List Char) : 0x10000 ≤ c.toNat →
      unit? high = some (0xd800 + (c.toNat - 0x10000) / 0x400) →
      unit? low = some (0xdc00 + (c.toNat - 0x10000) % 0x400) →
      Spells c ('\\' :: 'u' :: high ++ '\\' :: 'u' :: low)

theorem spells_escapeUnit {c : Char} (h : c.toNat < 65536) :
    Spells c (escapeUnit c.toNat).toList := by
  rw [toList_escapeUnit]
  exact .unit _ (unit?_paddedDigits h)

theorem toNat_lt (c : Char) : c.toNat < 0x110000 := by
  rcases c.valid with low | ⟨-, high⟩
  · exact Nat.lt_trans low (by decide)
  · exact high

theorem spells_escapeChar (asciiOnly : Bool) (c : Char) :
    Spells c (escapeChar asciiOnly c).toList := by
  have short (escaped : Char) (other : escaped ≠ 'u') (meant : simpleEscape? escaped = some c)
      (written : (escapeChar asciiOnly c).toList = ['\\', escaped]) :
      Spells c (escapeChar asciiOnly c).toList := written ▸ .short escaped other meant
  by_cases quotes : c = '"'
  · exact short '"' (by decide) (by rw [quotes]; rfl) (by simp [escapeChar, quotes])
  by_cases backslash : c = '\\'
  · exact short '\\' (by decide) (by rw [backslash]; rfl) (by simp [escapeChar, backslash])
  by_cases newline : c = '\n'
  · exact short 'n' (by decide) (by rw [newline]; rfl) (by simp [escapeChar, newline])
  by_cases carriage : c = '\r'
  · exact short 'r' (by decide) (by rw [carriage]; rfl) (by simp [escapeChar, carriage])
  by_cases tab : c = '\t'
  · exact short 't' (by decide) (by rw [tab]; rfl) (by simp [escapeChar, tab])
  by_cases backspace : c = '\x08'
  · exact short 'b' (by decide) (by rw [backspace]; rfl) (by simp [escapeChar, backspace])
  by_cases feed : c = '\x0c'
  · exact short 'f' (by decide) (by rw [feed]; rfl) (by simp [escapeChar, feed])
  simp only [escapeChar, quotes, backslash, newline, carriage, tab, backspace, feed, if_false]
  split
  · next control => exact spells_escapeUnit (by omega)
  split
  · next control _ =>
      have written : c.toString.toList = [c] := by simp
      rw [written]
      exact .plain quotes backslash (by omega)
  split
  · next low => exact spells_escapeUnit low
  · next high =>
      have last := toNat_lt c
      rw [String.toList_append, toList_escapeUnit, toList_escapeUnit]
      exact .pair _ _ (by omega) (unit?_paddedDigits (by omega)) (unit?_paddedDigits (by omega))

theorem addUnit_toNat (done : List Char) (c : Char) :
    addUnit none done c.toNat = (none, c :: done) := by
  have whole : isHighSurrogate c.toNat = false ∧ isLowSurrogate c.toNat = false := by
    rcases c.valid with low | ⟨high, -⟩
    · have low : c.toNat < 0xd800 := low
      simp [isHighSurrogate, isLowSurrogate]
      omega
    · have high : 0xdfff < c.toNat := high
      simp [isHighSurrogate, isLowSurrogate]
      omega
  simp [addUnit, whole]

theorem addUnit_pair (done : List Char) {c : Char} (h : 0x10000 ≤ c.toNat) :
    addUnit none done (0xd800 + (c.toNat - 0x10000) / 0x400) =
        (some (0xd800 + (c.toNat - 0x10000) / 0x400), done) ∧
      addUnit (some (0xd800 + (c.toNat - 0x10000) / 0x400)) done
        (0xdc00 + (c.toNat - 0x10000) % 0x400) = (none, c :: done) := by
  have last := toNat_lt c
  have high : isHighSurrogate (0xd800 + (c.toNat - 0x10000) / 0x400) = true := by
    simp [isHighSurrogate]
    omega
  have low : isLowSurrogate (0xdc00 + (c.toNat - 0x10000) % 0x400) = true := by
    simp [isLowSurrogate]
    omega
  have code : 0x10000 + (0xd800 + (c.toNat - 0x10000) / 0x400 - 0xd800) * 0x400 +
      (0xdc00 + (c.toNat - 0x10000) % 0x400 - 0xdc00) = c.toNat := by omega
  refine ⟨by simp [addUnit, high], ?_⟩
  simp only [addUnit, low, if_true, code, Char.ofNat_toNat]

theorem readLiteral_unit (opening : List Char) (high : Option Nat) (done : List Char)
    {digits : List Char} {unit : Nat} (h : unit? digits = some unit) {rest : List Char}
    (more : rest ≠ []) :
    readLiteral opening high done ('\\' :: 'u' :: digits ++ rest) =
      readLiteral opening (addUnit high done unit).1 (addUnit high done unit).2 rest := by
  obtain ⟨h₁, h₂, h₃, h₄, rfl⟩ := exists_of_unit? h
  have more : rest.isEmpty = false := by simpa using more
  rw [List.cons_append, readLiteral.eq_def]
  simp [h, more]

/-- Reading takes back a character, however it is spelled. -/
theorem readLiteral_of_spells (opening done : List Char) {c : Char} {text : List Char}
    (spells : Spells c text) {rest : List Char} (more : rest ≠ []) :
    readLiteral opening none done (text ++ rest) =
      readLiteral opening none (c :: done) rest := by
  cases spells with
  | plain quotes backslash high =>
      rw [List.singleton_append, readLiteral.eq_def]
      simp [quotes, backslash, Nat.not_lt.2 high, settle]
  | short escaped other meant =>
      rw [List.cons_append, List.singleton_append, readLiteral.eq_def]
      simp [other, meant, settle]
  | unit digits code => rw [readLiteral_unit opening none done code more, addUnit_toNat]
  | pair high low large code code' =>
      obtain ⟨first, second⟩ := addUnit_pair done large
      rw [List.append_assoc, readLiteral_unit opening none done code (by simp), first,
        readLiteral_unit opening _ done code' more, second]

end Json

/-! ## Literals inside scripts -/

namespace Markup

/-- What a character of a JSON text gives way to inside a script. -/
def scriptEntity? (c : Char) : Option String :=
  if c = '\u2028' then some "\\u2028"
  else if c = '\u2029' then some "\\u2029"
  else inScript? c

/-- The characters of JSON that a script does not hold raw. -/
def isMarked (c : Char) : Bool :=
  c == '<' || c == '>' || c == '&' || c == '\u2028' || c == '\u2029'

theorem inScript?_cases (c : Char) :
    inScript? c = none ∧ c ≠ '<' ∧ c ≠ '>' ∧ c ≠ '&' ∨
    ∃ digits, inScript? c = some (String.ofList ('\\' :: 'u' :: digits)) ∧ isMarked c = true ∧
      Json.unit? digits = some c.toNat ∧ ∀ d ∈ '\\' :: 'u' :: digits, isMarked d = false := by
  by_cases opening : c = '<'
  · subst opening
    exact .inr ⟨['0', '0', '3', 'c'], rfl, rfl, by decide, by simp [isMarked]⟩
  by_cases closing : c = '>'
  · subst closing
    exact .inr ⟨['0', '0', '3', 'e'], rfl, rfl, by decide, by simp [isMarked]⟩
  by_cases ampersand : c = '&'
  · subst ampersand
    exact .inr ⟨['0', '0', '2', '6'], rfl, rfl, by decide, by simp [isMarked]⟩
  refine .inl ⟨?_, opening, closing, ampersand⟩
  unfold inScript?
  split <;> simp_all

theorem scriptEntity?_cases (c : Char) :
    scriptEntity? c = none ∧ isMarked c = false ∨
    ∃ digits, scriptEntity? c = some (String.ofList ('\\' :: 'u' :: digits)) ∧
      isMarked c = true ∧ Json.unit? digits = some c.toNat ∧
      ∀ d ∈ '\\' :: 'u' :: digits, isMarked d = false := by
  by_cases line : c = '\u2028'
  · subst line
    exact .inr ⟨['2', '0', '2', '8'], rfl, rfl, by decide, by simp [isMarked]⟩
  by_cases paragraph : c = '\u2029'
  · subst paragraph
    exact .inr ⟨['2', '0', '2', '9'], rfl, rfl, by decide, by simp [isMarked]⟩
  rw [scriptEntity?, if_neg line, if_neg paragraph]
  refine (inScript?_cases c).imp_left ?_
  rintro ⟨none, opening, closing, ampersand⟩
  exact ⟨none, by simp [isMarked, line, paragraph, opening, closing, ampersand]⟩

/-- What a text becomes when some of its characters give way to others. -/
def replaced (entity? : Char → Option String) (c : Char) : List Char :=
  match entity? c with
  | some entity => entity.toList
  | none => [c]

/-- Whether what a marked character gives way to spells it, and no other character gives way. -/
def Spelled (entity? : Char → Option String) : Prop :=
  ∀ c, entity? c = none ∨ isMarked c = true ∧ Json.Spells c (replaced entity? c)

variable {entity? : Char → Option String} {c : Char}

theorem replaced_of_none (h : entity? c = none) : replaced entity? c = [c] := by
  rw [replaced, h]

theorem replaced_of_some {entity : List Char} (h : entity? c = some (String.ofList entity)) :
    replaced entity? c = entity := by
  rw [replaced, h]
  exact String.toList_ofList

theorem spelled_none : Spelled fun _ => none :=
  fun _ => .inl rfl

theorem spelled_inScript : Spelled inScript? := by
  intro c
  rcases inScript?_cases c with ⟨none, -⟩ | ⟨digits, some, marked, code, -⟩
  · exact .inl none
  · exact .inr ⟨marked, replaced_of_some some ▸ .unit digits code⟩

theorem spelled_scriptEntity : Spelled scriptEntity? := by
  intro c
  rcases scriptEntity?_cases c with ⟨none, -⟩ | ⟨digits, some, marked, code, -⟩
  · exact .inl none
  · exact .inr ⟨marked, replaced_of_some some ▸ .unit digits code⟩

theorem Spelled.flatMap_replaced (spelled : Spelled entity?) {text : List Char}
    (h : ∀ c ∈ text, isMarked c = false) : text.flatMap (replaced entity?) = text := by
  induction text with
  | nil => rfl
  | cons c rest ih =>
      obtain ⟨first, others⟩ := List.forall_mem_cons.1 h
      have none : entity? c = none := (spelled c).resolve_right (by simp [first])
      rw [List.flatMap_cons, replaced_of_none none, ih others, List.singleton_append]

theorem not_isMarked_of_simpleEscape? {escaped : Char}
    (h : Json.simpleEscape? escaped = some c) : isMarked escaped = false := by
  unfold Json.simpleEscape? at h
  split at h <;> first | rfl | cases h

theorem not_isMarked_of_hexValue? {digit : Char} {value : Nat}
    (h : Json.hexValue? digit = some value) : isMarked digit = false := by
  cases marked : isMarked digit with
  | false => rfl
  | true =>
      simp only [isMarked, Bool.or_eq_true, beq_iff_eq] at marked
      rcases marked with (((rfl | rfl) | rfl) | rfl) | rfl <;> cases h

theorem not_isMarked_of_unit? {digits : List Char} {unit : Nat}
    (h : Json.unit? digits = some unit) : ∀ c ∈ '\\' :: 'u' :: digits, isMarked c = false := by
  obtain ⟨h₁, h₂, h₃, h₄, rfl⟩ := Json.exists_of_unit? h
  simp only [Json.unit?, Option.bind_eq_bind, Option.bind_eq_some_iff] at h
  obtain ⟨_, first, _, second, _, third, _, fourth, -⟩ := h
  simp only [List.forall_mem_cons]
  exact ⟨rfl, rfl, not_isMarked_of_hexValue? first, not_isMarked_of_hexValue? second,
    not_isMarked_of_hexValue? third, not_isMarked_of_hexValue? fourth, by simp⟩

/-- A spelling stays one inside a script. -/
theorem Spelled.spells (spelled : Spelled entity?) {text : List Char}
    (spells : Json.Spells c text) : Json.Spells c (text.flatMap (replaced entity?)) := by
  cases spells with
  | plain quotes backslash high =>
      rw [List.flatMap_singleton]
      rcases spelled c with none | ⟨-, spells⟩
      · rw [replaced_of_none none]
        exact .plain quotes backslash high
      · exact spells
  | short escaped other meant =>
      rw [spelled.flatMap_replaced]
      · exact .short escaped other meant
      · simpa using ⟨rfl, not_isMarked_of_simpleEscape? meant⟩
  | unit digits code =>
      rw [spelled.flatMap_replaced (not_isMarked_of_unit? code)]
      exact .unit digits code
  | pair high low large code code' =>
      rw [List.flatMap_append, spelled.flatMap_replaced (not_isMarked_of_unit? code),
        spelled.flatMap_replaced (not_isMarked_of_unit? code')]
      exact .pair high low large code code'

theorem toList_scriptJson (value : Json) :
    (scriptJson value).toList = (value.print false).toList.flatMap (replaced scriptEntity?) :=
  toList_escapeWith _ _

theorem toList_asciiScriptJson (value : Json) :
    (asciiScriptJson value).toList = (value.print true).toList.flatMap (replaced inScript?) :=
  toList_escapeWith _ _

/-- A JSON value inside a script holds no angle bracket, ampersand or line separator. -/
theorem not_isMarked_of_mem_scriptJson (value : Json) :
    ∀ c ∈ (scriptJson value).toList, isMarked c = false := by
  rw [toList_scriptJson]
  intro c mem
  obtain ⟨d, -, mem⟩ := List.mem_flatMap.1 mem
  rcases scriptEntity?_cases d with ⟨none, plain⟩ | ⟨digits, some, -, -, clean⟩
  · rw [replaced_of_none none, List.mem_singleton] at mem
    rw [mem, plain]
  · rw [replaced_of_some some] at mem
    exact clean c mem

end Markup

end ComponentPreview
