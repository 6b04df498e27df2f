import ComponentPreview.Proofs.Json.Legible
import ComponentPreview.Proofs.Lifecycle.Message

/-!
# Relayed messages

A message that was read is read again from its own encoding: its texts are cut already, and what
was dropped from it is not written. So it passes any number of hops, each of which writes it as JSON
and reads that, unless one of its whole numbers is too long for JSON.
-/

namespace ComponentPreview

namespace RenderError

def texts (error : RenderError) : List String :=
  error.message ::
    (error.stack.toList ++ error.componentStack.toList ++ error.filename.toList)

def numbers (error : RenderError) : List Int :=
  error.line.toList ++ error.column.toList

theorem forall_mem_texts {error : RenderError} {p : String → Prop} :
    (∀ text ∈ error.texts, p text) ↔
      p error.message ∧ (∀ text ∈ error.stack, p text) ∧ (∀ text ∈ error.componentStack, p text) ∧
        ∀ text ∈ error.filename, p text := by
  simp only [texts, List.forall_mem_cons, List.forall_mem_append, Option.mem_toList, Option.mem_def,
    and_assoc]

theorem forall_mem_numbers {error : RenderError} {p : Int → Prop} :
    (∀ n ∈ error.numbers, p n) ↔ (∀ n ∈ error.line, p n) ∧ ∀ n ∈ error.column, p n := by
  simp only [numbers, List.forall_mem_append, Option.mem_toList, Option.mem_def]

end RenderError

namespace LifecycleEvent

def texts : LifecycleEvent → List String
  | .ready componentName timestamp => componentName.toList ++ timestamp.toList
  | .error fault => fault.texts

def numbers : LifecycleEvent → List Int
  | .ready _ _ => []
  | .error fault => fault.numbers

theorem forall_mem_texts_ready {componentName timestamp : Option String} {p : String → Prop} :
    (∀ text ∈ (ready componentName timestamp).texts, p text) ↔
      (∀ text ∈ componentName, p text) ∧ ∀ text ∈ timestamp, p text := by
  simp only [texts, List.forall_mem_append, Option.mem_toList, Option.mem_def]

end LifecycleEvent

namespace LifecycleMessage

variable {session : String} {version : Option Int} {message : LifecycleMessage}

/-- Whether the texts of an event keep within the limit, and that of an error is not empty. -/
structure IsSound (event : LifecycleEvent) : Prop where
  short : ∀ text ∈ event.texts, text.length ≤ maxFieldLength
  tells : ∀ error, event = .error error → error.message ≠ ""

/-- Whether JSON can carry the whole numbers of a message. -/
def IsMeasured (message : LifecycleMessage) : Prop :=
  ∀ n ∈ message.version.toList ++ message.event.numbers, Json.IsShort n

theorem isMeasured_iff : message.IsMeasured ↔
    (∀ n ∈ message.version, Json.IsShort n) ∧ ∀ n ∈ message.event.numbers, Json.IsShort n := by
  simp only [IsMeasured, List.forall_mem_append, Option.mem_toList, Option.mem_def]

/-- Whether a version may stand in for that of a message. -/
def Suits (message : LifecycleMessage) (version : Option Int) : Prop :=
  message.version.isSome = true ∨ version = message.version

/-! ## What is read -/

theorem length_of_fieldText {value : Json} {text : String} (h : fieldText value = some text) :
    text.length ≤ maxFieldLength := by
  have null : value ≠ .null := by rintro rfl; cases h
  rw [fieldText_of_ne null] at h
  cases h
  rw [String.length_ofList]
  exact List.length_take_le _ _

theorem fieldText_str {text : String} (h : text.length ≤ maxFieldLength) :
    fieldText (.str text) = some text := by
  rw [fieldText_of_ne (by simp)]
  simp only [Json.display]
  rw [List.take_of_length_le h, String.ofList_toList]

theorem fieldText_ofOption {text : Option String} (h : ∀ t ∈ text, t.length ≤ maxFieldLength) :
    fieldText (.ofOption .str text) = text := by
  cases text with
  | none => rfl
  | some text => exact fieldText_str (h text rfl)

@[simp] theorem int?_ofOption (value : Option Int) : (Json.ofOption .int value).int? = value := by
  cases value <;> rfl

/-- How an error is read from its fields. -/
structure ReadsError (fields : Json) (error : RenderError) : Prop where
  message : fieldText (fields.get "message") = some error.message
  tells : error.message ≠ ""
  stack : fieldText (fields.get "stack") = error.stack
  componentStack : fieldText (fields.get "componentStack") = error.componentStack
  filename : fieldText (fields.get "filename") = error.filename
  line : (fields.get "lineno").int? = error.line
  column : (fields.get "colno").int? = error.column

theorem readError_iff {fields : Json} {error : RenderError} :
    readError fields = some error ↔ ReadsError fields error := by
  constructor
  · intro h
    unfold readError at h
    split at h
    · cases h
    · next message read =>
        split at h
        · cases h
        · next tells =>
            cases h
            exact ⟨read, by simpa using tells, rfl, rfl, rfl, rfl, rfl⟩
  · intro h
    obtain ⟨text, stack, componentStack, filename, line, column⟩ := error
    obtain ⟨message, tells, rfl, rfl, rfl, rfl, rfl⟩ := h
    simp_all [readError]

theorem ReadsError.isSound {fields : Json} {error : RenderError} (h : ReadsError fields error) :
    IsSound (.error error) where
  short := RenderError.forall_mem_texts.2 ⟨length_of_fieldText h.message,
    fun _ some => length_of_fieldText (h.stack.trans some),
    fun _ some => length_of_fieldText (h.componentStack.trans some),
    fun _ some => length_of_fieldText (h.filename.trans some)⟩
  tells := by
    rintro _ ⟨⟩
    exact h.tells

theorem readEvent_cases {raw : Json} {event : LifecycleEvent} (h : readEvent raw = some event) :
    event = .ready (fieldText (raw.get "componentName")) (fieldText (raw.get "timestamp")) ∨
    ∃ fields error, event = .error error ∧ ReadsError fields error ∧
      (fields = raw.get "error" ∨ ∃ text, fields = .obj [("message", .str text)]) := by
  unfold readEvent at h
  split at h
  · exact .inl (Option.some.inj h).symm
  · split at h
    · obtain ⟨error, read, rfl⟩ := Option.map_eq_some_iff.1 h
      exact .inr ⟨_, error, rfl, readError_iff.1 read, .inr ⟨_, rfl⟩⟩
    · next carried =>
        obtain ⟨error, read, rfl⟩ := Option.map_eq_some_iff.1 h
        exact .inr ⟨_, error, rfl, readError_iff.1 read, .inl carried.symm⟩
    · cases h
  · cases h

theorem isSound_of_readEvent {raw : Json} {event : LifecycleEvent}
    (h : readEvent raw = some event) : IsSound event := by
  obtain rfl | ⟨fields, error, rfl, reads, -⟩ := readEvent_cases h
  · refine ⟨?_, fun _ error => nomatch error⟩
    exact LifecycleEvent.forall_mem_texts_ready.2
      ⟨fun _ some => length_of_fieldText some, fun _ some => length_of_fieldText some⟩
  · exact reads.isSound

theorem parts_of_read? {raw : Json} (h : read? raw session version = some message) :
    readEvent raw = some message.event ∧
      message.version = ((raw.get "version").int?).or version := by
  unfold read? at h
  split at h
  · split at h
    · obtain ⟨event, read, rfl⟩ := Option.map_eq_some_iff.1 h
      exact ⟨read, rfl⟩
    · cases h
  · cases h

/-! ## What is written -/

@[simp] theorem get?_nil (name : String) : Named.get? name ([] : Named Json) = none := rfl

@[simp] theorem get?_cons (other name : String) (value : Json) (rest : Named Json) :
    Named.get? other ((name, value) :: rest) =
      if name = other then some value else Named.get? other rest := by
  by_cases same : name = other <;> simp [Named.get?, same]

section OptionalField

variable {α : Type} (other name : String) (encode : α → Json) (value : Option α)

@[simp] theorem get?_optionalField_append (rest : Named Json) :
    Named.get? other (optionalField name encode value ++ rest) =
      if name = other then (value.map encode).or (Named.get? other rest)
      else Named.get? other rest := by
  cases value with
  | none => simp [optionalField]
  | some value => exact (get?_cons other name (encode value) rest).trans (by split <;> rfl)

@[simp] theorem get?_optionalField : Named.get? other (optionalField name encode value) =
    if name = other then value.map encode else none := by
  rw [← List.append_nil (optionalField name encode value), get?_optionalField_append, get?_nil,
    Option.or_none]

@[simp] theorem getD_map_null : (value.map encode).getD .null = .ofOption encode value := by
  cases value <;> rfl

end OptionalField

theorem readError_encodeError {error : RenderError} (sound : IsSound (.error error)) :
    readError (encodeError error) = some error := by
  obtain ⟨message, stack, componentStack, filename⟩ := RenderError.forall_mem_texts.1 sound.short
  refine readError_iff.2 ⟨?_, sound.tells error rfl, ?_, ?_, ?_, ?_, ?_⟩
  · exact fieldText_str message
  · simp [encodeError, Json.get, fieldText_ofOption stack]
  · simp [encodeError, Json.get, fieldText_ofOption componentStack]
  · simp [encodeError, Json.get, fieldText_ofOption filename]
  · simp [encodeError, Json.get]
  · simp [encodeError, Json.get]

theorem get_encode (message : LifecycleMessage) :
    message.encode.get "sessionId" = .str message.session ∧
      message.encode.get "version" = .ofOption .int message.version := by
  obtain ⟨session, version, event | error⟩ := message
  · simp [encode, Json.get]
  · simp [encode, Json.get]

theorem readEvent_encode (sound : IsSound message.event) :
    readEvent message.encode = some message.event := by
  obtain ⟨session, version, ⟨componentName, timestamp⟩ | error⟩ := message
  · obtain ⟨name, time⟩ := LifecycleEvent.forall_mem_texts_ready.1 sound.short
    simp [readEvent, encode, Json.get, fieldText_ofOption name, fieldText_ofOption time]
  · have read := readError_encodeError sound
    obtain ⟨fields, object⟩ : ∃ fields, encodeError error = .obj fields := ⟨_, rfl⟩
    rw [object] at read
    simp [readEvent, encode, Json.get, object, read]

/-- An encoded message is read as it was, for a version that may stand in for its own. -/
theorem read?_encode (sound : IsSound message.event) (suits : message.Suits version) :
    read? message.encode message.session version = some message := by
  obtain ⟨carried, number⟩ := get_encode message
  have own : isFor message.session message.encode = true := by
    rw [isFor_iff]
    exact .inr carried
  have object : ∃ fields, message.encode = .obj fields := by
    unfold encode
    split
    · exact ⟨_, rfl⟩
    · exact ⟨_, rfl⟩
  have same : message.version.or version = message.version := by
    rcases suits with some | rfl
    · obtain ⟨n, some⟩ := Option.isSome_iff_exists.1 some
      rw [some, Option.some_or]
    · exact Option.or_self
  obtain ⟨fields, object⟩ := object
  have event := readEvent_encode sound
  rw [object] at own number event ⊢
  simp only [read?, own, event, number, if_true, Option.map_some, int?_ofOption, same]

/-! ## Writing it as JSON -/

theorem names_optionalField {α : Type} (name : String) (encode : α → Json) (value : Option α)
    {fields : Named Json} {names : List String} (h : (fields.map Prod.fst).Sublist names) :
    ((fields ++ optionalField name encode value).map Prod.fst).Sublist (names ++ [name]) := by
  rw [List.map_append]
  refine h.append ?_
  cases value
  · exact List.nil_sublist _
  · exact .refl _

theorem legible_optionalField {α : Type} {name : String} {encode : α → Json} {value : Option α}
    {depth : Nat} (legible : ∀ a ∈ value, Json.Legible depth (encode a)) :
    ∀ field ∈ optionalField name encode value, Json.Legible depth field.2 := by
  cases value with
  | none => simp [optionalField]
  | some value => simpa [optionalField] using legible value rfl

theorem legible_encodeError {error : RenderError} (short : ∀ n ∈ error.numbers, Json.IsShort n)
    (depth : Nat) : Json.Legible (depth + 1) (encodeError error) := by
  obtain ⟨line, column⟩ := RenderError.forall_mem_numbers.1 short
  refine .obj ?_ ?_
  · refine List.Sublist.nodup (names_optionalField _ _ _ (names_optionalField _ _ _
      (names_optionalField _ _ _ (names_optionalField _ _ _ (names_optionalField _ _ _
        (.refl ["message"])))))) (by decide)
  · simp only [List.forall_mem_append, List.forall_mem_singleton]
    exact ⟨⟨⟨⟨⟨.str _, legible_optionalField fun _ _ => .str _⟩,
      legible_optionalField fun _ _ => .str _⟩, legible_optionalField fun _ _ => .str _⟩,
      legible_optionalField fun n mem => .int (line n mem)⟩,
      legible_optionalField fun n mem => .int (column n mem)⟩

theorem legible_ofOption (text : Option String) (depth : Nat) :
    Json.Legible depth (.ofOption .str text) := by
  cases text
  · exact .null
  · exact .str _

theorem legible_fields (type session : String) (short : ∀ n ∈ version, Json.IsShort n)
    {fields : Named Json} {depth : Nat} (each : ∀ field ∈ fields, Json.Legible depth field.2)
    (names : (["type", "sessionId", "version"] ++ fields.map Prod.fst).Nodup) :
    Json.Legible (depth + 1) (.obj ([("type", .str type), ("sessionId", .str session)] ++
      optionalField "version" .int version ++ fields)) := by
  refine .obj ?_ ?_
  · have front := names_optionalField "version" .int version
      (.refl ([("type", .str type), ("sessionId", .str session)].map Prod.fst))
    rw [List.map_append]
    exact (front.append (.refl _)).nodup names
  · simp only [List.forall_mem_append, List.forall_mem_cons]
    exact ⟨⟨⟨.str _, .str _, by simp⟩, legible_optionalField fun n mem => .int (short n mem)⟩, each⟩

theorem legible_encode (measured : message.IsMeasured) :
    Json.Legible Json.maxDepth message.encode := by
  obtain ⟨own, numbers⟩ := isMeasured_iff.1 measured
  obtain ⟨session, version, ⟨componentName, timestamp⟩ | error⟩ := message
  · refine legible_fields "Ready" session own ?_ (by simp)
    simp only [List.forall_mem_cons]
    exact ⟨legible_ofOption _ _, legible_ofOption _ _, by simp⟩
  · refine legible_fields "Error" session own ?_ (by simp)
    simp only [List.forall_mem_cons]
    exact ⟨legible_encodeError numbers _, by simp⟩

theorem IsMeasured.ofEncode (measured : message.encode.IsMeasured) : message.IsMeasured := by
  have own : ∀ n ∈ message.version, Json.IsShort n := fun n some =>
    (measured.get "version").isShort (by rw [(get_encode message).2, int?_ofOption]; exact some)
  refine isMeasured_iff.2 ⟨own, ?_⟩
  obtain ⟨session, version, ⟨componentName, timestamp⟩ | error⟩ := message
  · simp [LifecycleEvent.numbers]
  · have carried : (encode ⟨session, version, .error error⟩).get "error" = encodeError error := by
      simp [encode, Json.get]
    have measured := carried ▸ measured.get "error"
    refine RenderError.forall_mem_numbers.2 ⟨fun n some => (measured.get "lineno").isShort ?_,
      fun n some => (measured.get "colno").isShort ?_⟩
    · simpa [encodeError, Json.get] using some
    · simpa [encodeError, Json.get] using some

/-- JSON carries a message just if it can carry its whole numbers. -/
theorem readText_encode_iff (message : LifecycleMessage) (asciiOnly : Bool) :
    Json.readText (message.encode.print asciiOnly).toList = .ok message.encode ↔
      message.IsMeasured := by
  constructor
  · exact fun read => .ofEncode (Json.isMeasured_of_readText read)
  · intro measured
    rw [← Hand.write_plain]
    exact Json.readText_write _ (legible_encode measured)

theorem isMeasured_of_read? {raw : Json} (h : read? raw session version = some message)
    (measured : raw.IsMeasured) (short : ∀ n ∈ version, Json.IsShort n) : message.IsMeasured := by
  obtain ⟨read, number⟩ := parts_of_read? h
  refine isMeasured_iff.2 ⟨?_, ?_⟩
  · intro n some
    rw [number, Option.mem_def, Option.or_eq_some_iff] at some
    obtain own | ⟨-, own⟩ := some
    · exact (measured.get "version").isShort own
    · exact short n own
  · obtain event | ⟨fields, error, event, reads, source⟩ := readEvent_cases read
    · simp [event, LifecycleEvent.numbers]
    · have measured : fields.IsMeasured := by
        rcases source with rfl | ⟨text, rfl⟩
        · exact measured.get "error"
        · exact .obj (by simpa using .str text)
      rw [event]
      exact RenderError.forall_mem_numbers.2
        ⟨fun n some => (measured.get "lineno").isShort (reads.line.trans some),
          fun n some => (measured.get "colno").isShort (reads.column.trans some)⟩

/-! ## Hops -/

/-- A hop of a relay: how its sender writes JSON, and the version its receiver fills in. -/
structure Hop where
  asciiOnly : Bool
  version : Option Int

/-- What the receiver of a hop makes of the text that its sender wrote. -/
def hop? (session : String) (message : LifecycleMessage) (hop : Hop) : Option LifecycleMessage :=
  match Json.readText (message.encode.print hop.asciiOnly).toList with
  | .ok raw => read? raw session hop.version
  | .error _ => none

def relay? (session : String) (message : LifecycleMessage) (hops : List Hop) :
    Option LifecycleMessage :=
  hops.foldlM (hop? session) message

theorem hop?_eq_self (sound : IsSound message.event) (measured : message.IsMeasured) {hop : Hop}
    (suits : message.Suits hop.version) : hop? message.session message hop = some message := by
  rw [hop?, (readText_encode_iff message hop.asciiOnly).2 measured]
  exact read?_encode sound suits

theorem relay?_eq_self (sound : IsSound message.event) (measured : message.IsMeasured)
    {hops : List Hop} (suits : ∀ hop ∈ hops, message.Suits hop.version) :
    relay? message.session message hops = some message := by
  induction hops with
  | nil => rfl
  | cons hop hops ih =>
      obtain ⟨first, others⟩ := List.forall_mem_cons.1 suits
      rw [relay?, List.foldlM_cons, hop?_eq_self sound measured first]
      exact ih others

/-- A message that was read is of the session, keeps its limits, and is read again from its own
encoding, for its own version or, if it has one, for any. JSON carries the encoding just if no
whole number of it is too long, and none is if the message came from a text. Then no number of hops
changes the message. -/
theorem survives_relaying {raw : Json} {session : String} {version : Option Int}
    {message : LifecycleMessage} (h : read? raw session version = some message) :
    message.session = session ∧
      (∀ text ∈ message.event.texts, text.length ≤ maxFieldLength) ∧
      (∀ error, message.event = .error error → error.message ≠ "") ∧
      (∀ other, message.Suits other → read? message.encode session other = some message) ∧
      (∀ asciiOnly, Json.readText (message.encode.print asciiOnly).toList = .ok message.encode ↔
        message.IsMeasured) ∧
      ((∃ text, Json.readText text = .ok raw) → (∀ n ∈ version, Json.IsShort n) →
        message.IsMeasured) ∧
      (message.IsMeasured → ∀ hops : List Hop, (∀ hop ∈ hops, message.Suits hop.version) →
        relay? session message hops = some message) := by
  have sound := isSound_of_readEvent (parts_of_read? h).1
  obtain rfl := session_of_read? h
  refine ⟨rfl, sound.short, sound.tells, fun other suits => read?_encode sound suits,
    readText_encode_iff message, ?_, fun measured hops suits => relay?_eq_self sound measured suits⟩
  rintro ⟨text, read⟩ short
  exact isMeasured_of_read? h (Json.isMeasured_of_readText read) short

theorem told_error_survives_relaying :
    read? (.obj [("type", .str "Error"), ("error", .str "boom"), ("version", .int 4)]) "s" none =
        some ⟨"s", some 4, .error ⟨"boom", none, none, none, none, none⟩⟩ ∧
      relay? "s" ⟨"s", some 4, .error ⟨"boom", none, none, none, none, none⟩⟩
          [⟨true, some 7⟩, ⟨false, none⟩] =
        some ⟨"s", some 4, .error ⟨"boom", none, none, none, none, none⟩⟩ := by
  have read : read? (.obj [("type", .str "Error"), ("error", .str "boom"), ("version", .int 4)])
      "s" none = some ⟨"s", some 4, .error ⟨"boom", none, none, none, none, none⟩⟩ := by rfl
  obtain ⟨-, -, -, -, -, -, relayed⟩ := survives_relaying read
  refine ⟨read, relayed ?_ _ ?_⟩
  · simp only [IsMeasured]
    intro n mem
    obtain rfl : n = 4 := by simpa [LifecycleEvent.numbers, RenderError.numbers] using mem
    exact (by decide : 4 < 10).trans_le (Nat.le_self_pow (by decide) 10)
  · exact fun hop _ => .inl rfl

end LifecycleMessage

end ComponentPreview
