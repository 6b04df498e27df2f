import ComponentPreview.Lifecycle.Message

/-!
# Accepted messages

A raw message is read just if it is an object that names no other session and reports that the
component is ready or that it failed, the latter with a text that is not empty.
-/

namespace ComponentPreview.LifecycleMessage

/-- Whether a value tells of an error: a text, or an object whose message has a text. -/
def TellsError : Json → Prop
  | .str message => message ≠ ""
  | .obj fields =>
      Json.get "message" (.obj fields) ≠ .null ∧ (Json.get "message" (.obj fields)).display ≠ ""
  | _ => False

/-- Whether a raw message is an object that reports one of the two events for a session. -/
structure Reports (raw : Json) (session : String) : Prop where
  isObject : ∃ fields, raw = .obj fields
  isFor : raw.get "sessionId" = .null ∨ raw.get "sessionId" = .str session
  tells : raw.get "type" = .str "Ready" ∨
    raw.get "type" = .str "Error" ∧ TellsError (raw.get "error")

theorem fieldText_of_ne {value : Json} (h : value ≠ .null) :
    fieldText value = some (String.ofList (value.display.toList.take maxFieldLength)) := by
  cases value with
  | null => exact absurd rfl h
  | _ => rfl

theorem isEmpty_take_iff (text : String) :
    (String.ofList (text.toList.take maxFieldLength)).isEmpty = true ↔ text = "" := by
  rw [String.isEmpty_iff, ← String.toList_inj, String.toList_ofList, String.toList_empty,
    List.take_eq_nil_iff, ← String.toList_empty, String.toList_inj]
  exact or_iff_right (Nat.succ_ne_zero 19999)

theorem isSome_readError_iff (fields : Json) :
    (readError fields).isSome = true ↔
      fields.get "message" ≠ .null ∧ (fields.get "message").display ≠ "" := by
  by_cases null : fields.get "message" = .null
  · simp [readError, null, fieldText]
  · rw [readError, fieldText_of_ne null]
    dsimp only
    split
    · next empty => simp [(isEmpty_take_iff _).1 empty]
    · next nonempty => simpa [null] using mt (isEmpty_take_iff _).2 nonempty

theorem isSome_readEvent_iff (raw : Json) :
    (readEvent raw).isSome = true ↔ raw.get "type" = .str "Ready" ∨
      raw.get "type" = .str "Error" ∧ TellsError (raw.get "error") := by
  unfold readEvent
  split
  · next ready => simp [ready]
  · next error =>
      have kind : Json.str "Error" ≠ Json.str "Ready" := by simp
      rw [error, or_iff_right kind, and_iff_right rfl]
      cases raw.get "error" with
      | str message =>
          rw [Option.isSome_map, isSome_readError_iff]
          simp [TellsError, Json.get, Named.get?, Json.display]
      | obj fields => rw [Option.isSome_map, isSome_readError_iff, TellsError]
      | _ => simp [TellsError]
  · next unready unerror =>
      have unready : raw.get "type" ≠ .str "Ready" := unready
      have unerror : raw.get "type" ≠ .str "Error" := unerror
      simp [unready, unerror]

theorem isFor_iff (session : String) (raw : Json) :
    isFor session raw = true ↔
      raw.get "sessionId" = .null ∨ raw.get "sessionId" = .str session := by
  unfold isFor
  cases raw.get "sessionId" <;> simp

/-- A raw message is read just if it reports something for the session. -/
theorem isSome_read?_iff (raw : Json) (session : String) (version : Option Int) :
    (read? raw session version).isSome = true ↔ Reports raw session := by
  have reports_iff (fields : List (String × Json)) : Reports (.obj fields) session ↔
      isFor session (.obj fields) = true ∧ (readEvent (.obj fields)).isSome = true := by
    rw [isFor_iff, isSome_readEvent_iff]
    exact ⟨fun reports => ⟨reports.isFor, reports.tells⟩,
      fun ⟨own, tells⟩ => ⟨⟨fields, rfl⟩, own, tells⟩⟩
  cases raw with
  | obj fields =>
      rw [reports_iff, read?]
      split
      · next own => rw [Option.isSome_map, and_iff_right own]
      · next foreign => simp [foreign]
  | null | bool | int | num | str | arr =>
      constructor
      · exact fun read => nomatch read
      · rintro ⟨⟨_, object⟩, -, -⟩
        cases object

theorem session_of_read? {raw : Json} {session : String} {version : Option Int}
    {message : LifecycleMessage} (h : read? raw session version = some message) :
    message.session = session := by
  unfold read? at h
  split at h
  · split at h
    · obtain ⟨event, -, rfl⟩ := Option.map_eq_some_iff.1 h
      rfl
    · cases h
  · cases h

end ComponentPreview.LifecycleMessage
