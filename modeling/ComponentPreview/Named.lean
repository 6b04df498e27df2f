/-!
# Values by name

Each name has at most one value, and names keep the order in which they first came.
-/

namespace ComponentPreview

abbrev Named (α : Type) := List (String × α)

namespace Named

variable {α : Type}

def get? (name : String) (entries : Named α) : Option α :=
  (entries.find? (·.1 == name)).map Prod.snd

def put (name : String) (value : α) : Named α → Named α
  | [] => [(name, value)]
  | (other, old) :: entries =>
      if other == name then (name, value) :: entries else (other, old) :: put name value entries

theorem get?_put_self (name : String) (value : α) (entries : Named α) :
    get? name (put name value entries) = some value := by
  induction entries with
  | nil => simp [put, get?]
  | cons entry entries ih =>
      by_cases same : entry.1 == name
      · simp [put, get?, same]
      · simp only [put, same, Bool.false_eq_true, ↓reduceIte, get?, List.find?_cons]
        simpa [get?] using ih

theorem get?_put_of_ne {name other : String} (different : other ≠ name) (value : α)
    (entries : Named α) : get? other (put name value entries) = get? other entries := by
  induction entries with
  | nil => simp [put, get?, Ne.symm different]
  | cons entry entries ih =>
      obtain ⟨key, old⟩ := entry
      by_cases same : key = name
      · subst same
        simp [put, get?, Ne.symm different]
      · by_cases hit : key = other
        · simp [put, get?, hit, different]
        · simpa [put, get?, same, hit] using ih

end Named

end ComponentPreview
