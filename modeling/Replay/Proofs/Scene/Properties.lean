import Replay.Scene.Basic

/-!
# Setting properties

What is set is there, under the key that a spelling means, and nothing else changes. The order of the
keys plays no part in this.

* `Properties.get?_set` — what is there after a property has been set
* `Scene.property?_setProperty`, `Scene.get?_setProperty_of_ne` — the same by spellings
-/

set_option autoImplicit false

namespace Replay

namespace Properties

variable {key other : String} (value : Json)

theorem lookup_insert_self (key : String) (entries : List (String × Json)) :
    (insert key value entries).lookup key = some value := by
  induction entries with
  | nil => simp [insert]
  | cons entry rest ih =>
    obtain ⟨k, v⟩ := entry
    unfold insert
    split
    · simp
    · rename_i hne
      split
      · simp
      · have hkey : (key == k) = false := by simpa using hne
        rw [List.lookup_cons, hkey]
        exact ih

theorem lookup_insert_of_ne (ne : other ≠ key) (entries : List (String × Json)) :
    (insert key value entries).lookup other = entries.lookup other := by
  have hother : (other == key) = false := by simpa using ne
  induction entries with
  | nil => simp [insert, List.lookup_cons, hother]
  | cons entry rest ih =>
    obtain ⟨k, v⟩ := entry
    unfold insert
    split
    · rename_i hkey
      subst hkey
      simp [List.lookup_cons, hother]
    · split
      · simp [List.lookup_cons, hother]
      · simp only [List.lookup_cons, ih]

/-- **What is set is there, and nothing else changes.** -/
theorem get?_set (p : Properties) (key other : String) :
    (p.set key value).get? other = if other = key then some value else p.get? other := by
  split
  · rename_i heq
    rw [heq]
    exact lookup_insert_self value key p.entries
  · rename_i hne
    exact lookup_insert_of_ne value hne p.entries

end Properties

namespace Scene

/-- A property that has been set is read by every spelling that means the same key. -/
theorem property?_setProperty (s : Scene) {spelling other : String} (value : Json)
    (same : propertyKey other = propertyKey spelling) :
    (s.setProperty spelling value).property? other = some value := by
  show (s.properties.set (propertyKey spelling) value).get? (propertyKey other) = some value
  rw [Properties.get?_set, if_pos same]

theorem get?_setProperty_of_ne (s : Scene) {spelling key : String} (value : Json)
    (ne : key ≠ propertyKey spelling) :
    (s.setProperty spelling value).properties.get? key = s.properties.get? key := by
  show (s.properties.set (propertyKey spelling) value).get? key = s.properties.get? key
  rw [Properties.get?_set, if_neg ne]

end Scene

end Replay
