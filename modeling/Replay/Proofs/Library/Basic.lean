import Replay.Library.Basic

/-!
# Changes of a library

An action is changed where it is found: the first item that bears the id is, and the others stay as
they are.

* `find?_of_mem` — what is found by a key that tells items apart
* `find?_modifyFirst` — what is found after a change
* `filter_modifyFirst` — a change, and some items left out
* `Library.action?_modifyAction`, `Library.modifyAction_modifyAction` — the same for actions
-/

set_option autoImplicit false

namespace Replay

/-! ## The first item that passes a test -/

section ModifyFirst

variable {α : Type} {p q : α → Bool} {f g : α → α} {l : List α}

/-- What is found by a key that tells the items apart. -/
theorem find?_of_mem {κ : Type} [BEq κ] [LawfulBEq κ] {key : α → κ} {a : α}
    (distinct : (l.map key).Nodup) (h : a ∈ l) : l.find? (fun b => key b == key a) = some a := by
  induction l with
  | nil => cases h
  | cons x rest ih =>
    obtain ⟨hfresh, hrest⟩ := List.nodup_cons.mp distinct
    rcases List.mem_cons.mp h with rfl | hmem
    · exact List.find?_cons_of_pos (by simp)
    · have hne : key x ≠ key a := fun heq => hfresh (heq ▸ List.mem_map_of_mem hmem)
      rw [List.find?_cons_of_neg (by simpa using hne), ih hrest hmem]

/-- What is found after a change of the first item that passes a test. -/
theorem find?_modifyFirst (keeps : ∀ a, p a = true → p (f a) = true) :
    (modifyFirst p f l).find? p = (l.find? p).map f := by
  induction l with
  | nil => rfl
  | cons x rest ih =>
    cases hx : p x with
    | true => simp [modifyFirst, hx, keeps x hx]
    | false => simp [modifyFirst, hx, ih]

/-- Changing the first item that passes a test twice is changing it once. -/
theorem modifyFirst_modifyFirst (keeps : ∀ a, p a = true → p (f a) = true) :
    modifyFirst p g (modifyFirst p f l) = modifyFirst p (fun a => g (f a)) l := by
  induction l with
  | nil => rfl
  | cons x rest ih =>
    cases hx : p x with
    | true => simp [modifyFirst, hx, keeps x hx]
    | false => simp [modifyFirst, hx, ih]

theorem modifyFirst_congr (h : ∀ a, l.find? p = some a → f a = g a) :
    modifyFirst p f l = modifyFirst p g l := by
  induction l with
  | nil => rfl
  | cons x rest ih =>
    unfold modifyFirst
    cases hx : p x with
    | true => simp [h x (List.find?_cons_of_pos hx)]
    | false =>
      have hrest := ih fun a ha => h a (by rw [List.find?_cons_of_neg (by simp [hx])]; exact ha)
      simp [hrest]

/-- A change of the first item that passes a test can be made after a filter that lets it pass. -/
theorem filter_modifyFirst (first : ∀ a, l.find? p = some a → q a = true)
    (same : ∀ a, q (f a) = q a) :
    (modifyFirst p f l).filter q = modifyFirst p f (l.filter q) := by
  induction l with
  | nil => rfl
  | cons x rest ih =>
    cases hx : p x with
    | true =>
      have hq := first x (List.find?_cons_of_pos hx)
      simp [modifyFirst, hx, same, hq]
    | false =>
      have hrest := ih fun a ha => first a (by rw [List.find?_cons_of_neg (by simp [hx])]; exact ha)
      cases hq : q x <;> simp [modifyFirst, hx, hq, hrest]

/-- What a change leaves of every item, it leaves of all of them. -/
theorem map_modifyFirst {β : Type} {read : α → β} (same : ∀ a, read (f a) = read a) :
    (modifyFirst p f l).map read = l.map read := by
  induction l with
  | nil => rfl
  | cons x rest ih => cases hx : p x <;> simp [modifyFirst, hx, same, ih]

theorem modifyFirst_of_none (none : ∀ a ∈ l, p a = false) : modifyFirst p f l = l := by
  induction l with
  | nil => rfl
  | cons y rest ih =>
    obtain ⟨hy, hrest⟩ := List.forall_mem_cons.mp none
    simp [modifyFirst, hy, ih hrest]

/-- If a key tells the items apart, the first one of a key is the only one. -/
theorem modifyFirst_eq_map {κ : Type} [BEq κ] [LawfulBEq κ] {key : α → κ} {k : κ}
    (distinct : (l.map key).Nodup) :
    modifyFirst (fun a => key a == k) f l = l.map fun a => if key a == k then f a else a := by
  induction l with
  | nil => rfl
  | cons x rest ih =>
    obtain ⟨hfresh, hrest⟩ := List.nodup_cons.mp distinct
    by_cases hx : key x = k
    · have hothers : (rest.map fun a => if key a == k then f a else a) = rest := by
        refine (List.map_congr_left fun a ha => ?_).trans (List.map_id _)
        have hne : key a ≠ k := fun heq => hfresh (hx.trans heq.symm ▸ List.mem_map_of_mem ha)
        simp [hne]
      simp [modifyFirst, hx, hothers]
    · simp [modifyFirst, hx, ih hrest]

end ModifyFirst

/-! ## Actions -/

namespace Library

variable {l : Library} {c : Collection} {id : String} {action : Action}

theorem id_of_action? (found : l.action? c id = some action) : action.id = id := by
  simpa using List.find?_some found

@[simp] theorem actions_withActions (l : Library) (c : Collection) (as : List Action) :
    (l.withActions c as).actions c = as := by
  cases c <;> rfl

@[simp] theorem withActions_withActions (l : Library) (c : Collection) (as bs : List Action) :
    (l.withActions c as).withActions c bs = l.withActions c bs := by
  cases c <;> rfl

/-- What is found after an action has been changed. -/
theorem action?_modifyAction (f : Action → Action) (keeps : ∀ a, (f a).id = a.id) :
    (l.modifyAction c id f).action? c id = (l.action? c id).map f := by
  unfold action? modifyAction
  rw [actions_withActions]
  exact find?_modifyFirst fun a ha => by rw [keeps a]; exact ha

/-- Changing an action twice is changing it once. -/
theorem modifyAction_modifyAction (f g : Action → Action) (keeps : ∀ a, (f a).id = a.id) :
    (l.modifyAction c id f).modifyAction c id g = l.modifyAction c id fun a => g (f a) := by
  unfold modifyAction
  rw [actions_withActions, withActions_withActions,
    modifyFirst_modifyFirst fun a ha => by rw [keeps a]; exact ha]

end Library

end Replay
