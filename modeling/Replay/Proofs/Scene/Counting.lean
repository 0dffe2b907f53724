import Mathlib.Algebra.Ring.Int.Defs
import Replay.Scene.Operator
import Replay.Proofs.Number.Integers
import Replay.Proofs.Scene.Operands
import Replay.Proofs.Scene.Properties

/-!
# Counting in properties

An increment adds an amount to a property. What it adds to is looked up under the spelling of the
key as it stands, and the sum is stored under the key that the spelling means: an increment that
does not spell the key as it is stored begins from something else, mostly from nothing.

* `Increment` — a call that counts by an integer
* `Increment.Leads` — the numbers that some increments run through
* `Scene.increments_add` — what one increment leaves, and what some leave one after the other
-/

set_option autoImplicit false

namespace Replay

open Text

/-! ## Amounts -/

/-- A text that writes an integer, with blanks around it. -/
def Literal.IsInteger (text : String) (i : Int) : Prop :=
  ∃ n : Numeral, n.isInteger = true ∧ trim text.toList = n.text ∧
    n.sign.apply (digitsValue n.whole) = i

theorem Literal.value?_integer {text : String} {i : Int} (written : IsInteger text i)
    (range : Word.leastInt ≤ i ∧ i ≤ Word.greatestInt) : value? text = some (.int i) := by
  obtain ⟨n, hinteger, htext, rfl⟩ := written
  have htrue := text_ne_truth n "True" (by decide)
  have hfalse := text_ne_truth n "False" (by decide)
  have hread := n.integer?_text Word.leastInt Word.greatestInt
  rw [if_pos ⟨hinteger, range⟩] at hread
  simp only [value?, htext, if_neg htrue, if_neg hfalse, hread]

/-- A call that counts by an integer: its amount is that, or missing for one. -/
structure Increment where
  call : Call
  /-- The key as it is written. -/
  spelling : String
  amount : Int
  named : call.textArgument? "key" = some spelling
  counted : (call.argument? "amount" = none ∧ amount = 1) ∨
    ∃ text, call.argument? "amount" = some text ∧ Literal.IsInteger text amount
  small : amount.natAbs ≤ twoTo 53

/-! ## Numbers in properties -/

namespace Properties

variable {p : Properties} {key : String}

/-- The number that a property is, and zero if it is missing. -/
def number? (p : Properties) (key : String) : Option Binary64 :=
  match p.get? key with
  | none => some (.ofInt 0)
  | some value => value.asNumber?

/-- The integer that a property is, and zero if it is missing. -/
def integer? (p : Properties) (key : String) : Option Int :=
  match p.get? key with
  | none => some 0
  | some (.int i) => some i
  | some _ => none

theorem number?_of_integer? {i : Int} (h : p.integer? key = some i) :
    p.number? key = some (.ofInt i) := by
  unfold integer? at h
  unfold number?
  split at h
  · rename_i hnone
    cases h
    rw [hnone]
  · rename_i hsome
    cases h
    rw [hsome]
    rfl
  · cases h

theorem integer?_of_get? {i : Int} (h : p.get? key = some (.int i)) : p.integer? key = some i := by
  rw [integer?, h]

theorem integer?_congr {p' : Properties} (h : p'.get? key = p.get? key) :
    p'.integer? key = p.integer? key := by
  rw [integer?, integer?, h]

end Properties

/-- Only an integer is stored as one. -/
theorem Operator.numberValue_eq_int_iff {x : Binary64} {i : Int} :
    numberValue x = .int i ↔ x.IsInteger i ∧ i.natAbs < twoTo 63 := by
  rw [← Binary64.toInt?_eq_some_iff]
  unfold numberValue
  cases hi : x.toInt? with
  | none =>
    cases x.isFinite <;> simp
  | some j =>
    have hfinite : x.isFinite = true := (Binary64.toInt?_eq_some_iff.mp hi).finite
    by_cases hj : j.natAbs < twoTo 63
    · simp only [hfinite, hj]
      constructor
      · rintro ⟨⟩
        exact ⟨rfl, hj⟩
      · rintro ⟨⟨⟩, -⟩
        rfl
    · simp only [hfinite, hj]
      constructor
      · rintro ⟨⟩
      · rintro ⟨⟨⟩, hlarge⟩
        exact absurd hlarge hj

/-! ## One increment -/

namespace Increment

variable {i : Increment} {s : Scene} {key : String} {v : Int}

/-- What an increment does to a scene. -/
def run (i : Increment) (s : Scene) : Except SceneError Unit × Scene := Operator.increment i.call s

theorem amount_eq (i : Increment) : Operator.amount i.call = .ok (.ofInt i.amount) := by
  unfold Operator.amount
  rcases i.counted with ⟨hnone, hone⟩ | ⟨text, htext, hwritten⟩
  · rw [hnone, hone]
  · have hsmall := i.small
    have hpower : twoTo 53 ≤ Word.greatestInt.natAbs := by decide +kernel
    have hrange : Word.leastInt ≤ i.amount ∧ i.amount ≤ Word.greatestInt := by
      have hleast : Word.leastInt ≤ -Word.greatestInt := by decide +kernel
      have hgreatest : 0 ≤ Word.greatestInt := by decide +kernel
      omega
    rw [htext]
    simp only [Literal.value?_integer hwritten hrange, Option.bind_some, Json.asNumber?]

/-- An increment reads under its spelling and stores under the key. -/
theorem run_eq (i : Increment) (s : Scene) : i.run s =
    match s.properties.number? i.spelling with
    | none => (.error (.propertyNotNumber i.spelling), s)
    | some x =>
      (.ok (), s.setProperty i.spelling (Operator.numberValue (x.add (.ofInt i.amount)))) := by
  have hname : Operator.textArgument i.call "key" = .ok i.spelling := by
    rw [Operator.textArgument, i.named]
  simp only [run, Operator.increment, hname, i.amount_eq, Properties.number?]
  cases s.properties.get? i.spelling with
  | none => rfl
  | some value => cases value.asNumber? <;> rfl

/-- **A run leaves an integer in a property**: it succeeds, the property is that integer, and no
other one has changed. -/
structure Leaves (result : Except SceneError Unit × Scene) (s : Scene) (key : String) (v : Int) :
    Prop where
  succeeds : result.1 = .ok ()
  stored : result.2.properties.get? key = some (.int v)
  others : ∀ other, other ≠ key → result.2.properties.get? other = s.properties.get? other

/-- An increment leaves an integer just if it is found by adding to what the spelling finds. -/
theorem run_leaves_iff (means : Scene.propertyKey i.spelling = key) (small : v.natAbs ≤ twoTo 53) :
    Leaves (i.run s) s key v ↔
      ∃ x, s.properties.number? i.spelling = some x ∧ (x.add (.ofInt i.amount)).IsInteger v := by
  subst means
  rw [run_eq]
  cases hx : s.properties.number? i.spelling with
  | none =>
    constructor
    · intro h
      cases h.succeeds
    · rintro ⟨x, ⟨⟩, -⟩
  | some x =>
    have hstored : (s.setProperty i.spelling
        (Operator.numberValue (x.add (.ofInt i.amount)))).properties.get?
          (Scene.propertyKey i.spelling) =
            some (Operator.numberValue (x.add (.ofInt i.amount))) :=
      s.property?_setProperty _ rfl
    have hlarge : twoTo 53 < twoTo 63 := twoTo_lt.mpr (by decide)
    constructor
    · intro h
      have hint := Option.some.inj (hstored.symm.trans h.stored)
      exact ⟨x, rfl, (Operator.numberValue_eq_int_iff.mp hint).1⟩
    · rintro ⟨_, ⟨⟩, hsum⟩
      refine ⟨rfl, hstored.trans (congrArg some ?_), fun other ne => ?_⟩
      · exact Operator.numberValue_eq_int_iff.mpr ⟨hsum, Nat.lt_of_le_of_lt small hlarge⟩
      · exact s.get?_setProperty_of_ne _ ne

/-- Integers are added up exactly, as long as they are small. -/
theorem run_leaves (means : Scene.propertyKey i.spelling = key)
    (found : s.properties.integer? i.spelling = some v) (small : v.natAbs ≤ twoTo 53)
    (small' : (v + i.amount).natAbs ≤ twoTo 53) : Leaves (i.run s) s key (v + i.amount) :=
  (run_leaves_iff means small').mpr ⟨.ofInt v, Properties.number?_of_integer? found,
    (Binary64.ofInt_isInteger small).add (Binary64.ofInt_isInteger i.small) small'⟩

/-! ## Some increments -/

/-- What some increments do to a scene, up to the first that fails. -/
def each : List Increment → Scene → Except SceneError Unit × Scene
  | [], s => (.ok (), s)
  | i :: rest, s =>
    match i.run s with
    | (.error e, s) => (.error e, s)
    | (.ok (), s) => each rest s

/-- What an increment adds to, if the property is at an integer: only an increment that spells the
key as it is stored goes on from there. -/
def from? (i : Increment) (p : Properties) (key : String) (v : Int) : Option Int :=
  if i.spelling = key then some v else p.integer? i.spelling

/-- **The numbers that some increments of a property run through**, from one to another; each of
them is small. -/
inductive Leads (p : Properties) (key : String) : Int → List Increment → Int → Prop
  | none (v : Int) : Leads p key v [] v
  | one {v w total : Int} {i : Increment} {rest : List Increment}
      (means : Scene.propertyKey i.spelling = key) (start : i.from? p key v = some w)
      (small : w.natAbs ≤ twoTo 53) (small' : (w + i.amount).natAbs ≤ twoTo 53)
      (next : Leads p key (w + i.amount) rest total) : Leads p key v (i :: rest) total

/-- **Some increments leave what their numbers run to.** The property may have been at any integer,
and all others are as they were at the beginning. -/
theorem Leads.leaves {p : Properties} {v total : Int} {is : List Increment}
    (leads : Leads p key v is total) :
    ∀ {s : Scene}, s.properties.integer? key = some v →
      (∀ other, other ≠ key → s.properties.get? other = p.get? other) →
        (each is s).1 = .ok () ∧ (each is s).2.properties.integer? key = some total ∧
          (is ≠ [] → (each is s).2.properties.get? key = some (.int total)) ∧
          ∀ other, other ≠ key → (each is s).2.properties.get? other = p.get? other := by
  induction leads with
  | none v => exact fun there others => ⟨rfl, there, fun h => absurd rfl h, others⟩
  | @one v w total i rest means start small small' next ih =>
    intro s there others
    have hfound : s.properties.integer? i.spelling = some w := by
      unfold from? at start
      split at start
      · rename_i hkey
        rw [hkey, there, start]
      · rename_i hkey
        rw [Properties.integer?_congr (others i.spelling hkey), start]
    obtain ⟨hok, hstored, hothers⟩ := run_leaves means hfound small small'
    unfold each
    generalize i.run s = result at hok hstored hothers
    obtain ⟨outcome, s'⟩ := result
    cases hok
    obtain ⟨hok', hinteger, hsome, hothers'⟩ := ih (Properties.integer?_of_get? hstored)
      fun other ne => (hothers other ne).trans (others other ne)
    refine ⟨hok', hinteger, fun _ => ?_, hothers'⟩
    cases rest with
    | nil =>
      cases next
      exact hstored
    | cons _ _ => exact hsome (List.cons_ne_nil _ _)

/-- The sum of the amounts. -/
def sum (is : List Increment) : Int := (is.map amount).sum

/-- Increments that spell the key as it is stored run to the sum. -/
theorem leads_sum {p : Properties} (means : Scene.propertyKey key = key) {is : List Increment}
    (spelled : ∀ i ∈ is, i.spelling = key) :
    ∀ {v : Int}, (∀ k, (v + sum (is.take k)).natAbs ≤ twoTo 53) →
      Leads p key v is (v + sum is) := by
  induction is with
  | nil =>
    intro v _
    have hnone : v + sum [] = v := Int.add_zero v
    rw [hnone]
    exact .none v
  | cons i rest ih =>
    intro v small
    have hkey : i.spelling = key := spelled i List.mem_cons_self
    have hassoc : ∀ is, v + sum (i :: is) = v + i.amount + sum is := fun is => by
      rw [sum, List.map_cons, List.sum_cons, ← Int.add_assoc, sum]
    have hstart : v.natAbs ≤ twoTo 53 := by simpa [sum] using small 0
    have hnext : ∀ k, (v + i.amount + sum (rest.take k)).natAbs ≤ twoTo 53 := fun k => by
      rw [← hassoc]
      exact small (k + 1)
    have hfirst : (v + i.amount).natAbs ≤ twoTo 53 := by simpa [sum] using hnext 0
    have hmeans : Scene.propertyKey i.spelling = key := by rw [hkey, means]
    rw [hassoc]
    exact .one hmeans (if_pos hkey) hstart hfirst
      (ih (fun j hj => spelled j (List.mem_cons_of_mem i hj)) hnext)

end Increment

/-! ## What increments add up to -/

open Increment

/-- **Increments add up to the sum, unless one of them begins from something else.** One increment
adds its amount to the property just if adding it to what is found under the spelling as it stands
comes to the same. Increments that spell the key as it is stored leave the sum of their amounts. In
any case, if integers are found, what is left is the number that they run to. -/
theorem Scene.increments_add (s : Scene) {key : String} {v : Int}
    (there : s.properties.integer? key = some v) :
    (∀ i : Increment, propertyKey i.spelling = key → (v + i.amount).natAbs ≤ twoTo 53 →
      (Leaves (i.run s) s key (v + i.amount) ↔
        ∃ x, s.properties.number? i.spelling = some x ∧
          (x.add (.ofInt i.amount)).IsInteger (v + i.amount))) ∧
    (∀ is, is ≠ [] → (∀ i ∈ is, i.spelling = key ∧ propertyKey i.spelling = key) →
      (∀ k, (v + sum (is.take k)).natAbs ≤ twoTo 53) → Leaves (each is s) s key (v + sum is)) ∧
    ∀ is total, is ≠ [] → Leads s.properties key v is total → Leaves (each is s) s key total := by
  have hleads : ∀ is total, is ≠ [] → Leads s.properties key v is total →
      Leaves (each is s) s key total := fun is total some leads => by
    obtain ⟨hok, -, hstored, hothers⟩ := leads.leaves there fun _ _ => rfl
    exact ⟨hok, hstored some, hothers⟩
  refine ⟨fun i means small => run_leaves_iff means small, fun is some spelled small => ?_, hleads⟩
  obtain ⟨i, hi⟩ := List.exists_mem_of_ne_nil is some
  obtain ⟨rfl, hmeans⟩ := spelled i hi
  exact hleads is _ some (leads_sum hmeans (fun j hj => (spelled j hj).1) small)

/-- A scene that has counted to five. -/
def counted : Scene := { Scene.blank with properties := .ofList [("counter", .int 5)] }

/-- An increment by one. -/
def Increment.byOne : Increment where
  call := ⟨"scene", "increment", "", [("key", "'counter'")]⟩
  spelling := "counter"
  amount := 1
  named := by decide +kernel
  counted := .inl ⟨by decide, rfl⟩
  small := by decide

/-- An increment by minus two. -/
def Increment.byMinusTwo : Increment where
  call := ⟨"scene", "increment", "", [("key", "'counter'"), ("amount", "-2")]⟩
  spelling := "counter"
  amount := -2
  named := by decide +kernel
  counted := .inr ⟨"-2", by decide, ⟨⟨.minus, ['2'], none, none, by decide, by decide, by decide⟩,
    rfl, by decide +kernel, by decide⟩⟩
  small := by decide

/-- An increment by one that spells the key with the path in front of it. -/
def Increment.byPath : Increment where
  call := ⟨"scene", "increment", "", [("key", "'scene.counter'")]⟩
  spelling := "scene.counter"
  amount := 1
  named := by decide +kernel
  counted := .inl ⟨by decide, rfl⟩
  small := by decide

theorem counted_adds : Leaves (each [byOne, byMinusTwo] counted) counted "counter" 4 ∧
    Leaves (each [byPath, byOne, byMinusTwo] counted) counted "counter" 0 := by
  have hthere : counted.properties.integer? "counter" = some 5 := rfl
  have hkey : Scene.propertyKey "counter" = "counter" := by decide +kernel
  have hmeans : Scene.propertyKey "scene.counter" = "counter" := by decide +kernel
  refine ⟨(Scene.increments_add counted hthere).2.1 [byOne, byMinusTwo] (by decide) ?_ ?_,
    (Scene.increments_add counted hthere).2.2 [byPath, byOne, byMinusTwo] 0 (by decide) ?_⟩
  · simp [byOne, byMinusTwo, hkey]
  · have hsum : (5 + sum [byOne, byMinusTwo]).natAbs ≤ twoTo 53 := by decide
    rintro (_ | _ | _ | k)
    · decide
    · decide
    · exact hsum
    · exact hsum
  · refine .one hmeans (w := 0) (by rfl) (by decide) (by decide) ?_
    refine .one hkey (by rfl) (by decide) (by decide) ?_
    exact .one hkey (by rfl) (by decide) (by decide) (.none _)

/-- An increment that spells the key with the path in front of it starts over. -/
theorem byPath_starts_over :
    Command.parse "bpy.ops.scene.increment(key='scene.counter')" = .call byPath.call ∧
      counted.property? byPath.spelling = some (.int 5) ∧
      (byPath.run counted).2.property? byPath.spelling = some (.int 1) := by
  have hmeans : Scene.propertyKey "scene.counter" = "counter" := by decide +kernel
  have hnone : counted.properties.integer? "scene.counter" = some 0 := rfl
  have hleaves : Leaves (byPath.run counted) counted "counter" (0 + byPath.amount) :=
    run_leaves hmeans hnone (by decide) (by decide)
  have hproperty : ∀ s : Scene, s.property? byPath.spelling = s.properties.get? "counter" :=
    fun s => congrArg s.properties.get? hmeans
  rw [hproperty, hproperty]
  exact ⟨by decide +kernel, rfl, hleaves.stored⟩

end Replay
