import Replay.Instruction
import Replay.Proofs.Json.Denoting

/-!
# Directives that are written and read

The command text of a directive is read as the directive that it was written for: whatever
characters its texts have, whichever of its fields are present, and whether or not its payload has
colons of its own. Of a directive that has been read, all numbers can be written.

* `Directive.ofJson_toJson` — the fields of a directive
* `Directive.payload?_toCommand` — the marker in front of them
* `Directive.ofJson_sound` — what numbers a directive has that has been read
* `Directive.parse_toCommand` — the round trip
-/

set_option autoImplicit false

namespace Replay

open Text Json

/-! ## Members that may be left out -/

namespace Directive

variable {α : Type} {front : List (String × Json)} {name other : String} {value : Option α}
  {write : α → Json}

/-- A member that may be left out does not hide those of other names in front of it. -/
theorem get?_append_ne (h : other ≠ name) :
    (object (front ++ member name value write)).get? other = (object front).get? other := by
  cases value with
  | none => simp [member]
  | some a =>
    have hne : (other == name) = false := by simpa using h
    simp [member, get?, membersLastFirst, List.lookup_cons, hne]

theorem optional_append_ne {β : Type} {read : Json → Option β} (h : other ≠ name) :
    optional (object (front ++ member name value write)) other read =
      optional (object front) other read := by
  unfold optional
  rw [get?_append_ne h]

/-- A member that may be left out is read back if no other one in front of it has its name. -/
theorem optional_append {read : Json → Option α} (fresh : (object front).get? name = none)
    (back : ∀ a, value = some a → (write a).asOption? read = some (some a)) :
    optional (object (front ++ member name value write)) name read = some value := by
  cases value with
  | none =>
    rw [member, List.append_nil, optional, fresh]
  | some a =>
    have hfound : (object (front ++ member name (some a) write)).get? name = some (write a) := by
      simp [member, get?, membersLastFirst]
    rw [optional, hfound]
    exact back a rfl

/-! ## Numbers of a directive -/

/-- The doubles that a directive holds. -/
def floats : Directive → List Binary64
  | wait seconds => [seconds]
  | loop l => l.start.toList ++ l.stop.toList ++ l.step.toList
  | loopEnd | select _ | script _ | awaitRender => []

/-- The integer that a directive holds. -/
def rounds? : Directive → Option Int
  | loop l => l.count
  | wait _ | loopEnd | select _ | script _ | awaitRender => none

/-- The integer that a directive holds has 64 bits with its sign. -/
def Fits (d : Directive) : Prop :=
  ∀ n, d.rounds? = some n → Word.leastInt ≤ n ∧ n ≤ Word.greatestInt

instance (d : Directive) : Decidable d.Fits :=
  match h : d.rounds? with
  | none => isTrue fun n hn => by rw [h] at hn; cases hn
  | some m => decidable_of_iff (Word.leastInt ≤ m ∧ m ≤ Word.greatestInt)
      ⟨fun hm n hn => by rw [h] at hn; cases hn; exact hm, fun hd => hd m h⟩

/-! ## Fields -/

theorem loop?_toJson {l : Loop} (fits : (loop l).Fits) : loop? (toJson (loop l)) = some l := by
  have hstyle : defaulting (toJson (loop l)) "StatementType" "" asText? = some l.style := by
    simp (disch := decide) only [toJson, defaulting, get?_append_ne]
    rfl
  have hcondition : optional (toJson (loop l)) "PyStatement" asText? = some l.condition := by
    simp (disch := decide) only [toJson, optional_append_ne]
    exact optional_append rfl fun _ _ => rfl
  have hstart : optional (toJson (loop l)) "Startnumber" asNumber? = some l.start := by
    simp (disch := decide) only [toJson, optional_append_ne]
    refine optional_append ?_ fun _ _ => rfl
    simp (disch := decide) only [get?_append_ne]
    rfl
  have hstop : optional (toJson (loop l)) "Endnumber" asNumber? = some l.stop := by
    simp (disch := decide) only [toJson, optional_append_ne]
    refine optional_append ?_ fun _ _ => rfl
    simp (disch := decide) only [get?_append_ne]
    rfl
  have hstep : optional (toJson (loop l)) "Stepnumber" asNumber? = some l.step := by
    simp (disch := decide) only [toJson, optional_append_ne]
    refine optional_append ?_ fun _ _ => rfl
    simp (disch := decide) only [get?_append_ne]
    rfl
  have hcount : optional (toJson (loop l)) "RepeatCount" count? = some l.count := by
    simp only [toJson]
    refine optional_append ?_ fun n hn => ?_
    · simp (disch := decide) only [get?_append_ne]
      rfl
    · simp [asOption?, count?, asIntWithin?, fits n hn]
  rw [loop?, hstyle, hcondition, hstart, hstop, hstep, hcount]
  rfl

theorem selection?_toJson (s : Selection) : selection? (toJson (select s)) = some s := by
  have hkeep : defaulting (toJson (select s)) "KeepSelection" false asBool? = some s.keep := by
    simp (disch := decide) only [toJson, defaulting, get?_append_ne]
    rfl
  have hobjects :
      defaulting (toJson (select s)) "Objects" [] (asListOf? asText?) = some s.objects := by
    simp (disch := decide) only [toJson, defaulting, get?_append_ne]
    apply asListOf?_map
    intro name
    rfl
  have hprimary : optional (toJson (select s)) "Object" asText? = some s.primary := by
    simp only [toJson]
    exact optional_append rfl fun _ _ => rfl
  rw [selection?, hkeep, hobjects, hprimary]
  rfl

/-- **The fields of a directive are read back from its JSON form.** -/
theorem ofJson_toJson {d : Directive} (fits : d.Fits) : ofJson (toJson d) = .ok d := by
  cases d with
  | loop l =>
    have htype : (toJson (loop l)).get? "Type" = some (.text "Loop") := by
      simp (disch := decide) only [toJson, get?_append_ne]
      rfl
    have hread : (loop? (toJson (loop l))).map loop = some (loop l) :=
      congrArg (Option.map loop) (loop?_toJson fits)
    simp [ofJson, htype, asText?, reader?, hread]
  | select s =>
    have htype : (toJson (select s)).get? "Type" = some (.text "Select Object") := by
      simp (disch := decide) only [toJson, get?_append_ne]
      rfl
    have hread : (selection? (toJson (select s))).map select = some (select s) :=
      congrArg (Option.map select) (selection?_toJson s)
    simp [ofJson, htype, asText?, reader?, hread]
  | wait seconds => rfl
  | script source => rfl
  | loopEnd => rfl
  | awaitRender => rfl

/-! ## Text -/

theorem forall_member {p : Json → Prop} :
    (∀ m ∈ member name value write, p m.2) ↔ ∀ a, value = some a → p (write a) := by
  cases value with
  | none => simp [member]
  | some a => simp [member]

/-- The JSON form of a directive is as fit as its doubles. -/
theorem toJson_within {fit : Binary64 → Prop} {d : Directive} (fits : d.Fits)
    (hfit : ∀ x ∈ d.floats, fit x) : (toJson d).Within fit := by
  cases d with
  | wait seconds =>
    have hseconds : fit seconds := hfit seconds (List.mem_singleton.mpr rfl)
    simp [toJson, Within, MembersWithin, hseconds]
  | loop l =>
    have hstart : ∀ x, l.start = some x → fit x := fun x hx => hfit x (by simp [floats, hx])
    have hstop : ∀ x, l.stop = some x → fit x := fun x hx => hfit x (by simp [floats, hx])
    have hstep : ∀ x, l.step = some x → fit x := fun x hx => hfit x (by simp [floats, hx])
    have hcount : ∀ n, l.count = some n → Word.leastInt ≤ n ∧ n ≤ Word.greatest := by
      intro n hn
      obtain ⟨hlow, hhigh⟩ := fits n hn
      exact ⟨hlow, Int.le_trans hhigh (by decide)⟩
    apply membersWithin_iff.mpr
    simp only [List.forall_mem_append, forall_member, Within]
    exact ⟨⟨⟨⟨⟨by simp [Within], fun _ _ => trivial⟩, hstart⟩, hstop⟩, hstep⟩, hcount⟩
  | select s =>
    have hobjects : ItemsWithin fit (s.objects.map .text) := by
      apply itemsWithin_map
      intro name
      trivial
    apply membersWithin_iff.mpr
    simp only [List.forall_mem_append, forall_member, Within]
    exact ⟨by simp [Within, hobjects], fun _ _ => trivial⟩
  | script source => simp [toJson, Within, MembersWithin]
  | loopEnd => simp [toJson, Within, MembersWithin]
  | awaitRender => simp [toJson, Within, MembersWithin]

/-- A directive holds no deeper value than a list of texts. -/
theorem toJson_depth (d : Directive) : (toJson d).depth ≤ 2 := by
  have hmembers : ∀ {ms : List (String × Json)}, (∀ m ∈ ms, m.2.depth ≤ 1) →
      (object ms).depth ≤ 2 := fun h => Nat.succ_le_succ (membersDepth_le h)
  cases d with
  | loop l =>
    apply hmembers
    simp only [List.forall_mem_append, forall_member (p := fun j => j.depth ≤ 1)]
    simp [depth]
  | select s =>
    have hobjects : itemsDepth (s.objects.map .text) ≤ 0 := by
      apply itemsDepth_le
      intro j hj
      obtain ⟨name, -, rfl⟩ := List.mem_map.mp hj
      exact Nat.le_refl 0
    apply hmembers
    simp only [List.forall_mem_append, forall_member (p := fun j => j.depth ≤ 1)]
    simp [depth, Nat.le_zero.mp hobjects]
  | wait seconds => exact hmembers (by simp [depth])
  | script source => exact hmembers (by simp [depth])
  | loopEnd => exact hmembers (by simp [depth])
  | awaitRender => exact hmembers (by simp [depth])

/-- **A directive is told by its marker, and its payload is all that stands behind the first
colon.** -/
theorem payload?_toCommand (d : Directive) :
    payload? d.toCommand = some (d.toJson.write .compact 0) := by
  have hcut : ∀ rest, cut? ':' (marker ++ ':' :: rest) = some (marker, rest) := fun rest => rfl
  rw [payload?, toCommand, String.toList_ofList, hcut]
  rfl

/-- The payload of a directive is read back. -/
theorem ofPayload_toJson {d : Directive} (fits : d.Fits) (lasting : ∀ x ∈ d.floats, Lasting x) :
    ofPayload (d.toJson.write .compact 0) = .ok d := by
  have hdocument : document false 128 (d.toJson.write .compact 0) = .ok d.toJson :=
    document_write (toJson_within fits lasting) (Nat.lt_of_le_of_lt (toJson_depth d) (by decide))
  rw [ofPayload, hdocument]
  exact ofJson_toJson fits

/-! ## Directives that have been read -/

/-- A number that is read from a value is finite if the value's doubles are. -/
theorem asNumber?_isFinite {v : Json} {x : Binary64} (h : v.Within Finite)
    (found : v.asNumber? = some x) : x.isFinite = true := by
  cases v with
  | int i =>
    obtain ⟨hlow, hhigh⟩ : Word.leastInt ≤ i ∧ i ≤ Word.greatest := h
    have hx : Binary64.ofInt i = x := Option.some.inj found
    have hleast : -(twoTo 64 : Int) ≤ Word.leastInt := by decide
    have hgreatest : (Word.greatest : Int) ≤ twoTo 64 := by decide
    have hsmall : i.natAbs ≤ twoTo 64 := by omega
    exact hx ▸ Binary64.ofInt_isFinite hsmall
  | float y =>
    have hx : y = x := Option.some.inj found
    exact hx ▸ h
  | null | bool _ | text _ | list _ | object _ | unreadable => cases found

theorem eq_some_of_optional {j : Json} {read : Json → Option α} {a : α}
    (found : optional j name read = some (some a)) :
    ∃ v, j.get? name = some v ∧ read v = some a := by
  unfold optional at found
  cases hv : j.get? name with
  | none => simp [hv] at found
  | some v =>
    simp only [hv] at found
    refine ⟨v, rfl, ?_⟩
    unfold asOption? at found
    split at found
    · simp at found
    · simpa using found

/-- A number that may be left out is finite if the doubles of the object are. -/
theorem optional_isFinite {j : Json} {value : Option Binary64} (h : j.Within Finite)
    (found : optional j name asNumber? = some value) : ∀ x ∈ value.toList, x.isFinite = true := by
  intro x hx
  obtain rfl := Option.mem_toList.mp hx
  obtain ⟨v, hv, hread⟩ := eq_some_of_optional found
  exact asNumber?_isFinite (within_of_get? h hv) hread

theorem loop?_sound {j : Json} {l : Loop} (h : j.Within Finite) (read : loop? j = some l) :
    (loop l).Fits ∧ ∀ x ∈ (loop l).floats, x.isFinite = true := by
  simp only [loop?, Option.bind_eq_bind, Option.bind_eq_some_iff] at read
  obtain ⟨style, -, condition, -, start, hstart, stop, hstop, step, hstep, count, hcount, hl⟩ :=
    read
  obtain rfl := Option.some.inj hl
  refine ⟨fun n hn => ?_, ?_⟩
  · obtain rfl : count = some n := hn
    obtain ⟨v, -, hread⟩ := eq_some_of_optional hcount
    cases v with
    | int i =>
      obtain ⟨hbounds, rfl⟩ : (Word.leastInt ≤ i ∧ i ≤ Word.greatestInt) ∧ i = n := by
        simpa [count?, asIntWithin?] using hread
      exact hbounds
    | null | bool _ | float _ | text _ | list _ | object _ | unreadable => cases hread
  · simp only [floats, List.forall_mem_append]
    exact ⟨⟨optional_isFinite h hstart, optional_isFinite h hstop⟩, optional_isFinite h hstep⟩

/-- What every rule reads has a 64-bit integer and finite doubles. -/
theorem reader?_sound {type : String} {rule : Json → Option Directive} {j : Json} {d : Directive}
    (h : j.Within Finite) (hrule : reader? type = some rule) (read : rule j = some d) :
    d.Fits ∧ ∀ x ∈ d.floats, x.isFinite = true := by
  have hplain : ∀ e : Directive, e.rounds? = none → e.floats = [] →
      e.Fits ∧ ∀ x ∈ e.floats, x.isFinite = true := by
    intro e hrounds hfloats
    refine ⟨fun n hn => ?_, ?_⟩
    · rw [hrounds] at hn
      cases hn
    · simp [hfloats]
  unfold reader? at hrule
  split at hrule
  · obtain rfl := Option.some.inj hrule
    obtain ⟨x, hx, rfl⟩ := Option.map_eq_some_iff.mp read
    obtain ⟨v, hv, hnumber⟩ := Option.bind_eq_some_iff.mp hx
    refine ⟨fun n hn => (by cases hn), fun y hy => ?_⟩
    obtain rfl := List.mem_singleton.mp hy
    exact asNumber?_isFinite (within_of_get? h hv) hnumber
  split at hrule
  · obtain rfl := Option.some.inj hrule
    obtain ⟨l, hl, rfl⟩ := Option.map_eq_some_iff.mp read
    exact loop?_sound h hl
  split at hrule
  · obtain rfl := Option.some.inj hrule
    obtain rfl := Option.some.inj read
    exact hplain loopEnd rfl rfl
  split at hrule
  · obtain rfl := Option.some.inj hrule
    obtain ⟨s, -, rfl⟩ := Option.map_eq_some_iff.mp read
    exact hplain (select s) rfl rfl
  split at hrule
  · obtain rfl := Option.some.inj hrule
    obtain ⟨source, -, rfl⟩ := Option.map_eq_some_iff.mp read
    exact hplain (script source) rfl rfl
  split at hrule
  · obtain rfl := Option.some.inj hrule
    obtain rfl := Option.some.inj read
    exact hplain awaitRender rfl rfl
  · cases hrule

/-- **A directive that has been read can be written**: its integer has 64 bits and its doubles are
finite. -/
theorem ofJson_sound {j : Json} {d : Directive} (h : j.Within Finite) (read : ofJson j = .ok d) :
    d.Fits ∧ ∀ x ∈ d.floats, x.isFinite = true := by
  unfold ofJson at read
  split at read
  · cases read
  · split at read
    · cases read
    · rename_i rule hrule
      split at read
      · rename_i e he
        obtain rfl := Except.ok.inj read
        exact reader?_sound h hrule he
      · cases read

/-- What has been read from a command can be written. -/
theorem parse_sound {text : String} {d : Directive}
    (read : Instruction.parse text = .ok (.directive d)) :
    d.Fits ∧ ∀ x ∈ d.floats, x.isFinite = true := by
  unfold Instruction.parse at read
  cases hpayload : payload? text with
  | none => simp [hpayload] at read
  | some payload =>
    simp only [hpayload] at read
    cases hdocument : document false 128 payload with
    | error fault => cases fault <;> simp [ofPayload, hdocument, Except.map] at read
    | ok j =>
      have hread : ofJson j = .ok d := by
        cases hj : ofJson j with
        | error e => simp [ofPayload, hdocument, hj, Except.map] at read
        | ok e => simpa [ofPayload, hdocument, hj, Except.map] using read
      exact ofJson_sound (document_within hdocument) hread

/-! ## The round trip -/

/-- **A directive survives being written and read.** Of every directive that can be written, whose
integer has 64 bits and whose doubles are finite, the command text is read as the same directive;
and every directive that has been read from a command can be written, so that its own command text
is read as the same directive again. Of each double it is assumed that it is read back from how it
is written. -/
theorem parse_toCommand :
    (∀ d : Directive, d.Fits → (∀ x ∈ d.floats, x.isFinite = true) → (∀ x ∈ d.floats, x.Retained) →
      Instruction.parse d.toCommand = .ok (.directive d)) ∧
    ∀ (text : String) (d : Directive), Instruction.parse text = .ok (.directive d) →
      d.Fits ∧ (∀ x ∈ d.floats, x.isFinite = true) ∧
      ((∀ x ∈ d.floats, x.Retained) → Instruction.parse d.toCommand = .ok (.directive d)) := by
  have hwritten : ∀ d : Directive, d.Fits → (∀ x ∈ d.floats, x.isFinite = true) →
      (∀ x ∈ d.floats, x.Retained) → Instruction.parse d.toCommand = .ok (.directive d) := by
    intro d fits finite retained
    have hpayload : ofPayload (d.toJson.write .compact 0) = .ok d :=
      ofPayload_toJson fits fun x hx => ⟨finite x hx, retained x hx⟩
    simp only [Instruction.parse, payload?_toCommand, hpayload]
    rfl
  refine ⟨hwritten, fun text d read => ?_⟩
  obtain ⟨fits, finite⟩ := parse_sound read
  exact ⟨fits, finite, hwritten d fits finite⟩

/-- Whether a text is read as a given instruction can be computed. -/
instance (r : Except DirectiveError Instruction) (i : Instruction) : Decidable (r = .ok i) :=
  match r with
  | .ok k => decidable_of_iff (k = i) ⟨congrArg Except.ok, Except.ok.inj⟩
  | .error _ => isFalse (by simp)

/-- A loop with all fields; its texts have colons, quotes and control characters. -/
def busyLoop : Directive :=
  .loop ⟨"count:", some "a: \"b\"\n\\\x01", some (.nearest false Binary64.unit 2),
    some (.nearest true Binary64.unit 4), some (.ofInt 10), some (-3)⟩

/-- A pause of two and a half seconds. -/
def pause : Directive := .wait (.nearest false (5 * Binary64.unit) 2)

/-- The loop with all fields is read back, and so is a pause that was written with blanks, a member
that is passed over, and an exponent. -/
theorem busyLoop_survives :
    busyLoop.Fits ∧ (∀ x ∈ busyLoop.floats, x.isFinite = true) ∧
    (∀ x ∈ busyLoop.floats, x.Retained) ∧
    Instruction.parse busyLoop.toCommand = .ok (.directive busyLoop) ∧
    Instruction.parse "ar.event: \x7b\"Type\": \"Timer\", \"Note\": [1], \"Time\": 25e-1\x7d" =
      .ok (.directive pause) ∧
    (∀ x ∈ pause.floats, x.Retained) ∧
    Instruction.parse pause.toCommand = .ok (.directive pause) := by
  have hfits : busyLoop.Fits := by decide +kernel
  have hfinite : ∀ x ∈ busyLoop.floats, x.isFinite = true := by decide +kernel
  have hretained : ∀ x ∈ busyLoop.floats, x.Retained := by decide +kernel
  have hread : Instruction.parse
      "ar.event: \x7b\"Type\": \"Timer\", \"Note\": [1], \"Time\": 25e-1\x7d" =
      .ok (.directive pause) := by decide +kernel
  have hpause : ∀ x ∈ pause.floats, x.Retained := by decide +kernel
  obtain ⟨-, -, hagain⟩ := parse_toCommand.2 _ _ hread
  exact ⟨hfits, hfinite, hretained, parse_toCommand.1 busyLoop hfits hfinite hretained, hread,
    hpause, hagain hpause⟩

end Directive

end Replay
