import Mathlib.Data.List.DropRight
import Replay.Proofs.Watch.Endings

/-!
# When simulated renders are over

A watch that simulates renders notes when the render is over that playback has come to wait for, and
reports it once the clock has got there. It does not drop the note when a render is reported from
outside. So a simulated render is over when its span has passed since a look that found playback
waiting, but by then a report from outside may have ended that wait.

* `Watch.Round` — a look, the rest after it and the waking, `Watch.Rounds` — all rounds so far
* `Watch.Rounds.start_eq`, `Watch.exists_rounds_of_start` — what watches do is such rounds
* `Watch.Rounds.renderEnd_eq` — which moment is noted
* `Watch.Rounds.simulates_iff` — when a simulated render is reported
* `Watch.simulated_after_span` — no report comes early unless one from outside came in between
-/

set_option autoImplicit false

namespace Replay

variable {σ : Type}

/-- Whether playback waits for a render and for nothing else. -/
def Session.awaitsRender (s : Session σ) : Bool := s.isIdle && !s.waits.isEmpty

namespace Watch

/-! ## Rounds -/

/-- A look after which the watch rests, and how it wakes. -/
structure Round (σ : Type) where
  looked : LookReadings
  /-- The watch while it rests. -/
  watch : Watch
  /-- The session while the watch rests. -/
  session : Session σ
  why : Waking
  woken : WakeReadings

namespace Round

/-- Whether playback waits for a render during the rest, and for nothing else. -/
def waits (r : Round σ) : Bool := r.session.awaitsRender

/-- The watch and the session once a signal has been heard and before a simulated render is
reported. -/
def heard (rig : Rig σ) (r : Round σ) : Watch × Session σ :=
  hear rig r.why r.woken r.watch r.session

/-- The watch and the session at the end of the round. -/
def after (rig : Rig σ) (r : Round σ) : Watch × Session σ :=
  wake rig r.why r.woken r.watch r.session

/-- Whether a simulated render is reported in the round: the watch counts a render besides the one
that a signal may have reported. -/
def simulates (rig : Rig σ) (r : Round σ) : Bool :=
  decide ((r.heard rig).1.renders < (r.after rig).1.renders)

end Round

/-- A round at a place of some tidings. -/
def Round.told (t : Tidings) (n : Nat) (w : Watch) (s : Session σ) : Round σ :=
  ⟨t.looks (n + 1), w, s, (t.rests n).1, (t.rests n).2⟩

/-- **The rounds of a watch** from its start on, and the watch and the session that they lead to. -/
inductive Rounds (t : Tidings) (rig : Rig σ) (budget : Nat) (o : WatchOptions) (listening : Bool)
    (s : Session σ) : List (Round σ) → Watch → Session σ → Prop
  | none : Rounds t rig budget o listening s [] (fresh listening) s
  | next {rounds w s' w₁ until' s₁} (earlier : Rounds t rig budget o listening s rounds w s')
      (looked : look rig budget o (t.looks 0).due (t.looks (rounds.length + 1)) w s' =
        .done (.rest w₁ until') s₁) :
      Rounds t rig budget o listening s (rounds ++ [.told t rounds.length w₁ s₁])
        ((Round.told t rounds.length w₁ s₁).after rig).1
        ((Round.told t rounds.length w₁ s₁).after rig).2

variable {t : Tidings} {rig : Rig σ} {budget : Nat} {o : WatchOptions} {listening : Bool}
  {s s' : Session σ} {w : Watch} {rounds : List (Round σ)}

/-- The last of some rounds begins where the others lead. -/
theorem Rounds.of_concat {r : Round σ}
    (run : Rounds t rig budget o listening s (rounds ++ [r]) w s') :
    ∃ w₀ s₀ until', Rounds t rig budget o listening s rounds w₀ s₀ ∧
      look rig budget o (t.looks 0).due r.looked w₀ s₀ = .done (.rest r.watch until') r.session ∧
      s' = (r.after rig).2 := by
  generalize hall : rounds ++ [r] = all at run
  cases run with
  | none => simp at hall
  | next earlier looked =>
    obtain ⟨rfl, hr⟩ := List.append_inj' hall rfl
    obtain rfl := List.singleton_inj.mp hr
    exact ⟨_, _, _, earlier, looked, rfl⟩

/-- What a watch does begins with its rounds. -/
theorem Rounds.start_eq (run : Rounds t rig budget o listening s rounds w s') (looks : Nat) :
    start t.clock rig budget o listening (rounds.length + looks) s ⟨0, 0⟩ =
      keep t.clock rig budget o (t.looks 0).due looks w s' ⟨rounds.length + 1, rounds.length⟩ := by
  induction run generalizing looks with
  | none => rw [List.length_nil, Nat.zero_add]; rfl
  | @next rounds w s' w₁ until' s₁ earlier looked ih =>
    rw [List.length_append, List.length_singleton, Nat.add_assoc, Nat.add_comm 1, ih, keep]
    simp only [bind, StateT.bind, Tidings.clock, looked]
    rfl

theorem Kept.exists_rounds {place place' : Tidings.Place} {w' : Watch} {s'' : Session σ}
    (kept : Kept t rig budget o (t.looks 0).due place w s' place' w' s'')
    (run : Rounds t rig budget o listening s rounds w s')
    (hplace : place = ⟨rounds.length + 1, rounds.length⟩) :
    ∃ rounds w₁ s₁ w₂, Rounds t rig budget o listening s rounds w₁ s₁ ∧
      look rig budget o (t.looks 0).due (t.looks (rounds.length + 1)) w₁ s₁ =
        .done (.finished w₂) s'' ∧
      w' = w₂.settle s'' ∧ place' = ⟨rounds.length + 2, rounds.length⟩ := by
  induction kept generalizing rounds with
  | ended looked =>
    subst hplace
    exact ⟨rounds, _, _, _, run, looked, rfl, rfl⟩
  | rest looked woke _ ih =>
    subst hplace
    have hafter := run.next looked
    rw [Round.after, Round.told] at hafter
    rw [woke] at hafter
    exact ih hafter (by simp)

/-- A watch that comes to its end has gone through rounds until a last look. -/
theorem exists_rounds_of_start {looks : Nat} {place' : Tidings.Place} {w' : Watch} {s'' : Session σ}
    (ended : start t.clock rig budget o listening looks s ⟨0, 0⟩ = (.done w' s'', place')) :
    ∃ rounds w₁ s₁ w₂, Rounds t rig budget o listening s rounds w₁ s₁ ∧
      look rig budget o (t.looks 0).due (t.looks (rounds.length + 1)) w₁ s₁ =
        .done (.finished w₂) s'' ∧
      w' = w₂.settle s'' ∧ place' = ⟨rounds.length + 2, rounds.length⟩ := by
  have kept : Kept t rig budget o (t.looks 0).due ⟨1, 0⟩ (fresh listening) s place' w' s'' :=
    kept_of_keep ended
  exact kept.exists_rounds .none rfl

/-! ## The moment that is noted -/

/-- The rounds after the last one in which a simulated render was reported. -/
def since (rig : Rig σ) (rounds : List (Round σ)) : List (Round σ) :=
  rounds.rtakeWhile fun r => !r.simulates rig

/-- When the simulated render is over that began at the first of some rounds in which playback
waited for one. -/
def overAt (o : WatchOptions) (rounds : List (Round σ)) : Option Time :=
  o.renderSpan.bind fun span =>
    (rounds.find? Round.waits).map fun first => Time.deadline first.looked.armed span

theorem overAt_concat (o : WatchOptions) (rounds : List (Round σ)) (r : Round σ) :
    overAt o (rounds ++ [r]) = (overAt o rounds).or (overAt o [r]) := by
  unfold overAt
  cases o.renderSpan with
  | none => rfl
  | some span => simp [List.find?_append, Option.map_or]

theorem overAt_single (o : WatchOptions) (r : Round σ) :
    overAt o [r] = if r.waits then o.renderSpan.map (Time.deadline r.looked.armed) else none := by
  unfold overAt
  cases o.renderSpan <;> cases hwaits : r.waits <;> simp [hwaits]

theorem arm_renderEnd (w : Watch) (o : WatchOptions) (now : Time) (s : Session σ) :
    (w.arm o now s).renderEnd =
      w.renderEnd.or (if s.isIdle then o.renderSpan.map (Time.deadline now) else none) := by
  unfold arm
  cases s.isIdle <;> cases hnoted : w.renderEnd <;> cases o.renderSpan <;> simp [hnoted]

/-- A look notes the end of a render that begins, if none is noted yet. -/
theorem look_renderEnd {started until' : Time} {r : Round σ}
    (looked : look rig budget o started r.looked w s = .done (.rest r.watch until') r.session) :
    r.watch.renderEnd = w.renderEnd.or (overAt o [r]) := by
  obtain ⟨report, -, ⟨-, hover⟩ | ⟨hleft, ⟨-, hover⟩ | ⟨-, hrest⟩⟩⟩ := look_cases looked
  · cases hover
  · cases hover
  · -- the watch is not over, so a session in which nothing is scheduled has a wait left
    have hwaits : r.waits = r.session.isIdle := by
      unfold isDone at hleft
      unfold Round.waits Session.awaitsRender
      cases hidle : r.session.isIdle with
      | false => rfl
      | true =>
        rw [hidle, Bool.true_and, Bool.or_eq_false_iff] at hleft
        rw [hleft.1]
        rfl
    rw [(Look.rest.inj hrest).1, arm_renderEnd, overAt_single, hwaits]
    rfl

namespace Round

/-- A signal leaves the moment that is noted as it is, even one that ends the wait. -/
theorem heard_renderEnd (rig : Rig σ) (r : Round σ) :
    (r.heard rig).1.renderEnd = r.watch.renderEnd := by
  unfold heard
  cases r.why <;> rfl

theorem after_of_over {r : Round σ} {e : Time} (hnoted : r.watch.renderEnd = some e)
    (hover : e ≤ r.woken.ended) :
    r.after rig =
      report rig r.woken { (r.heard rig).1 with renderEnd := none } (r.heard rig).2 := by
  have hheard := (r.heard_renderEnd rig).trans hnoted
  rw [heard] at hheard
  simp only [after, wake, heard, hheard, hover, if_true]

theorem after_of_not_over {r : Round σ}
    (hnot : ∀ e, r.watch.renderEnd = some e → r.woken.ended < e) : r.after rig = r.heard rig := by
  have hheard := r.heard_renderEnd rig
  rw [heard] at hheard
  cases hnoted : r.watch.renderEnd with
  | none => simp only [after, wake, heard, hheard, hnoted]
  | some e =>
    have hlater : ¬e ≤ r.woken.ended := Nat.not_le.mpr (hnot e hnoted)
    simp only [after, wake, heard, hheard, hnoted, hlater, if_false]

/-- **What a waking can come to.** A simulated render is reported just if it is over by the clock,
and then its end is no longer noted; otherwise only the signal has been heard. -/
theorem after_cases (rig : Rig σ) (r : Round σ) :
    (r.simulates rig = true ∧ (∃ e, r.watch.renderEnd = some e ∧ e ≤ r.woken.ended) ∧
        (r.after rig).1.renderEnd = none) ∨
      (r.simulates rig = false ∧ (∀ e, r.watch.renderEnd = some e → r.woken.ended < e) ∧
        r.after rig = r.heard rig) := by
  by_cases hover : ∃ e, r.watch.renderEnd = some e ∧ e ≤ r.woken.ended
  · obtain ⟨e, hnoted, hover⟩ := hover
    have hafter : r.after rig = _ := after_of_over hnoted hover
    exact .inl ⟨by simp [simulates, hafter, report], ⟨e, hnoted, hover⟩, by rw [hafter]; rfl⟩
  · have hnot : ∀ e, r.watch.renderEnd = some e → r.woken.ended < e := fun e hnoted =>
      Nat.lt_of_not_le fun hle => hover ⟨e, hnoted, hle⟩
    have hafter : r.after rig = r.heard rig := after_of_not_over hnot
    exact .inr ⟨by simp [simulates, hafter], hnot, hafter⟩

end Round

/-- **Which moment is noted** between two rounds. -/
theorem Rounds.renderEnd_eq (run : Rounds t rig budget o listening s rounds w s') :
    w.renderEnd = overAt o (since rig rounds) := by
  induction run with
  | none => cases h : o.renderSpan <;> simp [fresh, overAt, since, h]
  | @next rounds w s' w₁ until' s₁ earlier looked ih =>
    have hnoted := look_renderEnd (r := .told t rounds.length w₁ s₁) looked
    generalize Round.told t rounds.length w₁ s₁ = r at hnoted
    rw [since, List.rtakeWhile_concat, ← since]
    obtain ⟨hsim, -, hafter⟩ | ⟨hsim, -, hafter⟩ := r.after_cases rig
    · rw [hafter, hsim]
      cases h : o.renderSpan <;> simp [overAt, h]
    · rw [hafter, hsim, Bool.not_false, if_pos rfl, overAt_concat, ← ih, ← hnoted]
      exact r.heard_renderEnd rig

/-- Which moment is noted during a rest. -/
theorem Rounds.rest_renderEnd {r : Round σ}
    (run : Rounds t rig budget o listening s (rounds ++ [r]) w s') :
    r.watch.renderEnd = overAt o (since rig rounds ++ [r]) := by
  obtain ⟨w₀, s₀, until', earlier, looked, -⟩ := run.of_concat
  rw [look_renderEnd looked, earlier.renderEnd_eq, ← overAt_concat]

/-! ## Waiting -/

/-- A look at which nothing is due leaves the session as it is. -/
theorem look_of_not_due {started : Time} {readings : LookReadings}
    (hnot : ∀ e ∈ s.timetable.waiting, e.isDue readings.due = false)
    (hleft : w.isDone o s = false) (hlate : isLate o started readings.checked = false) :
    look rig budget o started readings w s =
      let w := Watch.arm { w with looks := w.looks + 1 } o readings.armed s
      .done (.rest w (w.restEnd o readings.rest)) s := by
  have hcount : w.count .quiet = { w with looks := w.looks + 1 } := by
    simp [count, Session.TickReport.quiet]
  have hleft' : Watch.isDone { w with looks := w.looks + 1 } o s = false := hleft
  unfold look
  rw [Session.tick_of_not_due hnot, Run.andThen]
  simp only [hcount, hleft', hlate, Bool.false_eq_true, if_false]

/-- A look leaves playback that waits for a render as it is. -/
theorem look_of_awaitsRender {started until' : Time} {readings : LookReadings} {w₁ : Watch}
    {s₁ : Session σ} (looked : look rig budget o started readings w s = .done (.rest w₁ until') s₁)
    (hawaits : s.awaitsRender = true) : s₁ = s := by
  obtain ⟨report, htick, -⟩ := look_cases looked
  obtain ⟨hidle, -⟩ := (Bool.and_eq_true ..).mp hawaits
  have hnone : s.timetable.waiting = [] := by
    simpa [Session.isIdle, Session.pending, Timetable.count] using hidle
  rw [Session.tick_of_not_due (by simp [hnone])] at htick
  cases htick
  rfl

theorem Round.heard_session (rig : Rig σ) {r : Round σ} (hwhy : r.why ≠ .rendered) :
    (r.heard rig).2 = r.session := by
  unfold heard
  cases h : r.why with
  | rendered => exact absurd h hwhy
  | rested | closed => rfl

/-- So does a waking at which no render is reported. -/
theorem Round.after_session {r : Round σ} (hsim : r.simulates rig = false)
    (hwhy : r.why ≠ .rendered) : (r.after rig).2 = r.session := by
  obtain ⟨hdone, -⟩ | ⟨-, -, hafter⟩ := r.after_cases rig
  · rw [hsim] at hdone
    cases hdone
  · rw [hafter, r.heard_session rig hwhy]

/-- While no render is reported, playback that waits for one goes on waiting. -/
theorem Rounds.keep_waiting {before rest : List (Round σ)} {first : Round σ}
    (run : Rounds t rig budget o listening s (before ++ first :: rest) w s')
    (hwaits : first.waits = true)
    (hquiet : ∀ r ∈ first :: rest, r.simulates rig = false ∧ r.why ≠ .rendered) :
    (∀ r ∈ first :: rest, r.waits = true) ∧ s'.awaitsRender = true := by
  induction rest using List.reverseRecOn generalizing w s' with
  | nil =>
    obtain ⟨-, -, -, -, -, rfl⟩ := run.of_concat
    obtain ⟨hsim, hwhy⟩ := hquiet first List.mem_cons_self
    rw [Round.after_session hsim hwhy]
    exact ⟨List.forall_mem_singleton.mpr hwaits, hwaits⟩
  | append_singleton rest r ih =>
    rw [← List.cons_append, ← List.append_assoc] at run
    obtain ⟨w₀, s₀, until', earlier, looked, rfl⟩ := run.of_concat
    rw [← List.cons_append, List.forall_mem_append, List.forall_mem_singleton] at hquiet
    obtain ⟨hquiet, hsim, hwhy⟩ := hquiet
    obtain ⟨hwaiting, hawaits⟩ := ih earlier hquiet
    have hsession : r.session = s₀ := look_of_awaitsRender looked hawaits
    rw [Round.after_session hsim hwhy, hsession]
    rw [← List.cons_append, List.forall_mem_append, List.forall_mem_singleton, Round.waits,
      hsession]
    exact ⟨⟨hwaiting, hawaits⟩, hawaits⟩

/-- Until the next report of a simulated render, playback that waits for a render goes on waiting if
no report comes from outside. -/
theorem Rounds.last_waits {before quiet rest : List (Round σ)} {first last : Round σ}
    (run : Rounds t rig budget o listening s (before ++ [last]) w s')
    (hsince : since rig before ++ [last] = quiet ++ first :: rest) (hwaits : first.waits = true)
    (hquiet : ∀ r ∈ first :: rest, r.why ≠ .rendered) : ∀ r ∈ first :: rest, r.waits = true := by
  obtain ⟨w₀, s₀, until', earlier, looked, -⟩ := run.of_concat
  obtain rfl | ⟨rest, r, rfl⟩ := rest.eq_nil_or_concat'
  · exact List.forall_mem_singleton.mpr hwaits
  · rw [← List.cons_append, ← List.append_assoc] at hsince
    obtain ⟨hearlier, hr⟩ := List.append_inj' hsince rfl
    obtain rfl := List.singleton_inj.mp hr
    obtain ⟨before', hbefore⟩ : since rig before <:+ before := List.rtakeWhile_suffix _ _
    have hsim : ∀ r ∈ first :: rest, r.simulates rig = false := by
      intro r hr
      have hmem : r ∈ since rig before := by
        rw [hearlier]
        exact List.mem_append_right _ hr
      simpa using List.mem_rtakeWhile_imp hmem
    rw [← hbefore, hearlier, ← List.append_assoc] at earlier
    rw [← List.cons_append, List.forall_mem_append] at hquiet ⊢
    obtain ⟨hwaiting, hawaits⟩ :=
      earlier.keep_waiting hwaits fun r hr => ⟨hsim r hr, hquiet.1 r hr⟩
    refine ⟨hwaiting, List.forall_mem_singleton.mpr ?_⟩
    rw [Round.waits, look_of_awaitsRender looked hawaits]
    exact hawaits

/-! ## Reports of simulated renders -/

/-- **When a simulated render is reported**: as soon as the watch wakes with its span over since the
first look, after the last such report, that found playback waiting for a render. -/
theorem Rounds.simulates_iff {r : Round σ}
    (run : Rounds t rig budget o listening s (rounds ++ [r]) w s') :
    r.simulates rig = true ↔
      ∃ e, overAt o (since rig rounds ++ [r]) = some e ∧ e ≤ r.woken.ended := by
  rw [← run.rest_renderEnd]
  obtain ⟨hsim, hover, -⟩ | ⟨hsim, hnot, -⟩ := r.after_cases rig
  · exact iff_of_true hsim hover
  · refine iff_of_false (by simp [hsim]) ?_
    rintro ⟨e, hnoted, hover⟩
    exact Nat.not_lt.mpr hover (hnot e hnoted)

/-- **A simulated render is reported neither early nor late, and only to playback that waits for it,
unless a report from outside came in between.** Whatever the host, the settings and the options,
whatever is scheduled and waits at first, and whatever the watch is told: a simulated render is
reported in a round just if its span, as far as the clock can show it, has passed by the end of the
round since the first look, of those after the last such report, that found playback waiting for a
render. If no report from outside has been heard from that look on, playback has been waiting
ever since, and a wait is left that the simulated render ends. -/
theorem simulated_after_span {before : List (Round σ)} {r : Round σ}
    (run : Rounds t rig budget o listening s (before ++ [r]) w s') :
    (r.simulates rig = true ↔ ∃ span quiet first rest, o.renderSpan = some span ∧
      since rig before ++ [r] = quiet ++ first :: rest ∧
      (∀ x ∈ quiet, x.waits = false) ∧ first.waits = true ∧
      Time.deadline first.looked.armed span ≤ r.woken.ended) ∧
    ∀ quiet first rest, since rig before ++ [r] = quiet ++ first :: rest → first.waits = true →
      (∀ x ∈ first :: rest, x.why ≠ .rendered) →
      (∀ x ∈ first :: rest, x.waits = true) ∧ (r.heard rig).2.awaitsRender = true := by
  constructor
  · rw [run.simulates_iff]
    unfold overAt
    constructor
    · rintro ⟨e, hover, hended⟩
      obtain ⟨span, hspan, hover⟩ := Option.bind_eq_some_iff.mp hover
      obtain ⟨first, hfirst, rfl⟩ := Option.map_eq_some_iff.mp hover
      obtain ⟨hwaits, quiet, rest, hsince, hquiet⟩ := List.find?_eq_some_iff_append.mp hfirst
      exact ⟨span, quiet, first, rest, hspan, hsince, by simpa using hquiet, hwaits, hended⟩
    · rintro ⟨span, quiet, first, rest, hspan, hsince, hquiet, hwaits, hended⟩
      have hfirst : (since rig before ++ [r]).find? Round.waits = some first :=
        List.find?_eq_some_iff_append.mpr ⟨hwaits, quiet, rest, hsince, by simpa using hquiet⟩
      exact ⟨_, by rw [hspan, hfirst]; rfl, hended⟩
  · intro quiet first rest hsince hwaits hquiet
    have hwaiting := run.last_waits hsince hwaits hquiet
    have hlast : r ∈ first :: rest := by
      have hends := congrArg List.getLast? hsince
      rw [List.getLast?_concat,
        List.getLast?_append_of_ne_nil _ (List.cons_ne_nil first rest)] at hends
      exact List.mem_of_getLast? hends.symm
    rw [r.heard_session rig (hquiet r hlast)]
    exact ⟨hwaiting, hwaiting r hlast⟩

end Watch

/-- A session in which one action waits for a render. -/
def Session.rendering : Session Stage :=
  { Session.rehearsal [Step.recorded "n" "bpy.ops.scene.increment(key=\"n\")"] with
    waits := [⟨.locals, "a", "n"⟩] }

/-- Looks five nanoseconds apart, and a report at the first rest or none at all. -/
def Tidings.reporting (early : Bool) : Tidings where
  looks k := ⟨5 * k, 5 * k, 5 * k, 5 * k, fun _ => 5 * k⟩
  rests k := (if early && k == 0 then .rendered else .rested, ⟨fun _ => 5 * k + 10, 5 * k + 10⟩)

/-- Simulated renders of ten nanoseconds. -/
def WatchOptions.simulating : WatchOptions := { WatchOptions.usual with renderSpan := some 10 }

namespace Watch

/-- The round after a look at which nothing is due. -/
def Round.resting (t : Tidings) (n : Nat) (w : Watch) (s : Session Stage) : Round Stage :=
  .told t n (Watch.arm { w with looks := w.looks + 1 } .simulating (t.looks (n + 1)).armed s) s

/-- The round in which the simulated render begins. -/
def Round.begun (early : Bool) : Round Stage :=
  .resting (.reporting early) 0 (fresh true) .rendering

/-- The round in which it is over. -/
def Round.ending (early : Bool) : Round Stage :=
  .resting (.reporting early) 1 ((begun early).after .rehearsal).1
    ((begun early).after .rehearsal).2

theorem reporting_rounds (early : Bool) :
    Rounds (.reporting early) .rehearsal 10 .simulating true .rendering
      ([.begun early] ++ [.ending early]) ((Round.ending early).after .rehearsal).1
      ((Round.ending early).after .rehearsal).2 := by
  have hbegun : Rounds (.reporting early) .rehearsal 10 .simulating true .rendering [.begun early]
      ((Round.begun early).after .rehearsal).1 ((Round.begun early).after .rehearsal).2 :=
    .next .none (look_of_not_due nofun rfl rfl)
  refine .next hbegun (look_of_not_due ?_ ?_ rfl)
  · cases early <;> decide +kernel
  · cases early <;> decide +kernel

/-- Without a report from outside the simulated render is over after ten nanoseconds, and ends the
wait. -/
theorem simulated_alone :
    (∃ w s', Rounds (.reporting false) .rehearsal 10 .simulating true .rendering
      ([.begun false] ++ [.ending false]) w s') ∧
    (Round.ending false).simulates .rehearsal = true ∧
    ((Round.ending false).heard .rehearsal).2.awaitsRender = true := by
  obtain ⟨hiff, hwaiting⟩ := simulated_after_span (reporting_rounds false)
  have hsince : since .rehearsal [.begun false] ++ [.ending false] =
      [] ++ Round.begun false :: [.ending false] := rfl
  have hwaits : (Round.begun false).waits = true := by decide +kernel
  have hended :
      Time.deadline (Round.begun false).looked.armed 10 ≤ (Round.ending false).woken.ended := by
    decide +kernel
  have hquiet : ∀ x ∈ Round.begun false :: [.ending false], x.why ≠ .rendered := by decide +kernel
  exact ⟨⟨_, _, reporting_rounds false⟩,
    hiff.mpr ⟨10, [], _, _, rfl, hsince, List.forall_mem_nil _, hwaits, hended⟩,
    (hwaiting _ _ _ hsince hwaits hquiet).2⟩

/-- **After an early report from outside the simulated render ends no wait**: it is reported although
nothing waits for a render any more. -/
theorem simulated_unawaited :
    (∃ w s', Rounds (.reporting true) .rehearsal 10 .simulating true .rendering
      ([.begun true] ++ [.ending true]) w s') ∧
    (Round.ending true).simulates .rehearsal = true ∧
    ((Round.ending true).heard .rehearsal).2.waits = [] :=
  ⟨⟨_, _, reporting_rounds true⟩, by decide +kernel, by decide +kernel⟩

end Watch

end Replay
