import Replay.Proofs.Playback.Chronicle
import Replay.Watch.Basic

/-!
# What a watch leaves behind

A watch is told what the clock reads and why it woke, look after look and rest after rest; all of it
may be anything. Whatever it is told, a look and a waking account for what they do with the entries
of the timetable, and a watch that is not given up ends only when there is nothing left for it to do.

* `Tidings` — what a watch is told, `Watch.Kept` — a watch that comes to its end
* `Watch.look_cases` — what a look can come to
* `Watch.Balances` — looks and wakings account for what has been scheduled
* `Watch.left_behind` — how a watch ends, whatever it is told
-/

set_option autoImplicit false

namespace Replay

variable {σ : Type}

/-! ## What a watch is told -/

/-- All that a watch is told: what the clock reads at one look after the other, and why the watch
woke and what the clock read then, at one rest after the other. -/
structure Tidings where
  looks : Nat → LookReadings
  rests : Nat → Waking × WakeReadings

namespace Tidings

/-- How much of some tidings has been told. -/
structure Place where
  looks : Nat
  rests : Nat

/-- The clock that tells some tidings, whatever a watch is waiting for. -/
def clock (t : Tidings) : Clock (StateM Place) where
  read := fun place => (t.looks place.looks, { place with looks := place.looks + 1 })
  rest := fun _ _ place => (t.rests place.rests, { place with rests := place.rests + 1 })

/-- At some rest between two places it is heard that no render will be reported any more. -/
def Closes (t : Tidings) (start stop : Nat) : Prop :=
  ∃ k, start ≤ k ∧ k < stop ∧ (t.rests k).1 = .closed

theorem closes_step {t : Tidings} {start stop : Nat} (h : start < stop) :
    t.Closes start stop ↔ (t.rests start).1 = .closed ∨ t.Closes (start + 1) stop := by
  constructor
  · rintro ⟨k, hstart, hstop, hcloses⟩
    rcases Nat.eq_or_lt_of_le hstart with rfl | hlater
    · exact .inl hcloses
    · exact .inr ⟨k, hlater, hstop, hcloses⟩
  · rintro (hcloses | ⟨k, hstart, hstop, hcloses⟩)
    · exact ⟨start, Nat.le_refl _, h, hcloses⟩
    · exact ⟨k, Nat.le_of_succ_le hstart, hstop, hcloses⟩

end Tidings

/-! ## Watches that come to their end -/

/-- The watch after a look. -/
def Look.watch : Look → Watch
  | .finished w | .rest w _ => w

namespace Watch

/-- **A watch that comes to its end**, by what it is told from one place of some tidings to another. -/
inductive Kept (t : Tidings) (rig : Rig σ) (budget : Nat) (o : WatchOptions) (started : Time) :
    Tidings.Place → Watch → Session σ → Tidings.Place → Watch → Session σ → Prop
  | ended {place w s w' s'}
      (looked : look rig budget o started (t.looks place.looks) w s = .done (.finished w') s') :
      Kept t rig budget o started place w s
        { place with looks := place.looks + 1 } (w'.settle s') s'
  | rest {place w s w₁ until' s₁ w₂ s₂ place' w' s'}
      (looked : look rig budget o started (t.looks place.looks) w s = .done (.rest w₁ until') s₁)
      (woke : wake rig (t.rests place.rests).1 (t.rests place.rests).2 w₁ s₁ = (w₂, s₂))
      (later : Kept t rig budget o started ⟨place.looks + 1, place.rests + 1⟩ w₂ s₂ place' w' s') :
      Kept t rig budget o started place w s place' w' s'

variable {t : Tidings} {rig : Rig σ} {budget : Nat} {o : WatchOptions} {started : Time}

theorem kept_of_keep {place' : Tidings.Place} {w' : Watch} {s' : Session σ} :
    ∀ {looks : Nat} {place : Tidings.Place} {w : Watch} {s : Session σ},
      keep t.clock rig budget o started looks w s place = (.done w' s', place') →
        Kept t rig budget o started place w s place' w' s' := by
  intro looks
  induction looks with
  | zero =>
    intro place w s h
    cases h
  | succ looks ih =>
    intro place w s h
    unfold keep at h
    simp only [bind, StateT.bind, Tidings.clock] at h
    generalize hlook : look rig budget o started (t.looks place.looks) w s = looked at h
    rcases looked with ⟨_ | _, s₁⟩ | _ | _
    · cases h
      exact .ended hlook
    · exact .rest hlook rfl (ih h)
    · cases h
    · cases h

/-! ## One look -/

section Look

variable {readings : LookReadings} {w : Watch} {s s' : Session σ} {l : Look}

/-- **What a look can come to.** What is due is done; then the watch is over since nothing is left to
do, or it is given up, or it rests. -/
theorem look_cases (h : look rig budget o started readings w s = .done l s') :
    ∃ report, s.tick { rig with clock := readings.entries } budget readings.due = .done report s' ∧
      (((w.count report).isDone o s' = true ∧ l = .finished (w.count report)) ∨
        ((w.count report).isDone o s' = false ∧
          ((isLate o started readings.checked = true ∧
              l = .finished { (w.count report).arm o readings.armed s' with timedOut := true }) ∨
            (isLate o started readings.checked = false ∧
              l = .rest ((w.count report).arm o readings.armed s')
                (((w.count report).arm o readings.armed s').restEnd o readings.rest))))) := by
  unfold look at h
  obtain ⟨report, s₁, htick, h⟩ := Run.of_andThen_done h
  dsimp only at h
  split at h
  · cases h
    exact ⟨report, htick, .inl ⟨‹_›, rfl⟩⟩
  · rename_i hleft
    rw [Bool.not_eq_true] at hleft
    split at h
    · cases h
      exact ⟨report, htick, .inr ⟨hleft, .inl ⟨‹_›, rfl⟩⟩⟩
    · rename_i hlate
      rw [Bool.not_eq_true] at hlate
      cases h
      exact ⟨report, htick, .inr ⟨hleft, .inr ⟨hlate, rfl⟩⟩⟩

/-- When a simulated render begins, nothing changes but its end. -/
theorem arm_eq (w : Watch) (o : WatchOptions) (now : Time) (s : Session σ) :
    ∃ renderEnd, w.arm o now s = { w with renderEnd := renderEnd } := by
  unfold arm
  split
  · exact ⟨_, rfl⟩
  · exact ⟨w.renderEnd, rfl⟩

/-- A look counts what it has done. -/
theorem look_counts (h : look rig budget o started readings w s = .done l s') :
    ∃ report, s.tick { rig with clock := readings.entries } budget readings.due = .done report s' ∧
      l.watch.resumed = w.resumed + report.resumed ∧
      l.watch.skipped = w.skipped + report.skipped ∧ l.watch.listening = w.listening := by
  obtain ⟨report, htick, hcases⟩ := look_cases h
  obtain ⟨renderEnd, harm⟩ := (w.count report).arm_eq o readings.armed s'
  refine ⟨report, htick, ?_⟩
  rcases hcases with ⟨-, rfl⟩ | ⟨-, ⟨-, rfl⟩ | ⟨-, rfl⟩⟩
  · exact ⟨rfl, rfl, rfl⟩
  · rw [harm]
    exact ⟨rfl, rfl, rfl⟩
  · rw [harm]
    exact ⟨rfl, rfl, rfl⟩

/-- **A watch that is over without having been given up has nothing left to do.** -/
theorem isDone_of_finished {w' : Watch}
    (h : look rig budget o started readings w s = .done (.finished w') s')
    (inTime : w'.timedOut = false) : w'.isDone o s' = true := by
  obtain ⟨report, -, ⟨hdone, hover⟩ | ⟨-, ⟨-, hover⟩ | ⟨-, hrest⟩⟩⟩ := look_cases h
  · cases hover
    exact hdone
  · cases hover
    cases inTime
  · cases hrest

end Look

/-! ## Accounts -/

/-- **Nothing is lost** between two moments of a watch: what it has resumed and dropped by the later
one, and what is scheduled then, is what there was at the earlier one, and what has been scheduled
since. -/
structure Balances (w : Watch) (s : Session σ) (w' : Watch) (s' : Session σ) : Prop where
  issued : s.timetable.issued ≤ s'.timetable.issued
  total : w'.resumed + w'.skipped + s'.pending =
    w.resumed + w.skipped + s.pending + (s'.timetable.issued - s.timetable.issued)

variable {w w' w'' : Watch} {s s' s'' : Session σ}

theorem Balances.trans (h : Balances w s w' s') (h' : Balances w' s' w'' s'') :
    Balances w s w'' s'' := by
  have hissued := h.issued
  have hissued' := h'.issued
  have htotal := h.total
  have htotal' := h'.total
  constructor <;> omega

theorem look_balances {readings : LookReadings} {l : Look}
    (h : look rig budget o started readings w s = .done l s') : Balances w s l.watch s' := by
  obtain ⟨report, htick, hresumed, hskipped, -⟩ := look_counts h
  have hissued : s.timetable.issued ≤ s'.timetable.issued := (Cue.Ends.look htick).gains.count_eq.1
  have hpending := Session.tick_pending htick
  constructor <;> omega

/-- A report that a render is complete schedules what it ends the wait of. -/
theorem report_balances (rig : Rig σ) (readings : WakeReadings) (w : Watch) (s : Session σ) :
    Balances w s (report rig readings w s).1 (report rig readings w s).2 := by
  let clocked : Rig σ := { rig with clock := readings.entries }
  have hends : Cue.rendered.Ends clocked s (s.renderComplete clocked).2 := .rendered
  obtain ⟨hissued, hcount⟩ := hends.gains.count_eq
  refine ⟨hissued, ?_⟩
  show w.resumed + w.skipped + (s.renderComplete clocked).2.timetable.count = _
  rw [hcount, Cue.leaving, Session.pending, Nat.add_assoc _ s.timetable.count]
  rfl

theorem hear_balances (rig : Rig σ) (why : Waking) (readings : WakeReadings) (w : Watch)
    (s : Session σ) : Balances w s (hear rig why readings w s).1 (hear rig why readings w s).2 := by
  cases why with
  | rested | closed => exact ⟨Nat.le_refl _, by simp [hear]⟩
  | rendered => exact report_balances rig readings w s

theorem wake_balances {why : Waking} {readings : WakeReadings}
    (h : wake rig why readings w s = (w', s')) : Balances w s w' s' := by
  have hheard := hear_balances rig why readings w s
  unfold wake at h
  generalize hear rig why readings w s = heard at h hheard
  obtain ⟨w₁, s₁⟩ := heard
  dsimp only at h hheard
  split at h
  · split at h
    · cases h
      have hreport := report_balances rig readings w₁ s₁
      exact hheard.trans ⟨hreport.issued, hreport.total⟩
    · cases h
      exact hheard
  · cases h
    exact hheard

theorem Kept.balances {place place' : Tidings.Place}
    (h : Kept t rig budget o started place w s place' w' s') : Balances w s w' s' := by
  induction h with
  | ended looked =>
    have hlook := look_balances looked
    exact ⟨hlook.issued, hlook.total⟩
  | rest looked woke _ ih => exact ((look_balances looked).trans (wake_balances woke)).trans ih

/-! ## Ends -/

/-- A watch stops listening when it hears that no render will be reported any more. -/
theorem wake_listening {why : Waking} {readings : WakeReadings}
    (h : wake rig why readings w s = (w', s')) :
    w'.listening = false ↔ w.listening = false ∨ why = .closed := by
  have hheard : (hear rig why readings w s).1.listening = false ↔
      w.listening = false ∨ why = .closed := by
    cases why <;> simp [hear, report]
  unfold wake at h
  generalize hear rig why readings w s = heard at h hheard
  obtain ⟨w₁, s₁⟩ := heard
  dsimp only at h hheard
  split at h
  · split at h <;> cases h <;> exact hheard
  · cases h
    exact hheard

variable {place place' : Tidings.Place}

theorem Kept.rests_le (h : Kept t rig budget o started place w s place' w' s') :
    place.rests ≤ place'.rests := by
  induction h with
  | ended _ => exact Nat.le_refl _
  | rest _ _ _ ih => exact Nat.le_of_succ_le ih

theorem Kept.listening_iff (h : Kept t rig budget o started place w s place' w' s') :
    w'.listening = false ↔ w.listening = false ∨ t.Closes place.rests place'.rests := by
  induction h with
  | ended looked =>
    obtain ⟨-, -, -, -, hlistening⟩ := look_counts looked
    have hnever : ∀ n, ¬t.Closes n n := fun n ⟨k, hle, hlt, _⟩ => absurd hle (Nat.not_le.mpr hlt)
    simp only [hnever, or_false]
    exact iff_of_eq (congrArg (· = false) hlistening)
  | rest looked woke later ih =>
    obtain ⟨-, -, -, -, hlistening⟩ := look_counts looked
    rw [ih, wake_listening woke, Tidings.closes_step later.rests_le, or_assoc]
    exact or_congr_left (by rw [← hlistening]; rfl)

/-- **A watch ends with nothing left to do, unless it is given up.** -/
theorem Kept.isDone (h : Kept t rig budget o started place w s place' w' s')
    (inTime : w'.timedOut = false) : w'.isDone o s' = true := by
  induction h with
  | @ended _ _ _ w' s' looked =>
    have hdone : w'.isDone o s' = true := isDone_of_finished looked inTime
    exact hdone
  | rest _ _ _ ih => exact ih inTime

theorem Kept.waiting (h : Kept t rig budget o started place w s place' w' s') :
    w'.waiting = s'.waits.length := by
  induction h with
  | ended _ => rfl
  | rest _ _ _ ih => exact ih

/-- **A watch leaves nothing behind.** Whatever the host, the settings and the options, whatever is
scheduled and waits at first, and whatever the watch is told: if it ends without being given up,
nothing is scheduled, and waits for a render are left only if no render is simulated and no report
can come, since there was none to listen to or since it has been heard that none will come. However
it ends, it says how many waits are left, and what it has resumed and dropped and what is still
scheduled is what was scheduled at first and what has been scheduled since. -/
theorem left_behind {listening : Bool} {looks : Nat}
    (ended : start t.clock rig budget o listening looks s ⟨0, 0⟩ = (.done w' s', place')) :
    (w'.timedOut = false → s'.pending = 0 ∧
      (s'.waits ≠ [] → o.renderSpan = none ∧ (listening = false ∨ t.Closes 0 place'.rests))) ∧
    w'.waiting = s'.waits.length ∧ s.timetable.issued ≤ s'.timetable.issued ∧
    w'.resumed + w'.skipped + s'.pending =
      s.pending + (s'.timetable.issued - s.timetable.issued) := by
  have hkept : Kept t rig budget o (t.looks 0).due ⟨1, 0⟩ (fresh listening) s place' w' s' :=
    kept_of_keep ended
  refine ⟨fun inTime => ?_, hkept.waiting, hkept.balances.issued, ?_⟩
  · have hdone := hkept.isDone inTime
    unfold isDone at hdone
    rw [Bool.and_eq_true] at hdone
    obtain ⟨hidle, hwaits⟩ := hdone
    refine ⟨by simpa [Session.isIdle] using hidle, fun hleft => ?_⟩
    have hsome : s'.waits.isEmpty = false := by simpa using hleft
    rw [hsome, Bool.false_or, Bool.and_eq_true] at hwaits
    obtain ⟨hdeaf, hspan⟩ := hwaits
    exact ⟨by simpa using hspan, hkept.listening_iff.mp (by simpa using hdeaf)⟩
  · have htotal := hkept.balances.total
    simpa [fresh] using htotal

end Watch

/-- A session in which two resumptions are scheduled, the later one of an action that is gone, and one
action waits for a render. -/
def Session.expecting : Session Stage :=
  let steps := [Step.recorded "n" "bpy.ops.scene.increment(key=\"n\")"]
  { Session.rehearsal steps with
    timetable := (Timetable.empty.schedule 3 (.start .locals "a" steps)).schedule 5
      (.start .locals "gone" steps)
    waits := [⟨.locals, "a", "n"⟩] }

/-- The clock goes on by two from look to look, and the second rest ends since no render will be
reported any more. -/
def Tidings.closing : Tidings where
  looks k := ⟨2 * (k + 1), 2 * (k + 1), 2 * (k + 1), 2 * (k + 1), fun _ => 2 * (k + 1)⟩
  rests k := (if k = 1 then .closed else .rested, ⟨fun _ => 0, 0⟩)

/-- How the watch over that session ends. -/
def Session.expected : Run Stage Watch × Tidings.Place :=
  Watch.start Tidings.closing.clock .rehearsal 10 .usual true 10 Session.expecting ⟨0, 0⟩

/-- One resumption has run and the other has been dropped, and one wait is left. -/
theorem expected_end : Session.expected.1.seen? (fun s => s.waits.length) =
    some (some ⟨3, 1, 1, [], 0, 1, false, none, false⟩, 1) := by
  decide +kernel

theorem expected_left : ∃ w s', Session.expected.1 = .done w s' ∧ w.timedOut = false ∧
    s'.waits ≠ [] ∧ s'.pending = 0 ∧ Tidings.closing.Closes 0 Session.expected.2.rests ∧
    w.resumed + w.skipped + s'.pending = 2 + (s'.timetable.issued - 2) := by
  obtain ⟨s', hdone, hwaits⟩ := Run.of_seen?_done expected_end
  have hover : Session.expected = (.done _ s', Session.expected.2) := Prod.ext hdone rfl
  obtain ⟨hends, -, -, htotal⟩ := Watch.left_behind hover
  obtain ⟨hpending, hleft⟩ := hends rfl
  have hsome : s'.waits ≠ [] := by
    intro hnone
    rw [hnone] at hwaits
    cases hwaits
  obtain ⟨-, hcloses⟩ := hleft hsome
  exact ⟨_, s', hdone, rfl, hsome, hpending, hcloses.resolve_left (by decide), htotal⟩

end Replay
