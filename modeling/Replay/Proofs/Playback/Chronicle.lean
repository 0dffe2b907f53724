import Replay.Proofs.Playback.Inheritance

/-!
# Chronicles

A player is called again and again: to play an action, to look at the timetable, or since a render
is complete. Between two calls it holds a timetable and a queue; the host and the library are
whatever they are when the next call comes. A chronicle lists the calls of one player since it was
new, each with the timetable before and after it.

* `Cue.Ends` — a call that ends, `Cue.ends_iff_runs` — it takes the turns of its cue
* `Chronicle` — the calls of one player
* `Chronicle.entry_served_once` — each entry is handed over once, by the first look that finds it due
* `Session.tick_iff_takes`, `Session.tick_pending` — what a look does with the entries that are due
-/

set_option autoImplicit false

namespace Replay

variable {σ : Type}

/-! ## Calls -/

/-- A call of the player that ends, with the sessions before and after it. -/
inductive Cue.Ends (rig : Rig σ) : Cue → Session σ → Session σ → Prop
  | play {budget collection id result s s'}
      (run : s.play rig budget collection id = .ofResult result s') :
      Ends rig (.play collection id) s s'
  | look {budget now report s s'} (run : s.tick rig budget now = .done report s') :
      Ends rig (.look now) s s'
  | rendered {s} : Ends rig .rendered s (s.renderComplete rig).2

/-- **A call that ends takes the turns of its cue.** -/
theorem Cue.ends_iff_runs {rig : Rig σ} {cue : Cue} {s s' : Session σ} :
    cue.Ends rig s s' ↔ ∃ takes, cue.Runs rig s takes s' := by
  constructor
  · rintro (@⟨budget, collection, id, result, _, _, run⟩ | @⟨budget, now, report, _, _, run⟩ | _)
    · have hturn : ∃ n, (Turn.play collection id).run rig n s = .ofResult result s' := ⟨budget, run⟩
      obtain ⟨events, plays⟩ := Turn.run_iff_plays.mp hturn
      exact ⟨_, .play plays⟩
    · obtain ⟨takes, resumes, -⟩ := Session.tick_iff_resumes.mp ⟨budget, run⟩
      exact ⟨takes, .look resumes⟩
    · exact ⟨[], .rendered⟩
  · rintro ⟨takes, plays | resumes | _⟩
    · obtain ⟨budget, run⟩ := Turn.run_iff_plays.mpr ⟨_, plays⟩
      exact .play run
    · obtain ⟨budget, run⟩ := Session.tick_iff_resumes.mpr ⟨_, resumes, rfl⟩
      exact .look run
    · exact .rendered

/-- A call that has been made, with what was scheduled before and after it. -/
structure Episode where
  cue : Cue
  before : Timetable Resumption
  after : Timetable Resumption

namespace Episode

/-- The entries that the call has handed over. -/
def due (c : Episode) : List (TimetableEntry Resumption) := c.cue.taken c.before

/-- The entries that have been made in the course of the call. -/
def made (c : Episode) : List (TimetableEntry Resumption) :=
  c.after.waiting.filter fun e => c.before.issued ≤ e.number

/-- The call looks at the timetable at a moment not before the deadline of an entry. -/
def Reaches (c : Episode) (e : TimetableEntry Resumption) : Prop :=
  ∃ now, c.cue = .look now ∧ e.deadline ≤ now

end Episode

/-- **The calls of one player**, and what it holds by now: what is scheduled, and what waits for a
render. Each call has a host, a clock and a library of its own. -/
inductive Chronicle (settings : PlaySettings) :
    List Episode → Timetable Resumption → List RenderWait → Prop
  | new : Chronicle settings [] .empty []
  | episode {σ : Type} {rig : Rig σ} {calls cue} {s s' : Session σ}
      (earlier : Chronicle settings calls s.timetable s.waits) (same : rig.settings = settings)
      (ends : cue.Ends rig s s') :
      Chronicle settings (calls ++ [⟨cue, s.timetable, s'.timetable⟩]) s'.timetable s'.waits

/-! ## What a call does with the timetable -/

/-- Any property at all is handed on. -/
theorem Hereditary.any (rig : Rig σ) : Hereditary rig fun _ => True := by
  constructor <;> intros <;> trivial

/-- A call takes out what is due, and adds entries under the next numbers. -/
theorem Cue.Ends.gains {rig : Rig σ} {cue : Cue} {s s' : Session σ} (h : cue.Ends rig s s') :
    (cue.leaving s.timetable).Gains (fun _ => True) s'.timetable := by
  obtain ⟨takes, runs⟩ := Cue.ends_iff_runs.mp h
  exact (runs.gains (.any rig) (fun _ _ _ => trivial) fun _ _ => trivial).imp fun _ _ => trivial

namespace Cue

variable {cue : Cue} {t : Timetable Resumption} {e : TimetableEntry Resumption}

theorem leaving_issued : (cue.leaving t).issued = t.issued := by
  cases cue <;> rfl

theorem leaving_numbered (h : t.Numbered) : (cue.leaving t).Numbered := by
  cases cue with
  | look now => exact h.takeDue now
  | play _ _ | rendered => exact h

/-- What is taken out is what the look finds due. -/
theorem mem_taken_iff :
    e ∈ cue.taken t ↔ e ∈ t.waiting ∧ ∃ now, cue = .look now ∧ e.deadline ≤ now := by
  cases cue with
  | look now => simp [taken, Timetable.mem_takeDue_iff]
  | play _ _ | rendered => simp [taken]

theorem mem_leaving_iff :
    e ∈ (cue.leaving t).waiting ↔ e ∈ t.waiting ∧ ¬∃ now, cue = .look now ∧ e.deadline ≤ now := by
  cases cue with
  | look now => simp [leaving, Timetable.mem_left_iff]
  | play _ _ | rendered => simp [leaving]

theorem taken_sorted (h : t.Numbered) : (cue.taken t).Pairwise Timetable.Before := by
  cases cue with
  | look now => exact Timetable.takeDue_sorted h now
  | play _ _ | rendered => exact .nil

end Cue

/-- What becomes of the timetable in a call: of the entries those stay that are not handed over, and
those come that are made, numbered on from the ones before. -/
structure Episode.Accounts (c : Episode) : Prop where
  waiting : c.after.waiting = (c.cue.leaving c.before).waiting ++ c.made
  numbers : c.made.map TimetableEntry.number = List.range' c.before.issued c.made.length
  issued : c.after.issued = c.before.issued + c.made.length

theorem Cue.Ends.accounts {rig : Rig σ} {cue : Cue} {s s' : Session σ} (h : cue.Ends rig s s')
    (numbered : s.timetable.Numbered) : Episode.Accounts ⟨cue, s.timetable, s'.timetable⟩ := by
  obtain ⟨new, hnew, hnumbers, -⟩ := h.gains
  rw [leaving_issued] at hnumbers
  have hmade : Episode.made ⟨cue, s.timetable, s'.timetable⟩ = new := by
    have hold : (cue.leaving s.timetable).waiting.filter
        (fun e => s.timetable.issued ≤ e.number) = [] := by
      refine List.filter_eq_nil_iff.mpr fun e he => ?_
      have := numbered.below e (mem_leaving he)
      simpa using this
    have hfresh : (new.filter fun e => s.timetable.issued ≤ e.number) = new := by
      refine List.filter_eq_self.mpr fun e he => ?_
      have hn := List.mem_map_of_mem (f := TimetableEntry.number) he
      rw [hnumbers] at hn
      simpa using (List.mem_range'_1.mp hn).1
    simp only [Episode.made, hnew, Timetable.extended, List.filter_append]
    rw [hold, hfresh, List.nil_append]
  refine ⟨?_, ?_, ?_⟩
  · rw [hmade, hnew, Timetable.extended]
  · rw [hmade, hnumbers]
  · rw [hmade, hnew, Timetable.extended, leaving_issued]

namespace Episode.Accounts

variable {c : Episode} {e : TimetableEntry Resumption}

/-- An old entry stays unless the call hands it over. -/
theorem mem_after_iff (h : c.Accounts) (old : e.number < c.before.issued) :
    e ∈ c.after.waiting ↔ e ∈ c.before.waiting ∧ ¬c.Reaches e := by
  rw [h.waiting, List.mem_append, Cue.mem_leaving_iff]
  constructor
  · rintro (stays | made)
    · exact stays
    · have hnumber := of_decide_eq_true (List.mem_filter.mp made).2
      omega
  · exact .inl

end Episode.Accounts

/-! ## What a chronicle says -/

namespace Chronicle

variable {settings : PlaySettings} {calls earlier later : List Episode} {c : Episode}
  {t : Timetable Resumption} {waits : List RenderWait} {e : TimetableEntry Resumption}

theorem numbered (h : Chronicle settings calls t waits) : t.Numbered := by
  induction h with
  | new => exact Timetable.numbered_empty
  | episode _ _ ends ih => exact (Cue.leaving_numbered ih).gains ends.gains

/-- The calls before some call, and what was scheduled by then. -/
theorem until_episode (h : Chronicle settings (earlier ++ c :: later) t waits) :
    (∃ waits', Chronicle settings earlier c.before waits') ∧ c.Accounts := by
  generalize hcalls : earlier ++ c :: later = calls at h
  induction h generalizing later with
  | new => simp at hcalls
  | @episode σ rig calls cue s s' before same ends ih =>
    rcases split_concat hcalls with ⟨rfl, rfl, rfl⟩ | ⟨rest, rfl, hinit⟩
    · exact ⟨⟨_, before⟩, ends.accounts before.numbered⟩
    · exact ih hinit

/-- The entries made so far bear the numbers that have been issued. -/
theorem made_numbers (h : Chronicle settings calls t waits) :
    (calls.flatMap Episode.made).map TimetableEntry.number = List.range t.issued := by
  induction h with
  | new => rfl
  | episode before same ends ih =>
    have haccounts := ends.accounts before.numbered
    rw [List.flatMap_append, List.map_append, ih, List.flatMap_singleton, haccounts.numbers,
      haccounts.issued, List.range_eq_range', List.range_eq_range']
    simpa using List.range'_append_1 (s := 0)

theorem number_lt (h : Chronicle settings calls t waits) (hc : c ∈ calls) (he : e ∈ c.made) :
    e.number < t.issued := by
  have hmem : e.number ∈ (calls.flatMap Episode.made).map TimetableEntry.number :=
    List.mem_map_of_mem (List.mem_flatMap.mpr ⟨c, hc, he⟩)
  rw [h.made_numbers] at hmem
  exact List.mem_range.mp hmem

/-- What is scheduled after some call stays until a look finds it due. -/
theorem stays_iff (h : Chronicle settings (earlier ++ c :: later) t waits)
    (he : e ∈ c.after.waiting) :
    e.number < t.issued ∧ (e ∈ t.waiting ↔ ∀ d ∈ later, ¬d.Reaches e) := by
  generalize hcalls : earlier ++ c :: later = calls at h
  induction h generalizing later with
  | new => simp at hcalls
  | @episode σ rig calls cue s s' before same ends ih =>
    have hnumbered : s'.timetable.Numbered := (before.episode same ends).numbered
    rcases split_concat hcalls with ⟨rfl, rfl, rfl⟩ | ⟨rest, rfl, hinit⟩
    · exact ⟨hnumbered.below e he, by simpa using he⟩
    · obtain ⟨hold, hstays⟩ := ih hinit
      have haccounts := ends.accounts before.numbered
      refine ⟨?_, ?_⟩
      · have hissued : s.timetable.issued ≤ s'.timetable.issued :=
          Nat.le.intro haccounts.issued.symm
        omega
      · rw [haccounts.mem_after_iff hold, hstays, List.forall_mem_append, List.forall_mem_singleton]

/-- **An entry stays until a look finds it due.** -/
theorem waiting_iff (h : Chronicle settings (earlier ++ c :: later) t waits) (he : e ∈ c.made) :
    e ∈ t.waiting ↔ ∀ d ∈ later, ¬d.Reaches e :=
  (h.stays_iff (List.mem_filter.mp he).1).2

/-- What is scheduled has been made by some call. -/
theorem exists_made (h : Chronicle settings calls t waits) (he : e ∈ t.waiting) :
    ∃ c ∈ calls, e ∈ c.made := by
  induction h with
  | new => cases he
  | episode before same ends ih =>
    rw [(ends.accounts before.numbered).waiting, List.mem_append] at he
    rcases he with stays | made
    · obtain ⟨c, hc, hmade⟩ := ih (Cue.mem_leaving stays)
      exact ⟨c, List.mem_append_left _ hc, hmade⟩
    · exact ⟨_, List.mem_append_right _ List.mem_cons_self, made⟩

/-- Entries that a call makes are not handed over before the next one. -/
theorem not_due (h : Chronicle settings (earlier ++ c :: later) t waits) (he : e ∈ c.made) :
    ∀ d ∈ earlier ++ [c], e ∉ d.due := by
  intro d hd hdue
  obtain ⟨⟨_, hbefore⟩, -⟩ := h.until_episode
  have hnumber : c.before.issued ≤ e.number := of_decide_eq_true (List.mem_filter.mp he).2
  have hwaiting : e ∈ d.before.waiting := (Cue.mem_taken_iff.mp hdue).1
  rcases List.mem_append.mp hd with hd | hd
  · -- what an earlier call hands over has a number that was issued by then
    obtain ⟨first, second, rfl⟩ := List.append_of_mem hd
    obtain ⟨⟨_, hearly⟩, -⟩ := hbefore.until_episode
    obtain ⟨d', hd', hmade⟩ := hearly.exists_made hwaiting
    have := hbefore.number_lt (List.mem_append_left _ hd') hmade
    omega
  · cases List.mem_singleton.mp hd
    have := hbefore.numbered.below e hwaiting
    omega

/-- What becomes of the entries that a call has made: they stay scheduled, unchanged, until there is
a look at a moment not before their deadline, and this look hands them over. -/
structure Serves (t : Timetable Resumption) (earlier : List Episode) (c : Episode)
    (later : List Episode) (e : TimetableEntry Resumption) : Prop where
  /-- The entry is still there if no look has found it due. -/
  waiting : e ∈ t.waiting ↔ ∀ d ∈ later, ¬d.Reaches e
  notBefore : ∀ d ∈ earlier ++ [c], e ∉ d.due
  /-- It was there before each call until then. -/
  meanwhile : ∀ between d rest, later = between ++ d :: rest →
    (e ∈ d.before.waiting ↔ ∀ x ∈ between, ¬x.Reaches e)
  /-- The first look that finds it due hands it over, and no other one does. -/
  once : ∀ between d rest, later = between ++ d :: rest →
    (e ∈ d.due ↔ (∀ x ∈ between, ¬x.Reaches e) ∧ d.Reaches e)

theorem serves (h : Chronicle settings (earlier ++ c :: later) t waits) (he : e ∈ c.made) :
    Serves t earlier c later e := by
  have hmeanwhile : ∀ between d rest, later = between ++ d :: rest →
      (e ∈ d.before.waiting ↔ ∀ x ∈ between, ¬x.Reaches e) := by
    rintro between d rest rfl
    -- the calls before `d` are a chronicle, too
    rw [← List.cons_append, ← List.append_assoc] at h
    obtain ⟨⟨_, hbefore⟩, -⟩ := h.until_episode
    exact hbefore.waiting_iff he
  refine ⟨h.waiting_iff he, h.not_due he, hmeanwhile, ?_⟩
  intro between d rest hlater
  rw [← hmeanwhile between d rest hlater]
  exact Cue.mem_taken_iff

end Chronicle

/-! ## What a look does -/

section Look

variable {rig : Rig σ} {s s' : Session σ} {now : Time} {report : Session.TickReport}
  {takes : List Take}

/-- A look reports one failure for each turn that fails. -/
theorem Resumes.failures_length {rs : List Resumption} (h : Resumes rig rs s takes s') :
    (takes.filterMap Take.failure?).length = takes.countP Take.fails := by
  induction h with
  | nothing => rfl
  | dropped _ _ ih => exact ih
  | @taken r rest s action events result s₁ takes s' _ _ _ ih =>
    cases result with
    | ok outcome => simp [List.filterMap_cons, Take.failure?, Take.fails, ih]
    | error e => simp [List.countP_cons, Take.failure?, Take.fails, ih]

/-- **What a look does with the resumptions that are due.** One after the other, each is dropped if
its action is gone, and else runs, whether or not those before it have failed. The report counts
both, and lists the failures of those that have run. -/
theorem Session.tick_iff_takes :
    (∃ budget, s.tick rig budget now = .done report s') ↔
      ∃ takes, Resumes rig ((s.timetable.takeDue now).1.map TimetableEntry.payload)
          { s with timetable := (s.timetable.takeDue now).2 } takes s' ∧
        report.resumed = takes.length ∧
        report.skipped + takes.length = (s.timetable.takeDue now).1.length ∧
        report.failures = takes.filterMap Take.failure? := by
  rw [tick_iff_resumes]
  constructor
  · rintro ⟨takes, resumes, rfl⟩
    have hlength := resumes.length_le
    rw [List.length_map] at hlength
    refine ⟨takes, resumes, ?_, ?_, ?_⟩
    · simp [TickReport.extended, TickReport.quiet]
    · simp only [TickReport.extended, TickReport.quiet]
      omega
    · simp [TickReport.extended, TickReport.quiet]
  · rintro ⟨takes, resumes, hresumed, hskipped, hfailures⟩
    refine ⟨takes, resumes, ?_⟩
    obtain ⟨resumed, skipped, failures⟩ := report
    simp only [TickReport.extended, TickReport.quiet, TickReport.mk.injEq] at *
    refine ⟨by omega, by omega, by simpa using hfailures⟩

/-- **Nothing is lost at a look**: what is pending after it, what it has resumed and what it has
dropped, is what was pending before it and what has been scheduled in its course. -/
theorem Session.tick_pending {budget : Nat} (h : s.tick rig budget now = .done report s') :
    s'.pending + report.resumed + report.skipped =
      s.pending + (s'.timetable.issued - s.timetable.issued) := by
  obtain ⟨takes, -, hresumed, hskipped, -⟩ := tick_iff_takes.mp ⟨budget, h⟩
  obtain ⟨new, hnew, -⟩ := (Cue.Ends.look h).gains
  have hleft := Timetable.takeDue_count s.timetable now
  have hissued : s'.timetable.issued = s.timetable.issued + new.length := by
    rw [hnew, Timetable.extended, Cue.leaving_issued]
  have hcount : s'.timetable.count = (s.timetable.takeDue now).2.count + new.length := by
    rw [hnew, Timetable.extended, Timetable.count, List.length_append]
    rfl
  simp only [pending]
  omega

end Look

/-- **Each entry is handed over once**, by the first look that finds it due. Whatever calls have been
made of a player, with whatever hosts, clocks and libraries: an entry that a call has made stays
scheduled, unchanged, until there is a look at a moment not before its deadline, and this look hands
it over; no other call does. The numbers issued are those of the entries so made, and nothing else is
handed over. A look takes what is due in the order of deadlines, then of numbers; drops a resumption
whose action is gone, and else runs it, whatever has become of those before it; and accounts for all
of them in its report. -/
theorem Chronicle.entry_served_once {settings : PlaySettings} {calls : List Episode}
    {t : Timetable Resumption} {waits : List RenderWait} (h : Chronicle settings calls t waits) :
    (∀ earlier c later, calls = earlier ++ c :: later →
      (∀ e ∈ c.made, Serves t earlier c later e) ∧ (∀ e ∈ c.due, ∃ d ∈ earlier, e ∈ d.made) ∧
      c.due.Pairwise Timetable.Before ∧ c.after.issued = c.before.issued + c.made.length) ∧
    (calls.flatMap Episode.made).map TimetableEntry.number = List.range t.issued ∧
    ∀ {σ : Type} (rig : Rig σ) (s s' : Session σ) (now : Time) (report : Session.TickReport),
      ((∃ budget, s.tick rig budget now = .done report s') ↔
        ∃ takes, Resumes rig ((s.timetable.takeDue now).1.map TimetableEntry.payload)
            { s with timetable := (s.timetable.takeDue now).2 } takes s' ∧
          report.resumed = takes.length ∧
          report.skipped + takes.length = (s.timetable.takeDue now).1.length ∧
          report.failures = takes.filterMap Take.failure?) ∧
      (∀ takes, Resumes rig ((s.timetable.takeDue now).1.map TimetableEntry.payload)
          { s with timetable := (s.timetable.takeDue now).2 } takes s' →
        (takes.filterMap Take.failure?).length = takes.countP Take.fails) ∧
      ∀ budget, s.tick rig budget now = .done report s' →
        s'.pending + report.resumed + report.skipped =
          s.pending + (s'.timetable.issued - s.timetable.issued) := by
  refine ⟨?_, h.made_numbers, ?_⟩
  · rintro earlier c later rfl
    obtain ⟨⟨_, hbefore⟩, haccounts⟩ := h.until_episode
    refine ⟨fun e he => h.serves he, fun e he => ?_, Cue.taken_sorted hbefore.numbered,
      haccounts.issued⟩
    exact hbefore.exists_made (Cue.mem_taken_iff.mp he).1
  · intro σ rig s s' now report
    exact ⟨Session.tick_iff_takes, fun takes resumes => resumes.failures_length,
      fun budget run => Session.tick_pending run⟩

/-- How many entries have been made, and the numbers and the deadlines of those that wait. -/
def Timetable.listing (t : Timetable Resumption) : Nat × List (Nat × Time) :=
  (t.issued, t.waiting.map fun e => (e.number, e.deadline))

theorem Timetable.exists_of_listing {t : Timetable Resumption} {issued n : Nat} {deadline : Time}
    (h : t.listing = (issued, [(n, deadline)])) :
    t.issued = issued ∧ ∃ e ∈ t.waiting, e.number = n ∧ e.deadline = deadline := by
  obtain ⟨hissued, hlist⟩ := Prod.mk.inj h
  obtain ⟨e, hwaiting, hentry⟩ := List.map_eq_singleton_iff.mp hlist
  obtain ⟨hnumber, hdeadline⟩ := Prod.mk.inj hentry
  exact ⟨hissued, e, by simp [hwaiting], hnumber, hdeadline⟩

theorem timedRounds_suspended :
    (Turn.rehearse 10 timedRounds).seen? (fun s => s.timetable.listing) =
      some (some .suspended, 1, [(0, Time.ofMillis 500)]) := by
  decide +kernel

/-- The action is resumed and waits again, for a moment that has come. -/
theorem timedRounds_looked :
    ((Turn.rehearse 10 timedRounds).andThen fun _ s =>
      s.tick .rehearsal 10 (Time.ofMillis 500)).seen? (fun s => s.timetable.listing) =
      some (some ⟨1, 0, []⟩, 2, [(1, Time.ofMillis 500)]) := by
  decide +kernel

theorem timedRounds_served :
    ∃ played looked t waits, Chronicle .usual [played, looked] t waits ∧
      (∃ e ∈ played.made, e ∉ played.due ∧ e ∈ looked.due) ∧
      ∃ e ∈ looked.made, looked.Reaches e ∧ e ∉ looked.due ∧ e ∈ t.waiting := by
  obtain ⟨s₁, hplay, hlisting₁⟩ := Run.of_seen?_done timedRounds_suspended
  obtain ⟨s₂, hlook, hlisting₂⟩ := Run.of_seen?_done timedRounds_looked
  rw [hplay, Run.andThen] at hlook
  obtain ⟨hissued₁, e₁, he₁, hnumber₁, hdeadline₁⟩ := Timetable.exists_of_listing hlisting₁
  obtain ⟨-, e₂, he₂, hnumber₂, hdeadline₂⟩ := Timetable.exists_of_listing hlisting₂
  have hplayed : Session.play .rehearsal 10 .locals "a" (.rehearsal timedRounds) =
      .ofResult (.ok .suspended) s₁ := hplay
  have hnew : Chronicle .usual [] (Session.rehearsal timedRounds).timetable
      (Session.rehearsal timedRounds).waits := .new
  have hchronicle := (hnew.episode rfl (.play hplayed)).episode rfl (.look hlook)
  obtain ⟨hserved, -, -⟩ := Chronicle.entry_served_once hchronicle
  have hmade₁ : e₁ ∈ Episode.made
      ⟨.play .locals "a", (Session.rehearsal timedRounds).timetable, s₁.timetable⟩ :=
    List.mem_filter.mpr ⟨he₁, decide_eq_true (Nat.zero_le _)⟩
  have hissued : s₁.timetable.issued ≤ e₂.number := by omega
  have hmade₂ : e₂ ∈ Episode.made ⟨.look (Time.ofMillis 500), s₁.timetable, s₂.timetable⟩ :=
    List.mem_filter.mpr ⟨he₂, decide_eq_true hissued⟩
  have hserves₁ := (hserved [] _ [_] rfl).1 e₁ hmade₁
  have hserves₂ := (hserved [_] _ [] rfl).1 e₂ hmade₂
  refine ⟨_, _, _, _, hchronicle, ⟨e₁, hmade₁, hserves₁.notBefore _ (by simp), ?_⟩, e₂, hmade₂,
    ⟨_, rfl, Nat.le_of_eq hdeadline₂⟩, hserves₂.notBefore _ (by simp), he₂⟩
  exact (hserves₁.once [] _ [] rfl).mpr ⟨by simp, _, rfl, Nat.le_of_eq hdeadline₁⟩

end Replay
