import Replay.Proofs.Host.Mirrors
import Replay.Proofs.Playback.Soundness

/-!
# Playback in step

Two sessions may differ in what playback does not look at. Then whatever is due in both of them is
played in step: within every budget it ends in the same way or in neither, and the sessions that are
left differ in no more than the first ones did.

* `Run.Matches` — two runs end in the same way, or both are exhausted
* `Session.Alike` — sessions that differ in their hosts and libraries only
* `Likeness.Hidden` — differences that no activity of a kind looks at
* `Likeness.Hidden.drive_matches`, `Session.looks_matches` — then these are played in step
-/

set_option autoImplicit false

namespace Replay

variable {σ α β : Type}

/-! ## Runs that match -/

/-- Two runs end in the same way, in sessions that are related; or both are exhausted. -/
inductive Run.Matches (rel : Session σ → Session σ → Prop) : Run σ α → Run σ α → Prop
  | done {a s t} (related : rel s t) : Matches rel (.done a s) (.done a t)
  | failed {e s t} (related : rel s t) : Matches rel (.failed e s) (.failed e t)
  | exhausted : Matches rel .exhausted .exhausted

namespace Run.Matches

variable {rel rel' : Session σ → Session σ → Prop} {a b : Run σ α}

/-- What matches a run that is done is done in the same way. -/
theorem exists_done {a : α} {s : Session σ} {b : Run σ α} (h : Matches rel (.done a s) b) :
    ∃ t, b = .done a t ∧ rel s t := by
  cases h with
  | done related => exact ⟨_, rfl, related⟩

theorem imp (weaken : ∀ s t, rel s t → rel' s t) (h : Matches rel a b) : Matches rel' a b := by
  cases h with
  | done related => exact .done (weaken _ _ related)
  | failed related => exact .failed (weaken _ _ related)
  | exhausted => exact .exhausted

theorem andThen {f g : α → Session σ → Run σ β} (h : Matches rel a b)
    (next : ∀ x s t, rel s t → Matches rel (f x s) (g x t)) :
    Matches rel (a.andThen f) (b.andThen g) := by
  cases h with
  | done related => exact next _ _ _ related
  | failed related => exact .failed related
  | exhausted => exact .exhausted

theorem times {body : Session σ → Run σ Unit}
    (round : ∀ s t, rel s t → Matches rel (body s) (body t)) : ∀ (n : Nat) {s t : Session σ},
      rel s t → Matches rel (Run.times body n s) (Run.times body n t)
  | 0, _, _, related => .done related
  | n + 1, _, _, related => (round _ _ related).andThen fun _ _ _ related => times round n related

theorem whileTrue {test : Session σ → Run σ Bool} {body : Session σ → Run σ Unit}
    (asked : ∀ s t, rel s t → Matches rel (test s) (test t))
    (round : ∀ s t, rel s t → Matches rel (body s) (body t)) : ∀ (n : Nat) {s t : Session σ},
      rel s t → Matches rel (Run.whileTrue test body n s) (Run.whileTrue test body n t)
  | 0, _, _, _ => .exhausted
  | n + 1, s, t, related => by
    unfold Run.whileTrue
    refine (asked s t related).andThen fun holds s t related => ?_
    split
    · exact (round s t related).andThen fun _ _ _ related => whileTrue asked round n related
    · exact .done related

/-- Two passes match, and what follows them matches. -/
theorem follow {a b : Run σ Flow} {next next' : Resumption → Session σ → Run σ Outcome}
    (h : Matches rel a b)
    (same : ∀ r s t, a = .done (.proceed r) s → rel s t → Matches rel (next r s) (next' r t)) :
    Matches rel (a.follow next) (b.follow next') := by
  cases h with
  | @done flow s t related =>
    cases flow with
    | finished => exact .done related
    | suspended => exact .done related
    | proceed r => exact same r s t rfl related
  | failed related => exact .failed related
  | exhausted => exact .exhausted

end Run.Matches

/-! ## Sessions that are alike -/

/-- How two sessions may differ, and what is played in them. -/
structure Likeness (σ : Type) where
  hosts : σ → σ → Prop
  libraries : Library → Library → Prop
  /-- The activities that come up. -/
  plays : Activity → Prop

/-- Two sessions differ in their hosts and libraries only, and what is scheduled in them is of a
kind. -/
structure Session.Alike (k : Likeness σ) (s t : Session σ) : Prop where
  host : k.hosts s.host t.host
  library : k.libraries s.library t.library
  timetable : t.timetable = s.timetable
  waits : t.waits = s.waits
  scheduled : ∀ e ∈ s.timetable.waiting, k.plays (.drive e.payload)

/-- **Differences that no activity of a kind looks at**: what it finds in the library, the surface
that it runs on, the effects of its steps and the conditions of its loops are the same, and leave
hosts and libraries that differ in no more. What it goes on with is of the same kind. -/
structure Likeness.Hidden (k : Likeness σ) (rig : Rig σ) : Prop where
  hereditary : Hereditary rig k.plays
  action : ∀ {l l' r}, k.libraries l l' → k.plays (.drive r) →
    (l'.action? r.collection r.actionId).map Action.grouping =
      (l.action? r.collection r.actionId).map Action.grouping
  alert : ∀ {l l'} (r : Resumption) (stepId : String), k.libraries l l' →
    k.libraries (l.raiseAlert r.collection r.actionId stepId)
      (l'.raiseAlert r.collection r.actionId stepId)
  surface : ∀ {s t r}, k.hosts s t → k.plays (.drive r) →
    r.surface.getD (rig.host.ambient t) = r.surface.getD (rig.host.ambient s)
  effect : ∀ {s t p step steps f}, k.hosts s t → k.plays (.walk p (step :: steps)) →
    step.effect? rig.host p.grouping p.base = some f → SameIn k.hosts (f s) (f t)
  condition : ∀ {s t} (condition : String), k.hosts s t →
    SameIn k.hosts (rig.host.evaluate s condition) (rig.host.evaluate t condition)

namespace Session.Alike

variable {k : Likeness σ} {rig : Rig σ} {s t : Session σ}

theorem suspend (h : s.Alike k t) {r : Resumption} (plays : k.plays (.drive r)) (span : Time) :
    (s.suspend rig r span).Alike k (t.suspend rig r span) where
  host := h.host
  library := h.library
  timetable := by simp only [Session.suspend, h.timetable]
  waits := h.waits
  scheduled := by
    refine List.forall_mem_append.mpr ⟨h.scheduled, ?_⟩
    exact List.forall_mem_singleton.mpr plays

theorem announce (h : s.Alike k t) (r : Resumption) : (s.announce r).Alike k (t.announce r) := by
  unfold Session.announce
  split
  · split
    · exact ⟨h.host, h.library, h.timetable, by simp only [Session.await, h.waits], h.scheduled⟩
    · exact h
  · exact h

theorem failAt (h : s.Alike k t) (hidden : k.Hidden rig) (r : Resumption) (step : Step)
    (e : PlayError) : Run.Matches (Session.Alike k) (Run.failAt r step e s : Run σ α)
      (Run.failAt r step e t) :=
  .failed ⟨h.host, hidden.alert r step.id h.library, h.timetable, h.waits, h.scheduled⟩

theorem withHost (h : s.Alike k t) {host host' : σ} (hosts : k.hosts host host') :
    Session.Alike k { s with host := host } { t with host := host' } :=
  ⟨hosts, h.library, h.timetable, h.waits, h.scheduled⟩

end Session.Alike

/-! ## Passes in step -/

/-- The pass that follows another one has inherited from it. -/
theorem Hereditary.proceeds {rig : Rig σ} {ok : Activity → Prop} (h : Hereditary rig ok) {n : Nat}
    {r next : Resumption} {s s' : Session σ} (hok : ok (.drive r))
    (hpass : r.pass rig n (Resumption.drive rig n) s = .done (.proceed next) s') :
    ok (.drive next) := by
  unfold Resumption.pass at hpass
  split at hpass
  · cases hpass
  · rename_i action _
    have hsame : ∀ (r : Resumption) (s : Session σ), ok (.drive r) →
        Resumption.drive rig n r s = Resumption.drive rig n r s := fun _ _ _ => rfl
    have hwalk := h.walk_congr hsame
      ⟨r, action.grouping, r.surface.getD (rig.host.ambient (s.announce r).host)⟩ n r.steps 0
      (s.announce r) (h.pass hok)
    exact hwalk.2 next s' hpass

namespace Likeness.Hidden

variable {k : Likeness σ} {rig : Rig σ} {p : Leg} {n : Nat} {s t : Session σ}

theorem act_matches (hidden : k.Hidden rig) {step : Step} {steps : List Step}
    {f : σ → Except PlayError Unit × σ} (effect : step.effect? rig.host p.grouping p.base = some f)
    (plays : k.plays (.walk p (step :: steps))) (alike : s.Alike k t) :
    Run.Matches (Session.Alike k) ((p.pass rig n).act step s f) ((p.pass rig n).act step t f) := by
  obtain ⟨result, host, host', hs, ht, hhosts⟩ := (hidden.effect alike.host plays effect).exists_eq
  simp only [Pass.act, hs, ht]
  cases result with
  | ok _ => exact .done (alike.withHost hhosts)
  | error e => exact (alike.withHost hhosts).failAt hidden p.source step e

theorem test_matches (hidden : k.Hidden rig) (opening : Step) (condition : String)
    (alike : s.Alike k t) :
    Run.Matches (Session.Alike k) ((p.pass rig n).test opening condition s)
      ((p.pass rig n).test opening condition t) := by
  obtain ⟨result, host, host', hs, ht, hhosts⟩ :=
    (hidden.condition condition alike.host).exists_eq
  simp only [Pass.test, Leg.pass, hs, ht]
  cases result with
  | ok holds => exact .done (alike.withHost hhosts)
  | error report => exact (alike.withHost hhosts).failAt hidden p.source opening _

/-- Whatever is played within a budget is played in step. -/
def PlaysInStep (k : Likeness σ) (rig : Rig σ) (n : Nat) : Prop :=
  ∀ r s t, k.plays (.drive r) → s.Alike k t →
    Run.Matches (Session.Alike k) (r.drive rig n s) (r.drive rig n t)

theorem playBody_matches (hidden : k.Hidden rig) (inner : PlaysInStep k rig n) {opening : Step}
    {body behind : List Step} {again : Recurrence}
    (plays : k.plays (.loop p opening body behind again)) (alike : s.Alike k t) :
    Run.Matches (Session.Alike k) ((p.pass rig n).playBody opening body s)
      ((p.pass rig n).playBody opening body t) := by
  rw [Leg.playBody_eq, Leg.playBody_eq]
  split
  · exact alike.failAt hidden p.source opening _
  · rename_i hshallow
    have hround : k.plays (.round p opening body behind again) := hidden.hereditary.round plays
    have hnested := hidden.hereditary.nested (Nat.not_lt.mp hshallow) hround
    exact (inner _ s t hnested alike).andThen fun _ _ _ alike => .done alike

/-- A loop is played in step if the walks behind it are. -/
theorem loop_matches (hidden : k.Hidden rig) (inner : PlaysInStep k rig n) {step : Step}
    {rest : List Step} {l : Loop} (loop : step.instruction = .ok (.directive (.loop l)))
    (plays : k.plays (.walk p (step :: rest)))
    (ih : ∀ (skip : Nat) {s t : Session σ}, k.plays (.walk p (rest.drop skip)) → s.Alike k t →
      Run.Matches (Session.Alike k) ((p.pass rig n).walk skip rest s)
        ((p.pass rig n).walk skip rest t)) (alike : s.Alike k t) :
    Run.Matches (Session.Alike k) ((p.pass rig n).walk 0 (step :: rest) s)
      ((p.pass rig n).walk 0 (step :: rest) t) := by
  have hereditary := hidden.hereditary
  simp only [Pass.walk, loop]
  split
  · exact ih 0 (hereditary.tail plays) alike
  · rename_i place hclosing
    have hbehind : ∀ {s t : Session σ}, s.Alike k t → Run.Matches _ _ _ :=
      fun alike => ih (place + 1) (hereditary.drop _ plays) alike
    split
    · exact alike.failAt hidden p.source step _
    · rename_i condition hrepeats
      have hloop : k.plays (.loop p step _ _ (.whileTrue condition)) :=
        hereditary.rounds loop hclosing hrepeats rfl plays
      refine Run.Matches.andThen ?_ fun _ _ _ alike => hbehind alike
      exact .whileTrue (fun _ _ => hidden.test_matches step condition)
        (fun _ _ => hidden.playBody_matches inner hloop) _ alike
    · rename_i start stop by' hrepeats
      split
      · exact alike.failAt hidden p.source step _
      · rename_i count hcount
        have hloop : k.plays (.loop p step _ _ (.times count)) :=
          hereditary.rounds loop hclosing hrepeats rfl plays
        refine Run.Matches.andThen ?_ fun _ _ _ alike => hbehind alike
        exact .times (fun _ _ => hidden.playBody_matches inner hloop) _ alike
    · split
      · exact .done alike
      · exact hbehind alike

theorem walk_matches (hidden : k.Hidden rig) (inner : PlaysInStep k rig n) :
    ∀ (steps : List Step) (skip : Nat) {s t : Session σ}, k.plays (.walk p (steps.drop skip)) →
      s.Alike k t →
      Run.Matches (Session.Alike k) ((p.pass rig n).walk skip steps s)
        ((p.pass rig n).walk skip steps t) := by
  intro steps
  induction steps with
  | nil =>
    intro skip s t _ alike
    simp only [Pass.walk]
    exact .done alike
  | cons step rest ih =>
    intro skip s t plays alike
    cases skip with
    | succ skip => exact ih skip plays alike
    | zero =>
      rw [List.drop_zero] at plays
      have htail : ∀ {s t : Session σ}, s.Alike k t → Run.Matches _ _ _ :=
        fun alike => ih 0 (hidden.hereditary.tail plays) alike
      obtain ⟨f, hf⟩ | hi | ⟨span, hi⟩ | hi | ⟨l, hi⟩ :=
        step.effect?_cases rig.host p.grouping p.base
      · rw [Pass.walk_effect _ hf, Pass.walk_effect _ hf]
        exact (hidden.act_matches hf plays alike).andThen fun _ _ _ alike => htail alike
      · simp only [Pass.walk, hi]
        exact .done alike
      · simp only [Pass.walk, hi]
        exact .done (alike.suspend (hidden.hereditary.suspend plays) _)
      · simp only [Pass.walk, hi]
        exact htail alike
      · exact hidden.loop_matches inner hi plays (fun skip => ih skip) alike

theorem pass_matches (hidden : k.Hidden rig) (inner : PlaysInStep k rig n) {r : Resumption}
    (plays : k.plays (.drive r)) (alike : s.Alike k t) :
    Run.Matches (Session.Alike k) (r.pass rig n (Resumption.drive rig n) s)
      (r.pass rig n (Resumption.drive rig n) t) := by
  have haction := hidden.action alike.library plays
  have hsurface := hidden.surface alike.host plays
  unfold Resumption.pass
  cases hs : s.library.action? r.collection r.actionId with
  | none =>
    rw [hs, Option.map_none, Option.map_eq_none_iff] at haction
    rw [haction]
    exact .done alike
  | some action =>
    rw [hs, Option.map_some, Option.map_eq_some_iff] at haction
    obtain ⟨action', ht, hgrouping⟩ := haction
    simp only [ht, hgrouping, Session.announce_host, hsurface]
    exact hidden.walk_matches (p := ⟨r, _, _⟩) inner r.steps 0 (hidden.hereditary.pass plays)
      (alike.announce r)

/-- **Whatever is played is played in step.** -/
theorem drive_matches (hidden : k.Hidden rig) : ∀ n, PlaysInStep k rig n := by
  intro n
  induction n with
  | zero => exact fun _ _ _ _ _ => .exhausted
  | succ n ih =>
    intro r s t plays alike
    rw [Resumption.drive_succ, Resumption.drive_succ]
    split
    · exact .failed alike
    · refine (hidden.pass_matches ih plays alike).follow fun next s' t' hnext alike => ?_
      exact ih next s' t' (hidden.hereditary.proceeds plays hnext) alike

end Likeness.Hidden

/-! ## Looks in step -/

namespace Session

/-- Looks at the timetable at some moments, one after the other and each within a budget, and what
they report. -/
def looks (rig : Rig σ) (budget : Nat) : List Time → Session σ → Run σ (List TickReport)
  | [], s => .done [] s
  | now :: later, s =>
    (s.tick rig budget now).andThen fun report s =>
      (looks rig budget later s).andThen fun reports s => .done (report :: reports) s

variable {k : Likeness σ} {rig : Rig σ} {s t : Session σ}

theorem resumeEach_matches (hidden : k.Hidden rig) (budget : Nat) : ∀ (rs : List Resumption)
    (report : TickReport) {s t : Session σ}, (∀ r ∈ rs, k.plays (.drive r)) → s.Alike k t →
      Run.Matches (Alike k) (resumeEach rig budget rs report s)
        (resumeEach rig budget rs report t) := by
  intro rs
  induction rs with
  | nil => exact fun _ _ _ _ alike => .done alike
  | cons r rest ih =>
    intro report s t plays alike
    obtain ⟨hr, hrest⟩ := List.forall_mem_cons.mp plays
    have haction := hidden.action alike.library hr
    unfold resumeEach
    cases hs : s.library.action? r.collection r.actionId with
    | none =>
      rw [hs, Option.map_none, Option.map_eq_none_iff] at haction
      rw [haction]
      exact ih _ hrest alike
    | some action =>
      rw [hs, Option.map_some, Option.map_eq_some_iff] at haction
      obtain ⟨action', ht, -⟩ := haction
      have hdrive := hidden.drive_matches budget r s t hr alike
      simp only [ht]
      generalize r.drive rig budget s = a, r.drive rig budget t = b at hdrive
      cases hdrive with
      | done alike => exact ih _ hrest alike
      | failed alike => exact ih _ hrest alike
      | exhausted => exact .exhausted

theorem tick_matches (hidden : k.Hidden rig) (budget : Nat) (now : Time) (alike : s.Alike k t) :
    Run.Matches (Alike k) (s.tick rig budget now) (t.tick rig budget now) := by
  unfold tick
  rw [alike.timetable]
  refine resumeEach_matches hidden budget _ _ (fun r hr => ?_) ⟨alike.host, alike.library, rfl,
    alike.waits, fun e he => alike.scheduled e (List.mem_of_mem_filter he)⟩
  obtain ⟨e, he, rfl⟩ := Timetable.mem_takeDue hr
  exact alike.scheduled e he

/-- **Whatever is due is played in step**, look after look. -/
theorem looks_matches (hidden : k.Hidden rig) (budget : Nat) : ∀ (moments : List Time)
    {s t : Session σ}, s.Alike k t →
      Run.Matches (Alike k) (s.looks rig budget moments) (t.looks rig budget moments)
  | [], _, _, alike => .done alike
  | now :: later, _, _, alike =>
    (tick_matches hidden budget now alike).andThen fun _ _ _ alike =>
      (looks_matches hidden budget later alike).andThen fun _ _ _ alike => .done alike

end Session

end Replay
