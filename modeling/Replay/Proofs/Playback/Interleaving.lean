import Replay.Proofs.Playback.RenderedLoop
import Replay.Proofs.Playback.Stretches

/-!
# Interleavings

The step behind a wait for a render is queued as soon as the stretch that the wait ends is begun. A
signal that a render is complete therefore begins the next stretch, whether or not playback has come
to the wait by then, and whether or not it has failed before. So stretches overlap. Within each of
them order is kept, and no step is played twice.

* `Solo.Weave` — where an action without loops is, while its stretches overlap
* `Solo.Weave.of_unfolds` — it stays so, whatever the order of looks and signals
* `Session.interleaved_in_stretches` — what is kept by every interleaving, and what by signals that
  come in turn
* `earlySignal_overtakes` — a command is overtaken by a later one
-/

set_option autoImplicit false

namespace Replay

variable {σ : Type}

namespace Solo

variable (k : Solo σ)

/-! ## The steps of an action, stretch by stretch -/

/-- The steps that are played, without their flags. -/
def score : List Step := k.steps.map Step.calm

/-- The steps of a stretch that have been come to, without their flags. -/
def played (c : Nat) (takes : List Take) : List Step :=
  ((Take.allSteps takes).map Step.calm).filter fun step => step ∈ Step.stretch c k.score

/-- The stretch that a resumption is in. -/
def lane (r : Resumption) : Nat := Step.renders k.score - Step.renders r.steps

theorem score_nodup : k.score.Nodup := by
  have hids : (k.score.map Step.id).Nodup := by
    have hsub : (k.steps.map Step.id).Sublist (k.action.steps.map Step.id) :=
      List.filter_sublist.map Step.id
    simpa [score, Function.comp_def] using hsub.nodup k.distinct
  exact List.Pairwise.of_map Step.id (fun _ _ hne heq => hne (congrArg Step.id heq)) hids

variable {k}

theorem played_concat (c : Nat) (takes : List Take) (take : Take) :
    k.played c (takes ++ [take]) = k.played c takes ++
      (take.steps.map Step.calm).filter fun step => step ∈ Step.stretch c k.score := by
  simp [played, Take.allSteps]

/-- Steps of one stretch belong to that stretch and to no other one. -/
theorem filter_stretch {c : Nat} {run : List Step} (h : ∀ step ∈ run, step ∈ Step.stretch c k.score)
    (c' : Nat) : (run.filter fun step => step ∈ Step.stretch c' k.score) =
      if c' = c then run else [] := by
  split
  · rename_i heq
    subst heq
    exact List.filter_eq_self.mpr fun step hstep => decide_eq_true (h step hstep)
  · rename_i hne
    refine List.filter_eq_nil_iff.mpr fun step hstep hin => hne ?_
    exact Step.stretch_disjoint k.score_nodup (of_decide_eq_true hin) (h step hstep)

/-- A resumption without loops around it, somewhere in a stretch that has been begun. What has been
come to of the stretch and what is left of it make the whole stretch. -/
structure Token (k : Solo σ) (waits : List RenderWait) (front : Nat) (takes : List Take)
    (r : Resumption) : Prop where
  owns : k.Owns r
  frames : r.frames = []
  suffix : r.steps.map Step.calm <:+ k.score
  begun : k.lane r ≤ front
  traced : k.played (k.lane r) takes ++ Step.stretch 0 (r.steps.map Step.calm) =
    Step.stretch (k.lane r) k.score
  fresh : r.fresh = true → k.lane r = front ∧ waits = []

/-- **Where an action without loops is while its stretches overlap.** The stretches up to `front`
have been begun. Each of the resumptions is in one of them, no two in the same; the step behind the
last of these stretches may be queued. -/
structure Weave (k : Solo σ) (tokens : List Resumption) (waits : List RenderWait) (front : Nat)
    (takes : List Take) : Prop where
  token : ∀ r ∈ tokens, k.Token waits front takes r
  apart : tokens.Pairwise fun r r' => k.lane r ≠ k.lane r'
  ordered : ∀ c, k.played c takes <+: Step.stretch c k.score
  unbegun : ∀ c, front < c → k.played c takes = []
  known : ∀ step ∈ Take.allSteps takes, step.calm ∈ k.score
  queued : waits = [] ∨ ∃ before wait step rest,
    waits = [⟨k.collection, k.actionId, step.id⟩] ∧ k.score = before ++ wait :: step :: rest ∧
      wait.awaitsRender = true ∧ Step.renders before = front
  /-- A stretch in which a step has failed is not gone on with. -/
  stopped : ∀ earlier take later, takes = earlier ++ take :: later → take.fails = true →
    ∀ c, (∃ step ∈ take.steps, step.calm ∈ Step.stretch c k.score) →
      (∀ r ∈ tokens, k.lane r ≠ c) ∧
        ∀ step ∈ Take.allSteps later, step.calm ∉ Step.stretch c k.score

/-! ## One turn -/

/-- The action as it is found after alerts have been raised. -/
def flagged {l : Library} {a : Action} (found : l.action? k.collection k.actionId = some a)
    (rise : k.action.AlertsRise a) : Solo σ :=
  { k with library := l, action := a, found := found, distinct := rise.map_id ▸ k.distinct }

theorem score_flagged {l : Library} {a : Action}
    (found : l.action? k.collection k.actionId = some a) (rise : k.action.AlertsRise a) :
    (flagged found rise).score = k.score := rise.calm_steps

theorem lane_eq {before : List Step} {r : Resumption}
    (split : before ++ r.steps.map Step.calm = k.score) : k.lane r = Step.renders before := by
  rw [lane, ← split, Step.renders_append, Step.renders_calm]
  omega

/-- What a turn in a stretch does: it comes to the next steps of the stretch, and if it is to go on,
then with the steps that are left. -/
structure Stint (k : Solo σ) (r : Resumption) (take : Take)
    (new : List (TimetableEntry Resumption)) : Prop where
  next : ∃ rest, Step.stretch 0 (r.steps.map Step.calm) = take.steps.map Step.calm ++ rest
  one : new.length ≤ 1
  owns : ∀ e ∈ new, k.Owns e.payload
  frames : ∀ e ∈ new, e.payload.frames = []
  stale : ∀ e ∈ new, e.payload.fresh = false
  left : ∀ e ∈ new, r.steps = take.steps ++ e.payload.steps
  plain : ∀ e ∈ new, ∀ step ∈ take.steps, step.awaitsRender = false
  fails : take.fails = true → new = []

/-- A turn after which nothing is to go on. -/
theorem Stint.of_ended {r : Resumption} {take : Take}
    (next : ∃ rest, Step.stretch 0 (r.steps.map Step.calm) = take.steps.map Step.calm ++ rest) :
    k.Stint r take [] :=
  ⟨next, by simp, by simp, by simp, by simp, by simp, by simp, fun _ => rfl⟩

theorem Token.flat {waits : List RenderWait} {front : Nat} {takes : List Take} {r : Resumption}
    (h : k.Token waits front takes r) (flat : ∀ step ∈ k.score, step.bracket ≠ .opens) :
    ∀ step ∈ r.steps, step.bracket ≠ .opens :=
  fun step hstep => flat step.calm (h.suffix.mem (List.mem_map_of_mem hstep))

theorem Token.headed {waits : List RenderWait} {front : Nat} {takes : List Take} {r : Resumption}
    (h : k.Token waits front takes r) (flat : ∀ step ∈ k.score, step.bracket ≠ .opens) :
    Headed r.frames r.steps r.steps := by
  rw [h.frames]
  exact ⟨.here, .of_no_opening (h.flat flat), .inl rfl⟩

theorem exists_stint (flat : ∀ step ∈ k.score, step.bracket ≠ .opens) {waits : List RenderWait}
    {front : Nat} {takes : List Take} {r : Resumption} (token : k.Token waits front takes r)
    {s s' : Session σ} {events : List Event} {result : Result}
    (h : Plays k.rig (.drive r) s events result s')
    (found : ∃ a, s.library.action? r.collection r.actionId = some a) (turn : Turn) :
    ∃ new, s'.timetable = s.timetable.extended new ∧ k.Stint r ⟨turn, events, result⟩ new := by
  have hflat := token.flat flat
  have hstrides := h.strides (token.headed flat) found
  have hcalm : ∀ {run : List Step}, (∀ step ∈ run, step.awaitsRender = false) →
      ∀ step ∈ run.map Step.calm, step.awaitsRender = false := by simp
  generalize ht : s'.timetable = t' at hstrides ⊢
  generalize hrun : events.map Event.step = run at hstrides
  generalize hsteps : r.steps = steps at hstrides
  have htake : (Take.mk turn events result).steps = run := hrun
  cases hstrides with
  | finished _ plain =>
    refine ⟨[], (Timetable.extended_nil _).symm, .of_ended ⟨[], ?_⟩⟩
    rw [hsteps, htake]
    simpa [Step.stretch] using Step.stretch_of_plain (hcalm plain) []
  | failed _ left plain =>
    refine ⟨[], (Timetable.extended_nil _).symm,
      .of_ended ⟨Step.stretch 0 (left.map Step.calm), ?_⟩⟩
    rw [hsteps, htake, List.map_append]
    exact Step.stretch_of_plain (hcalm plain) _
  | @rendered run wait left plain renders =>
    have hrenders : wait.calm.awaitsRender = true := renders
    refine ⟨[], (Timetable.extended_nil _).symm, .of_ended ⟨[], ?_⟩⟩
    rw [hsteps, htake, List.map_append, List.map_cons, List.map_append, List.map_singleton,
      Step.stretch_of_render (hcalm plain) hrenders, List.append_nil]
  | @timed run timer left entry plain silent continues within =>
    have hplain : ∀ step ∈ run ++ [timer], step.awaitsRender = false :=
      List.forall_mem_append.mpr ⟨plain, List.forall_mem_singleton.mpr silent⟩
    have hframes : entry.payload.frames = [] :=
      (within fun step hstep => hflat step (by simp [hsteps, hstep])).trans token.frames
    have hleft : entry.payload.steps = left := by
      have hahead := continues.headed.ahead
      rw [hframes] at hahead
      cases hahead
      rfl
    have howns : k.Owns entry.payload := ⟨continues.collection.trans token.owns.collection,
      continues.actionId.trans token.owns.actionId, continues.depth ▸ token.owns.shallow⟩
    refine ⟨[entry], rfl, ⟨⟨Step.stretch 0 (left.map Step.calm), ?_⟩, by simp, by simpa using howns,
      by simpa using hframes, by simpa using continues.stale, ?_, ?_,
      fun hfails => absurd hfails Bool.false_ne_true⟩⟩
    · rw [hsteps, htake, List.append_cons, List.map_append]
      exact Step.stretch_of_plain (hcalm hplain) _
    · rw [htake]
      simp [hsteps, hleft]
    · rw [htake]
      exact fun _ _ => hplain

namespace Stint

variable {waits : List RenderWait} {front : Nat} {takes : List Take} {r r' : Resumption}
  {take : Take} {new : List (TimetableEntry Resumption)}

/-- What has been come to of the stretch by now, and what is left of it. -/
theorem traced (h : k.Stint r take new) (token : k.Token waits front takes r) :
    ∃ rest, k.played (k.lane r) takes ++ take.steps.map Step.calm ++ rest =
      Step.stretch (k.lane r) k.score := by
  obtain ⟨rest, hrest⟩ := h.next
  exact ⟨rest, by rw [List.append_assoc, ← hrest, token.traced]⟩

theorem within (h : k.Stint r take new) (token : k.Token waits front takes r) :
    ∀ step ∈ take.steps, step.calm ∈ Step.stretch (k.lane r) k.score := by
  intro step hstep
  obtain ⟨rest, htraced⟩ := h.traced token
  rw [← htraced]
  exact List.mem_append_left _ (List.mem_append_right _ (List.mem_map_of_mem hstep))

/-- A turn adds to its stretch and to no other one. -/
theorem played (h : k.Stint r take new) (token : k.Token waits front takes r) (c : Nat) :
    k.played c (takes ++ [take]) =
      k.played c takes ++ if c = k.lane r then take.steps.map Step.calm else [] := by
  have hwithin : ∀ step ∈ take.steps.map Step.calm, step ∈ Step.stretch (k.lane r) k.score := by
    simpa using h.within token
  rw [played_concat, filter_stretch hwithin]

theorem lane (h : k.Stint r take new) (token : k.Token waits front takes r)
    {e : TimetableEntry Resumption} (he : e ∈ new) : k.lane e.payload = k.lane r := by
  obtain ⟨before, hsplit⟩ := token.suffix
  have hsplit' : (before ++ take.steps.map Step.calm) ++ e.payload.steps.map Step.calm =
      k.score := by
    rw [← hsplit, h.left e he, List.map_append, List.append_assoc]
  rw [lane_eq hsplit, lane_eq hsplit', Step.renders_append, Step.renders_calm,
    Step.renders_of_none (h.plain e he), Nat.add_zero]

/-- What is to go on is in the same stretch. -/
theorem token (h : k.Stint r take new) (token : k.Token waits front takes r)
    {e : TimetableEntry Resumption} (he : e ∈ new) (waits' : List RenderWait) :
    k.Token waits' front (takes ++ [take]) e.payload := by
  have hlane := h.lane token he
  have hcalm : ∀ step ∈ take.steps.map Step.calm, step.awaitsRender = false := by
    simpa using h.plain e he
  refine ⟨h.owns e he, h.frames e he, ?_, hlane ▸ token.begun, ?_, by simp [h.stale e he]⟩
  · refine List.IsSuffix.trans ?_ token.suffix
    rw [h.left e he, List.map_append]
    exact List.suffix_append _ _
  · rw [h.played token, if_pos hlane, hlane, ← token.traced, h.left e he, List.map_append,
      Step.stretch_of_plain hcalm, List.append_assoc]

/-- What is in another stretch stays there. -/
theorem others (h : k.Stint r take new) (token : k.Token waits front takes r)
    (other : k.Token waits front takes r') (apart : k.lane r ≠ k.lane r')
    {waits' : List RenderWait} (queued : waits' = waits ∨ r.fresh = true) :
    k.Token waits' front (takes ++ [take]) r' := by
  refine ⟨other.owns, other.frames, other.suffix, other.begun, ?_, fun hfresh => ?_⟩
  · rw [h.played token, if_neg apart.symm, List.append_nil, other.traced]
  · obtain ⟨hfront, hnone⟩ := other.fresh hfresh
    rcases queued with rfl | hfresh'
    · exact ⟨hfront, hnone⟩
    · exact absurd ((token.fresh hfresh').1.trans hfront.symm) apart

end Stint

/-- What a turn in a stretch leaves in the queue: what was there, or the entry of the next stretch.
-/
theorem queued_of_plays {waits : List RenderWait} {front : Nat} {takes : List Take} {r : Resumption}
    (token : k.Token waits front takes r) {s s' : Session σ} (waiting : s.waits = waits)
    {a : Action} (found : s.library.action? k.collection k.actionId = some a)
    (rise : k.action.AlertsRise a) {events : List Event} {result : Result}
    (h : Plays k.rig (.drive r) s events result s') :
    s'.waits = waits ∨ r.fresh = true ∧ ∃ before wait step rest,
      s'.waits = [⟨k.collection, k.actionId, step.id⟩] ∧
      k.score = before ++ wait :: step :: rest ∧ wait.awaitsRender = true ∧
      Step.renders before = front := by
  let k' : Solo σ := flagged found rise
  have howns : k'.Owns r := ⟨token.owns.collection, token.owns.actionId, token.owns.shallow⟩
  have hwaits : s'.waits = (s.announce r).waits := ((howns.drive_iff rfl).mp h).waits_eq rfl
  cases hfresh : r.fresh with
  | false => exact .inl (by rw [hwaits, Session.announce_of_not_fresh hfresh, waiting])
  | true =>
    obtain ⟨hlane, rfl⟩ := token.fresh hfresh
    rw [Session.announce, if_pos hfresh] at hwaits
    cases hnext : Step.afterRender? r.steps with
    | none => exact .inl (by rw [hwaits, hnext, waiting])
    | some next =>
      obtain ⟨run, wait, rest, hsteps, plain, hrender⟩ := Step.afterRender?_eq_some.mp hnext
      obtain ⟨before, hsplit⟩ := token.suffix
      have hrun : Step.renders (run.map Step.calm) = 0 := by
        rw [Step.renders_calm, Step.renders_of_none plain]
      refine .inr ⟨rfl, before ++ run.map Step.calm, wait.calm, next.calm, rest.map Step.calm,
        ?_, ?_, hrender, ?_⟩
      · rw [hwaits, hnext]
        simp [Session.await, waiting, token.owns.collection, token.owns.actionId]
      · rw [← hsplit, hsteps]
        simp
      · rw [Step.renders_append, hrun, ← lane_eq hsplit, hlane, Nat.add_zero]

/-- **A turn keeps order in its stretch, and leaves the others alone.** -/
theorem Weave.turn (flat : ∀ step ∈ k.score, step.bracket ≠ .opens) {tokens : List Resumption}
    {front : Nat} {takes : List Take} {r : Resumption} {s s' : Session σ} {events : List Event}
    {result : Result} (h : k.Weave (r :: tokens) s.waits front takes)
    (rise : k.library.AlertsRise s.library) (plays : Plays k.rig (.drive r) s events result s')
    (turn : Turn) :
    ∃ new, s'.timetable = s.timetable.extended new ∧
      k.Weave (tokens ++ new.map TimetableEntry.payload) s'.waits front
        (takes ++ [⟨turn, events, result⟩]) := by
  obtain ⟨token, others⟩ := List.forall_mem_cons.mp h.token
  obtain ⟨alone, apart⟩ := List.pairwise_cons.mp h.apart
  obtain ⟨action, found, hrise⟩ := rise.action? k.found
  have hfound : ∃ a, s.library.action? r.collection r.actionId = some a :=
    ⟨action, by rw [token.owns.collection, token.owns.actionId, found]⟩
  obtain ⟨new, hnew, stint⟩ := exists_stint flat token plays hfound turn
  have hqueued := queued_of_plays token rfl found hrise plays
  refine ⟨new, hnew, ?_, ?_, ?_, ?_, ?_, ?_, ?_⟩
  · intro r' hr'
    rcases List.mem_append.mp hr' with hr' | hr'
    · exact stint.others token (others r' hr') (alone r' hr') (hqueued.imp_right And.left)
    · obtain ⟨e, he, rfl⟩ := List.mem_map.mp hr'
      exact stint.token token he _
  · refine List.pairwise_append.mpr ⟨apart, ?_, ?_⟩
    · match new, stint.one with
      | [], _ => exact .nil
      | [e], _ => exact List.pairwise_singleton _ _
    · intro r' hr' r'' hr''
      obtain ⟨e, he, rfl⟩ := List.mem_map.mp hr''
      rw [stint.lane token he]
      exact (alone r' hr').symm
  · intro c
    rw [stint.played token]
    split
    · rename_i heq
      subst heq
      exact stint.traced token
    · rw [List.append_nil]
      exact h.ordered c
  · intro c hc
    have hne : c ≠ k.lane r := Nat.ne_of_gt (Nat.lt_of_le_of_lt token.begun hc)
    rw [stint.played token, if_neg hne, h.unbegun c hc, List.append_nil]
  · intro step hstep
    rw [Take.allSteps, List.flatMap_append] at hstep
    rcases List.mem_append.mp hstep with hstep | hstep
    · exact h.known step hstep
    · rw [List.flatMap_singleton] at hstep
      exact (Step.stretch_sublist _ _).mem (stint.within token step hstep)
  · rcases hqueued with hsame | ⟨-, hnext⟩
    · rw [hsame]
      exact h.queued
    · exact .inr hnext
  · intro earlier t later hsplit hfailed c hc
    rcases List.eq_nil_or_concat later with rfl | ⟨later, last, rfl⟩
    · -- the turn itself has failed
      obtain ⟨-, ht⟩ := List.append_inj' hsplit rfl
      cases ht
      obtain ⟨step, hstep, hin⟩ := hc
      obtain rfl := Step.stretch_disjoint k.score_nodup hin (stint.within token step hstep)
      rw [stint.fails hfailed, List.map_nil, List.append_nil]
      exact ⟨fun r' hr' => (alone r' hr').symm, by simp [Take.allSteps]⟩
    · rw [List.concat_eq_append] at hsplit ⊢
      rw [← List.cons_append, ← List.append_assoc] at hsplit
      obtain ⟨hearlier, hlast⟩ := List.append_inj' hsplit rfl
      cases hlast
      obtain ⟨hlanes, hlater⟩ := h.stopped earlier t later hearlier hfailed c hc
      obtain ⟨hlane, hlanes⟩ := List.forall_mem_cons.mp hlanes
      refine ⟨fun r' hr' => ?_, fun step hstep => ?_⟩
      · rcases List.mem_append.mp hr' with hr' | hr'
        · exact hlanes r' hr'
        · obtain ⟨e, he, rfl⟩ := List.mem_map.mp hr'
          rwa [stint.lane token he]
      · rw [Take.allSteps, List.flatMap_append] at hstep
        rcases List.mem_append.mp hstep with hstep | hstep
        · exact hlater step hstep
        · rw [List.flatMap_singleton] at hstep
          exact fun hin => hlane
            (Step.stretch_disjoint k.score_nodup (stint.within token step hstep) hin)

theorem Weave.perm {tokens tokens' : List Resumption} {waits : List RenderWait} {front : Nat}
    {takes : List Take} (h : k.Weave tokens waits front takes) (perm : tokens.Perm tokens') :
    k.Weave tokens' waits front takes where
  token r hr := h.token r (perm.mem_iff.mpr hr)
  apart := (perm.pairwise_iff fun hne => Ne.symm hne).mp h.apart
  ordered := h.ordered
  unbegun := h.unbegun
  known := h.known
  queued := h.queued
  stopped earlier take later hsplit hfailed c hc := by
    obtain ⟨hlanes, hlater⟩ := h.stopped earlier take later hsplit hfailed c hc
    exact ⟨fun r hr => hlanes r (perm.mem_iff.mpr hr), hlater⟩

end Solo

/-! ## Cue after cue -/

/-- What is scheduled. -/
def Session.scheduled (s : Session σ) : List Resumption :=
  s.timetable.waiting.map TimetableEntry.payload

/-- Looks and signals come in any order, and nothing else is played. -/
inductive Cue.Unplayed (takes : List Take) (s : Session σ) : Cue → Prop
  | look {now} : Unplayed takes s (.look now)
  | rendered : Unplayed takes s .rendered

theorem Timetable.takeDue_perm (t : Timetable Resumption) (now : Time) :
    ((t.takeDue now).1 ++ (t.takeDue now).2.waiting).Perm t.waiting := by
  have hsorted := List.mergeSort_perm (t.waiting.filter (TimetableEntry.isDue now))
    TimetableEntry.precedes
  exact (hsorted.append_right _).trans (List.filter_append_perm _ _)

namespace Solo

variable {k : Solo σ} {front : Nat} {takes new : List Take} {s s' : Session σ} {r : Resumption}
  {rs : List Resumption}

/-- A resumption is taken up. -/
theorem Weave.taken (flat : ∀ step ∈ k.score, step.bracket ≠ .opens)
    (h : k.Weave (r :: rs ++ s.scheduled) s.waits front takes)
    (rise : k.library.AlertsRise s.library) {events : List Event} {result : Result}
    (plays : Plays k.rig (.drive r) s events result s') (turn : Turn) :
    k.Weave (rs ++ s'.scheduled) s'.waits front (takes ++ [⟨turn, events, result⟩]) := by
  obtain ⟨added, hadded, weave⟩ := h.turn flat rise plays turn
  have hscheduled : s'.scheduled = s.scheduled ++ added.map TimetableEntry.payload := by
    rw [Session.scheduled, hadded, Timetable.extended, List.map_append]
    rfl
  rw [hscheduled, ← List.append_assoc]
  exact weave

/-- What is due comes first. -/
theorem Weave.due (h : k.Weave s.scheduled s.waits front takes) (now : Time) :
    k.Weave ((s.timetable.takeDue now).1.map TimetableEntry.payload ++
      { s with timetable := (s.timetable.takeDue now).2 }.scheduled) s.waits front takes := by
  refine h.perm ?_
  rw [Session.scheduled, Session.scheduled, ← List.map_append]
  exact ((Timetable.takeDue_perm s.timetable now).map _).symm

/-- **Resumptions that are taken up one after the other keep order in their stretches.** -/
theorem Weave.of_resumes (flat : ∀ step ∈ k.score, step.bracket ≠ .opens)
    (h : Resumes k.rig rs s new s') : ∀ {takes},
    k.Weave (rs ++ s.scheduled) s.waits front takes → k.library.AlertsRise s.library →
      k.Weave s'.scheduled s'.waits front (takes ++ new) := by
  induction h with
  | nothing =>
    intro takes weave _
    rwa [List.append_nil]
  | @dropped r rest s new s' missing _ _ =>
    intro takes weave rise
    obtain ⟨token, -⟩ := List.forall_mem_cons.mp weave.token
    obtain ⟨action, found, -⟩ := rise.action? k.found
    rw [token.owns.collection, token.owns.actionId, found] at missing
    cases missing
  | @taken r rest s action events result s₁ new s' _ plays _ ih =>
    intro takes weave rise
    have := ih (weave.taken flat rise plays (.resume r)) (rise.trans plays.alertsRise)
    rwa [List.append_assoc] at this

/-- They come to an end. -/
theorem Weave.exists_resumes (flat : ∀ step ∈ k.score, step.bracket ≠ .opens) :
    ∀ {rs takes s}, k.Weave (rs ++ s.scheduled) s.waits front takes →
      k.library.AlertsRise s.library → ∃ new s', Resumes k.rig rs s new s' := by
  intro rs
  induction rs with
  | nil => exact fun _ _ => ⟨_, _, .nothing⟩
  | cons r rest ih =>
    intro takes s weave rise
    obtain ⟨token, -⟩ := List.forall_mem_cons.mp weave.token
    obtain ⟨action, found, hrise⟩ := rise.action? k.found
    let k' : Solo σ := flagged found hrise
    have howns : k'.Owns r := ⟨token.owns.collection, token.owns.actionId, token.owns.shallow⟩
    have hfound : s.library.action? r.collection r.actionId = some action := howns.found rfl
    have hfound' : (s.announce r).library.action? r.collection r.actionId = some action := by
      rwa [Session.announce_library]
    obtain ⟨events, result, s₁, hwalk⟩ : ∃ events result s₁,
        Plays k.rig (.walk (k'.leg r s.host) r.steps) (s.announce r) events result s₁ :=
      (token.headed flat).exists_plays _ rfl howns.shallow ⟨action, hfound'⟩
    have plays : Plays k.rig (.drive r) s events result s₁ := (howns.drive_iff rfl).mpr hwalk
    obtain ⟨new, s', hresumes⟩ :=
      ih (weave.taken flat rise plays (.resume r)) (rise.trans plays.alertsRise)
    exact ⟨_, s', .taken hfound plays hresumes⟩

/-- The next stretch is begun. -/
theorem Weave.next {tokens : List Resumption} {w : RenderWait}
    (h : k.Weave tokens [w] front takes) {before rest : List Step} {wait : Step}
    (score : k.score = before ++ wait :: rest) (renders : wait.awaitsRender = true)
    (last : Step.renders before = front) (owns : k.Owns r) (frames : r.frames = [])
    (steps : r.steps.map Step.calm = rest) : k.Weave (tokens ++ [r]) [] (front + 1) takes := by
  have hsplit : (before ++ [wait]) ++ r.steps.map Step.calm = k.score := by
    rw [score, steps, List.append_assoc]
    rfl
  have hlane : k.lane r = front + 1 := by
    rw [lane_eq hsplit, Step.renders_append, last]
    simp [Step.renders, renders]
  have hnew : k.Token [] (front + 1) takes r := by
    refine ⟨owns, frames, ⟨_, hsplit⟩, Nat.le_of_eq hlane, ?_, fun _ => ⟨hlane, rfl⟩⟩
    rw [hlane, h.unbegun _ (Nat.lt_succ_self front), List.nil_append, score, ← last,
      Step.stretch_behind renders, steps]
  have hbehind : ∀ r' ∈ tokens, k.lane r' ≠ front + 1 :=
    fun r' hr' => Nat.ne_of_lt (Nat.lt_succ_of_le (h.token r' hr').begun)
  refine ⟨?_, ?_, h.ordered, fun c hc => h.unbegun c (Nat.lt_of_succ_lt hc), h.known, .inl rfl, ?_⟩
  · intro r' hr'
    rcases List.mem_append.mp hr' with hr' | hr'
    · have token := h.token r' hr'
      exact ⟨token.owns, token.frames, token.suffix, Nat.le_succ_of_le token.begun, token.traced,
        fun hfresh => absurd (token.fresh hfresh).2 (List.cons_ne_nil w [])⟩
    · obtain rfl := List.mem_singleton.mp hr'
      exact hnew
  · refine List.pairwise_append.mpr ⟨h.apart, List.pairwise_singleton _ _, ?_⟩
    intro r' hr' r'' hr''
    rw [List.mem_singleton.mp hr'', hlane]
    exact hbehind r' hr'
  · intro earlier take later hsplit hfailed c hc
    obtain ⟨hlanes, hlater⟩ := h.stopped earlier take later hsplit hfailed c hc
    refine ⟨fun r' hr' => ?_, hlater⟩
    rcases List.mem_append.mp hr' with hr' | hr'
    · exact hlanes r' hr'
    · -- no step of the stretch that is begun has been come to
      rw [List.mem_singleton.mp hr', hlane]
      rintro rfl
      obtain ⟨step, hstep, hin⟩ := hc
      have hplayed : step.calm ∈ k.played (front + 1) takes := by
        refine List.mem_filter.mpr ⟨List.mem_map_of_mem ?_, decide_eq_true hin⟩
        rw [hsplit]
        exact List.mem_flatMap.mpr ⟨take, by simp, hstep⟩
      rw [h.unbegun _ (Nat.lt_succ_self front)] at hplayed
      cases hplayed

/-- A signal begins the next stretch, if the step behind its wait is queued. -/
theorem Weave.of_rendered (weave : k.Weave s.scheduled s.waits front takes)
    (rise : k.library.AlertsRise s.library) :
    ∃ front', k.Weave (s.renderComplete k.rig).2.scheduled (s.renderComplete k.rig).2.waits front'
      takes := by
  rcases weave.queued with hnone | ⟨before, wait, step, rest, hwaits, hscore, hrender, hfront⟩
  · rw [renderComplete_of_nil (k := k) hnone]
    exact ⟨front, weave⟩
  obtain ⟨action, found, hrise⟩ := rise.action? k.found
  let k' : Solo σ := flagged found hrise
  have hscore' : k'.steps.map Step.calm = before ++ wait :: step :: rest := by
    rw [← hscore]
    exact score_flagged found hrise
  obtain ⟨before', behind, hsteps, -, hbehind⟩ := List.map_eq_append_iff.mp hscore'
  obtain ⟨wait', behind, rfl, -, hbehind⟩ := List.map_eq_cons_iff.mp hbehind
  obtain ⟨step', rest', rfl, rfl, hrest⟩ := List.map_eq_cons_iff.mp hbehind
  have hsuffix : step' :: rest' <:+ k'.steps := ⟨before' ++ [wait'], by simp [hsteps]⟩
  have hsteps' : (k'.start (step' :: rest')).steps = step' :: rest' := start_of_suffix hsuffix
  rw [hwaits] at weave
  refine ⟨front + 1, ?_⟩
  have hreleased := renderComplete_of_queue (k := k') (s := s) rfl hsuffix hwaits
  rw [show (s.renderComplete k.rig).2 = _ from hreleased]
  have hscheduled : (Session.suspend k'.rig { s with waits := [] } (k'.start (step' :: rest'))
      k'.rig.settings.resumeSpan).scheduled = s.scheduled ++ [k'.start (step' :: rest')] := by
    rw [Session.scheduled, Session.suspend_timetable, Timetable.extended, List.map_append]
    rfl
  rw [hscheduled]
  have hahead : (k'.start (step' :: rest')).steps.map Step.calm = step'.calm :: rest := by
    rw [hsteps', List.map_cons, hrest]
  exact weave.next hscore hrender hfront ⟨rfl, rfl, Nat.zero_le _⟩ rfl hahead

/-- The beginning of the action. -/
theorem Weave.start (k : Solo σ) : k.Weave [k.start k.action.steps] [] 0 [] := by
  have hall : [] ++ (k.start k.action.steps).steps.map Step.calm = k.score := rfl
  have hlane : k.lane (k.start k.action.steps) = 0 := lane_eq hall
  refine ⟨List.forall_mem_singleton.mpr ?_, List.pairwise_singleton _ _, fun c => List.nil_prefix,
    fun _ _ => rfl, nofun, .inl rfl, ?_⟩
  · refine ⟨k.owns_start _, rfl, List.suffix_rfl, Nat.le_of_eq hlane, ?_, fun _ => ⟨hlane, rfl⟩⟩
    rw [hlane]
    rfl
  · intro earlier take later hsplit
    simp at hsplit

/-- Playing the action begins its first stretch. -/
theorem Weave.of_play (flat : ∀ step ∈ k.score, step.bracket ≠ .opens)
    (idle : s.timetable.waiting = []) (waits : s.waits = []) (library : s.library = k.library)
    {events : List Event} {result : Result}
    (h : (Turn.play k.collection k.actionId).Plays k.rig s events result s') :
    k.Weave s'.scheduled s'.waits 0 [⟨.play k.collection k.actionId, events, result⟩] ∧
      k.library.AlertsRise s'.library := by
  have drives := Relay.drives_of_play library h
  have hscheduled : s.scheduled = [] := by rw [Session.scheduled, idle, List.map_nil]
  have hstart : k.Weave (k.start k.action.steps :: [] ++ s.scheduled) s.waits 0 [] := by
    rw [hscheduled, waits]
    exact .start k
  have rise : k.library.AlertsRise s.library := library ▸ .refl _
  exact ⟨hstart.taken flat rise drives _, rise.trans drives.alertsRise⟩

/-- **However looks and signals come, the stretches of an action stay apart.** -/
theorem Weave.of_unfolds (flat : ∀ step ∈ k.score, step.bracket ≠ .opens) {earlier : List Take}
    {s₀ : Session σ} (h : Unfolds k.rig Cue.Unplayed earlier s₀ takes s)
    (rise : k.library.AlertsRise s₀.library) (weave : k.Weave s₀.scheduled s₀.waits front earlier) :
    ∃ front', k.Weave s.scheduled s.waits front' takes := by
  induction h with
  | start => exact ⟨front, weave⟩
  | @cue takes s new s' cue before allows runs ih =>
    obtain ⟨front', weave'⟩ := ih
    have rise' : k.library.AlertsRise s.library := rise.trans before.alertsRise
    cases allows with
    | @look now =>
      cases runs with
      | look resumes =>
        exact ⟨front', Weave.of_resumes flat resumes (weave'.due now) rise'⟩
    | rendered =>
      cases runs
      rw [List.append_nil]
      exact weave'.of_rendered rise'

/-- Every look comes to an end. -/
theorem Weave.look_runs (flat : ∀ step ∈ k.score, step.bracket ≠ .opens)
    (weave : k.Weave s.scheduled s.waits front takes) (rise : k.library.AlertsRise s.library)
    (now : Time) : ∃ new s', (Cue.look now).Runs k.rig s new s' := by
  obtain ⟨new, s', hresumes⟩ := Weave.exists_resumes flat
    (s := { s with timetable := (s.timetable.takeDue now).2 }) (weave.due now) rise
  exact ⟨new, s', .look hresumes⟩

end Solo

/-! ## What every interleaving keeps -/

/-- What some turns have come to of the steps of an action, whatever the order of their cues: no
step twice, of each stretch the first steps, and of no stretch a step behind a failure in it. -/
structure InStretches (steps : List Step) (takes : List Take) : Prop where
  once : ((Take.allSteps takes).map Step.calm).Nodup
  known : ∀ step ∈ Take.allSteps takes, step.calm ∈ steps
  ordered : ∀ c, (((Take.allSteps takes).map Step.calm).filter fun step =>
    step ∈ Step.stretch c steps) <+: Step.stretch c steps
  stopped : ∀ earlier take later, takes = earlier ++ take :: later → take.fails = true →
    ∀ c, (∃ step ∈ take.steps, step.calm ∈ Step.stretch c steps) →
      ∀ step ∈ Take.allSteps later, step.calm ∉ Step.stretch c steps

theorem Solo.Weave.inStretches {k : Solo σ} {tokens : List Resumption} {waits : List RenderWait}
    {front : Nat} {takes : List Take} (h : k.Weave tokens waits front takes) :
    InStretches k.score takes := by
  have hstopped := fun earlier take later hsplit hfailed c hc =>
    (h.stopped earlier take later hsplit hfailed c hc).2
  refine ⟨List.nodup_iff_count.mpr fun step => ?_, h.known, h.ordered, hstopped⟩
  by_cases hstep : step ∈ (Take.allSteps takes).map Step.calm
  · obtain ⟨original, horiginal, rfl⟩ := List.mem_map.mp hstep
    obtain ⟨c, hc⟩ := Step.exists_stretch (h.known original horiginal)
    have hplayed : (k.played c takes).Nodup :=
      (h.ordered c).sublist.nodup ((Step.stretch_sublist _ c).nodup k.score_nodup)
    rw [← List.count_filter (p := fun step => step ∈ Step.stretch c k.score) (decide_eq_true hc)]
    exact List.nodup_iff_count.mp hplayed _
  · rw [List.count_eq_zero_of_not_mem hstep]
    exact Nat.zero_le 1

/-- **Order is kept in every stretch, and between stretches by signals that come in turn.** Let an
action without loops be played on its own. However looks at the timetable and signals that a render
is complete come after that, every look ends; no step is come to twice; and in each of the stretches
between two waits for a render, steps are come to in order and none behind a failure. If signals
come only when nothing is scheduled and nothing has failed, then the commands that have been run are
the first commands of the action, and nothing comes behind a failure. -/
theorem Session.interleaved_in_stretches (rig : Rig σ) (s : Session σ)
    (idle : s.timetable.waiting = []) (quiet : s.waits = []) {collection : Collection} {id : String}
    {action : Action} (found : s.library.action? collection id = some action)
    (distinct : (action.steps.map Step.id).Nodup)
    (flat : ∀ step ∈ action.steps.filter Step.active, step.bracket ≠ .opens) :
    (∃ budget result s₁, s.play rig budget collection id = .ofResult result s₁) ∧
    ∀ events result s₁, (Turn.play collection id).Plays rig s events result s₁ →
      (∀ takes s₂, Unfolds rig Cue.Unplayed [⟨.play collection id, events, result⟩] s₁ takes s₂ →
        InStretches ((action.steps.filter Step.active).map Step.calm) takes ∧
        ∀ now, ∃ new s₃, (Cue.look now).Runs rig s₂ new s₃) ∧
      ∀ takes s₂, Unfolds rig Cue.InTurn [⟨.play collection id, events, result⟩] s₁ takes s₂ →
        Take.commands takes <+: Step.commands (action.steps.filter Step.active) ∧
        ∀ earlier take later, takes = earlier ++ take :: later → take.fails = true → later = [] := by
  let k : Solo σ := ⟨rig, s.library, collection, id, action, found, distinct⟩
  have hruns := Relay.straight_runs k (.of_no_opening flat) s.host
  have hflat : ∀ step ∈ k.score, step.bracket ≠ .opens := List.forall_mem_map.mpr flat
  refine ⟨Relay.play_ends rfl hruns, fun events result s₁ hplays =>
    ⟨fun takes s₂ hunfolds => ?_, fun takes s₂ hunfolds => ?_⟩⟩
  · obtain ⟨hplayed, hrise⟩ := Solo.Weave.of_play hflat idle quiet rfl hplays
    obtain ⟨front, hweave⟩ := Solo.Weave.of_unfolds hflat hunfolds hrise hplayed
    exact ⟨hweave.inStretches, hweave.look_runs hflat (hrise.trans hunfolds.alertsRise)⟩
  · obtain ⟨m, hunderway⟩ := Relay.underway_of_play idle quiet rfl hruns hplays
    obtain ⟨m', hend⟩ := Relay.underway_of_unfolds hunderway hunfolds
    exact ⟨hend.steps_prefix.filter _, fun earlier take later => hend.nothing_behind⟩

/-- A timer in front of a command, and another command behind a wait for a render. -/
def earlySignal : List Step := [
  .recorded "t" "ar.event:\x7b\"Type\":\"Timer\",\"Time\":1\x7d",
  .recorded "x" "bpy.context.scene.x = 1",
  .recorded "r" "ar.event:\x7b\"Type\":\"Render Complete\"\x7d",
  .recorded "y" "bpy.context.scene.y = 1"]

/-- The commands that have been run on a stage. -/
def Session.journalled (s : Session Stage) : List String :=
  s.host.journal.map JournalEntry.command

theorem earlySignal_played :
    (Turn.rehearse 10 earlySignal).seen? Session.pending = some (some .suspended, 1) := by
  decide +kernel

/-- The signal comes while the timer is still running. -/
theorem earlySignal_outcome :
    ((Turn.rehearse 10 earlySignal).andThen fun _ s =>
        (s.renderComplete .rehearsal).2.tick .rehearsal 10 PlaySettings.usual.resumeSpan).seen?
      (fun s => (s.pending, s.journalled)) =
      some (some ⟨1, 0, []⟩, 1, ["bpy.context.scene.y = 1"]) := by
  decide +kernel

/-- **The second command is run, and the first one is not.** -/
theorem earlySignal_overtakes :
    ∃ s₁ report s₂, Turn.rehearse 10 earlySignal = .done .suspended s₁ ∧
      (s₁.renderComplete .rehearsal).2.tick .rehearsal 10 PlaySettings.usual.resumeSpan =
        .done report s₂ ∧
      report.failures = [] ∧ ¬s₂.journalled <+: (Step.commands earlySignal).map Step.text := by
  obtain ⟨s₁, hplay, -⟩ := Run.of_seen?_done earlySignal_played
  obtain ⟨s₂, hrun, hseen⟩ := Run.of_seen?_done earlySignal_outcome
  rw [hplay] at hrun
  obtain ⟨-, hjournal⟩ := Prod.mk.inj hseen
  refine ⟨s₁, _, s₂, hplay, hrun, rfl, ?_⟩
  rw [hjournal]
  decide +kernel

theorem earlySignal_in_stretches :
    ∃ takes s₂, InStretches earlySignal takes ∧ s₂.journalled = ["bpy.context.scene.y = 1"] ∧
      ∃ first s₁, Unfolds Rig.rehearsal Cue.Unplayed [first] s₁ takes s₂ := by
  obtain ⟨s₁, hplay, -⟩ := Run.of_seen?_done earlySignal_played
  obtain ⟨s₂, hrun, hseen⟩ := Run.of_seen?_done earlySignal_outcome
  rw [hplay] at hrun
  obtain ⟨-, hjournal⟩ := Prod.mk.inj hseen
  obtain ⟨events, hplays⟩ := Turn.plays_of_done hplay
  let first : Take := ⟨.play .locals "a", events, .ok .suspended⟩
  have hsignal : Unfolds Rig.rehearsal Cue.Unplayed [first] s₁ [first] _ :=
    Unfolds.start.signal .rendered
  obtain ⟨takes, hunfolds, -⟩ := hsignal.tick .look hrun
  have hfound : (Session.rehearsal earlySignal).library.action? .locals "a" =
      some { Action.titled "a" "a" with steps := earlySignal } := rfl
  obtain ⟨-, hhistories⟩ := Session.interleaved_in_stretches .rehearsal (.rehearsal earlySignal)
    rfl rfl hfound (by decide +kernel) (by decide +kernel)
  obtain ⟨hany, -⟩ := hhistories events _ s₁ hplays
  obtain ⟨hstretches, -⟩ := hany _ s₂ hunfolds
  exact ⟨_, s₂, hstretches, hjournal, first, s₁, hunfolds⟩

end Replay
