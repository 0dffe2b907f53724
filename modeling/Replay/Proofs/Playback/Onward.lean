import Mathlib.Logic.Relation
import Replay.Proofs.Playback.Inheritance

/-!
# What a call goes on with

While a call runs, one activity goes on with another one: a pass with the rest of its steps, a loop
with a round, a round with the body of its loop. What an activity hands on is handed on from one to
the next, so it holds of all that a call goes on with, whether or not the call ever ends.

* `Activity.Next` — what an activity goes on with at once
* `Hereditary.onward` — what is handed on, throughout a call
* `Comes.onward` — all that a call comes to, it comes to in an activity that it goes on with
* `Plays.of_onward` — a call fails if something that it goes on with does
-/

set_option autoImplicit false

open Relation

namespace Replay

variable {σ : Type}

/-! ## One step onward -/

/-- **What an activity goes on with at once**, and in which session. -/
inductive Activity.Next (rig : Rig σ) : Activity × Session σ → Activity × Session σ → Prop
  | pass {r s action} (shallow : r.depth ≤ rig.settings.maxNesting)
      (found : s.library.action? r.collection r.actionId = some action) :
      Next rig (.drive r, s)
        (.walk ⟨r, action.grouping, r.surface.getD (rig.host.ambient s.host)⟩ r.steps, s.announce r)
  | close {p s r} (closed : p.source.close = .proceed r) : Next rig (.walk p [], s) (.drive r, s)
  | act {p step steps s f host} (effect : step.effect? rig.host p.grouping p.base = some f)
      (done : f s.host = (.ok (), host)) :
      Next rig (.walk p (step :: steps), s) (.walk p steps, { s with host := host })
  | loopEnd {p step steps s} (reads : step.instruction = .ok (.directive .loopEnd)) :
      Next rig (.walk p (step :: steps), s) (.walk p steps, s)
  | unmatched {p step steps s l} (reads : step.instruction = .ok (.directive (.loop l)))
      (closing : Step.closing? steps = none) :
      Next rig (.walk p (step :: steps), s) (.walk p steps, s)
  | enter {p step steps s l place count} (reads : step.instruction = .ok (.directive (.loop l)))
      (closing : Step.closing? steps = some place) (repeats : l.repetition = .ok (.times count))
      (positive : 0 < count) :
      Next rig (.walk p (step :: steps), s)
        (.drive (p.entering count (steps.take place) (steps.drop (place + 1))), s)
  | skip {p step steps s l place count} (reads : step.instruction = .ok (.directive (.loop l)))
      (closing : Step.closing? steps = some place) (repeats : l.repetition = .ok (.times count))
      (nought : ¬0 < count) :
      Next rig (.walk p (step :: steps), s) (.walk p (steps.drop (place + 1)), s)
  | range {p step steps s l place start stop by' count}
      (reads : step.instruction = .ok (.directive (.loop l)))
      (closing : Step.closing? steps = some place)
      (repeats : l.repetition = .ok (.range start stop by'))
      (counts : rangeCount? start stop by' = some count) :
      Next rig (.walk p (step :: steps), s)
        (.loop p step (steps.take place) (steps.drop (place + 1)) (.times count), s)
  | whileTrue {p step steps s l place condition}
      (reads : step.instruction = .ok (.directive (.loop l)))
      (closing : Step.closing? steps = some place)
      (repeats : l.repetition = .ok (.whileTrue condition)) :
      Next rig (.walk p (step :: steps), s)
        (.loop p step (steps.take place) (steps.drop (place + 1)) (.whileTrue condition), s)
  | noneLeft {p opening body behind s} :
      Next rig (.loop p opening body behind (.times 0), s) (.walk p behind, s)
  | nextRound {p opening body behind left s} :
      Next rig (.loop p opening body behind (.times (left + 1)), s)
        (.round p opening body behind (.times left), s)
  | enough {p opening condition body behind s host}
      (holds : rig.host.evaluate s.host condition = (.ok false, host)) :
      Next rig (.loop p opening body behind (.whileTrue condition), s)
        (.walk p behind, { s with host := host })
  | again {p opening condition body behind s host}
      (holds : rig.host.evaluate s.host condition = (.ok true, host)) :
      Next rig (.loop p opening body behind (.whileTrue condition), s)
        (.round p opening body behind (.whileTrue condition), { s with host := host })
  | round {p opening body behind again s}
      (shallow : p.source.depth + 1 ≤ rig.settings.maxNesting) :
      Next rig (.round p opening body behind again, s) (.drive (p.source.nested body), s)
  /-- The body has been played to its end, suspended or not. -/
  | roundDone {p opening body behind again s events outcome s'}
      (shallow : p.source.depth + 1 ≤ rig.settings.maxNesting)
      (inside : Plays rig (.drive (p.source.nested body)) s events (.ok outcome) s') :
      Next rig (.round p opening body behind again, s) (.loop p opening body behind again, s')

/-- All that a call goes on with, itself included. -/
def Activity.Onward (rig : Rig σ) : Activity × Session σ → Activity × Session σ → Prop :=
  ReflTransGen (Activity.Next rig)

open Activity

/-! ## What is handed on throughout a call -/

namespace Hereditary

variable {rig : Rig σ} {ok ok' : Activity → Prop} {x y : Activity × Session σ}

/-- Two properties that are handed on are handed on together. -/
theorem and (h : Hereditary rig ok) (h' : Hereditary rig ok') :
    Hereditary rig fun a => ok a ∧ ok' a where
  pass hok := hok.imp h.pass h'.pass
  close closed hok := hok.imp (h.close closed) (h'.close closed)
  drop n hok := hok.imp (h.drop n) (h'.drop n)
  suspend hok := hok.imp h.suspend h'.suspend
  enter reads closing repeats positive hok :=
    hok.imp (h.enter reads closing repeats positive) (h'.enter reads closing repeats positive)
  rounds reads closing repeats nests hok :=
    hok.imp (h.rounds reads closing repeats nests) (h'.rounds reads closing repeats nests)
  leave hok := hok.imp h.leave h'.leave
  round hok := hok.imp h.round h'.round
  loop hok := hok.imp h.loop h'.loop
  nested shallow hok := hok.imp (h.nested shallow) (h'.nested shallow)

/-- One step hands the property on. -/
theorem next (hereditary : Hereditary rig ok) (h : Next rig x y) (hok : ok x.1) : ok y.1 := by
  cases h with
  | pass _ _ => exact hereditary.pass hok
  | close closed => exact hereditary.close closed hok
  | act _ _ | loopEnd _ | unmatched _ _ => exact hereditary.tail hok
  | enter reads closing repeats positive => exact hereditary.enter reads closing repeats positive hok
  | skip _ _ _ _ => exact hereditary.drop _ hok
  | range reads closing repeats _ => exact hereditary.rounds reads closing repeats rfl hok
  | whileTrue reads closing repeats => exact hereditary.rounds reads closing repeats rfl hok
  | noneLeft | enough _ => exact hereditary.leave hok
  | nextRound | again _ => exact hereditary.round hok
  | round shallow => exact hereditary.nested shallow hok
  | roundDone _ _ => exact hereditary.loop hok

/-- **What is handed on holds of all that a call goes on with.** -/
theorem onward (hereditary : Hereditary rig ok) (h : Onward rig x y) (hok : ok x.1) : ok y.1 := by
  induction h with
  | refl => exact hok
  | tail _ next ih => exact hereditary.next next ih

end Hereditary

/-! ## What a call comes to -/

/-- The event that an activity begins with, if it begins with one. -/
def Activity.event? : Activity → Option Event
  | walk p (step :: _) => some (.reached p.source.depth step)
  | loop p opening _ _ (.whileTrue _) => some (.asked p.source.depth opening)
  | walk _ [] | drive _ | loop _ _ _ _ (.times _) | round _ _ _ _ _ => none

/-- Only a pass begins with a step that is reached. -/
theorem Activity.eq_walk_of_event? {a : Activity} {depth : Nat} {step : Step}
    (h : a.event? = some (.reached depth step)) :
    ∃ p steps, a = .walk p (step :: steps) ∧ depth = p.source.depth := by
  unfold event? at h
  split at h <;> cases h
  exact ⟨_, _, rfl, rfl⟩

/-- A call goes on with activities that begin with each of these events. -/
def Activity.Shows (rig : Rig σ) (x : Activity × Session σ) (events : List Event) : Prop :=
  ∀ e ∈ events, ∃ y, Onward rig x y ∧ y.1.event? = some e

namespace Activity.Shows

variable {rig : Rig σ} {x y : Activity × Session σ} {events events' : List Event} {e : Event}

theorem nil : Shows rig x [] := nofun

theorem single (begins : x.1.event? = some e) : Shows rig x [e] :=
  List.forall_mem_singleton.mpr ⟨x, .refl, begins⟩

theorem step (next : Next rig x y) (h : Shows rig y events) : Shows rig x events := by
  intro e he
  obtain ⟨z, honward, hbegins⟩ := h e he
  exact ⟨z, .head next honward, hbegins⟩

theorem cons (begins : x.1.event? = some e) (next : Next rig x y) (h : Shows rig y events) :
    Shows rig x (e :: events) :=
  List.forall_mem_cons.mpr ⟨⟨x, .refl, begins⟩, h.step next⟩

theorem append (h : Shows rig x events) (h' : Shows rig x events') :
    Shows rig x (events ++ events') :=
  List.forall_mem_append.mpr ⟨h, h'⟩

end Activity.Shows

theorem Plays.onward {rig : Rig σ} {a : Activity} {s s' : Session σ} {events : List Event}
    {result : Result} (h : Plays rig a s events result s') : Shows rig (a, s) events := by
  induction h with
  | tooDeep _ | gone _ _ | finish _ | roundTooDeep _ => exact .nil
  | pass shallow found _ ih => exact ih.step (.pass shallow found)
  | close closed _ ih => exact ih.step (.close closed)
  | act effect done _ ih => exact .cons rfl (.act effect done) ih
  | fail _ _ | awaitRender _ | wait _ | badLoop _ _ _ | badRange _ _ _ _ | unknown _ =>
    exact .single rfl
  | loopEnd reads _ ih => exact .cons rfl (.loopEnd reads) ih
  | unmatched reads closing _ ih => exact .cons rfl (.unmatched reads closing) ih
  | enter reads closing repeats positive _ ih =>
    exact .cons rfl (.enter reads closing repeats positive) ih
  | skip reads closing repeats nought _ ih =>
    exact .cons rfl (.skip reads closing repeats nought) ih
  | range reads closing repeats counts _ ih =>
    exact .cons rfl (.range reads closing repeats counts) ih
  | whileTrue reads closing repeats _ ih => exact .cons rfl (.whileTrue reads closing repeats) ih
  | noneLeft _ ih => exact ih.step .noneLeft
  | nextRound _ ih => exact ih.step .nextRound
  | enough holds _ ih => exact .cons rfl (.enough holds) ih
  | again holds _ ih => exact .cons rfl (.again holds) ih
  | roundFailed shallow _ ih => exact ih.step (.round shallow)
  | roundDone shallow inside _ ih ih' =>
    exact (ih.step (.round shallow)).append (ih'.step (.roundDone shallow inside))

/-- **All that a call comes to, it comes to in an activity that it goes on with.** -/
theorem Comes.onward {rig : Rig σ} {a : Activity} {s : Session σ} {events : List Event}
    (h : Comes rig a s events) : Shows rig (a, s) events := by
  induction h with
  | nothing => exact .nil
  | pass shallow found _ ih => exact ih.step (.pass shallow found)
  | close closed _ ih => exact ih.step (.close closed)
  | reached | asked => exact .single rfl
  | act effect done _ ih => exact .cons rfl (.act effect done) ih
  | loopEnd reads _ ih => exact .cons rfl (.loopEnd reads) ih
  | unmatched reads closing _ ih => exact .cons rfl (.unmatched reads closing) ih
  | enter reads closing repeats positive _ ih =>
    exact .cons rfl (.enter reads closing repeats positive) ih
  | skip reads closing repeats nought _ ih =>
    exact .cons rfl (.skip reads closing repeats nought) ih
  | range reads closing repeats counts _ ih =>
    exact .cons rfl (.range reads closing repeats counts) ih
  | whileTrue reads closing repeats _ ih => exact .cons rfl (.whileTrue reads closing repeats) ih
  | noneLeft _ ih => exact ih.step .noneLeft
  | nextRound _ ih => exact ih.step .nextRound
  | enough holds _ ih => exact .cons rfl (.enough holds) ih
  | again holds _ ih => exact .cons rfl (.again holds) ih
  | round shallow _ ih => exact ih.step (.round shallow)
  | roundDone shallow inside _ ih =>
    exact (inside.onward.step (.round shallow)).append (ih.step (.roundDone shallow inside))

/-! ## What a call fails with -/

section Failures

variable {rig : Rig σ} {x y : Activity × Session σ} {events : List Event} {e : PlayError}
  {s' : Session σ}

theorem Plays.of_next (next : Next rig x y) (fails : Plays rig y.1 y.2 events (.error e) s') :
    ∃ before, Plays rig x.1 x.2 (before ++ events) (.error e) s' := by
  cases next with
  | pass shallow found => exact ⟨[], .pass shallow found fails⟩
  | close closed => exact ⟨[], .close closed fails⟩
  | act effect done => exact ⟨[_], .act effect done fails⟩
  | loopEnd reads => exact ⟨[_], .loopEnd reads fails⟩
  | unmatched reads closing => exact ⟨[_], .unmatched reads closing fails⟩
  | enter reads closing repeats positive =>
    exact ⟨[_], .enter reads closing repeats positive fails⟩
  | skip reads closing repeats nought => exact ⟨[_], .skip reads closing repeats nought fails⟩
  | range reads closing repeats counts => exact ⟨[_], .range reads closing repeats counts fails⟩
  | whileTrue reads closing repeats => exact ⟨[_], .whileTrue reads closing repeats fails⟩
  | noneLeft => exact ⟨[], .noneLeft fails⟩
  | nextRound => exact ⟨[], .nextRound fails⟩
  | enough holds => exact ⟨[_], .enough holds fails⟩
  | again holds => exact ⟨[_], .again holds fails⟩
  | round shallow => exact ⟨[], .roundFailed shallow fails⟩
  | roundDone shallow inside => exact ⟨_, .roundDone shallow inside fails⟩

/-- **A call fails with what it goes on with**, however deep that is: in the same session, and with
the same events at the end. -/
theorem Plays.of_onward (honward : Onward rig x y)
    (fails : Plays rig y.1 y.2 events (.error e) s') :
    ∃ before, Plays rig x.1 x.2 (before ++ events) (.error e) s' := by
  induction honward using ReflTransGen.head_induction_on with
  | refl => exact ⟨[], fails⟩
  | head next _ ih =>
    obtain ⟨before, hplays⟩ := ih
    obtain ⟨first, hfirst⟩ := Plays.of_next next hplays
    exact ⟨first ++ before, by rwa [List.append_assoc]⟩

end Failures

end Replay
