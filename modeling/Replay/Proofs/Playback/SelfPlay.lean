import Replay.Proofs.Command.Defaults
import Replay.Proofs.Playback.Blame
import Replay.Proofs.Playback.Onward
import Replay.Proofs.Playback.Suspension

/-!
# The guard against actions that play themselves

The operator that plays the local action could play the very action that calls it, and so on without
end, if its properties are left at their defaults. Playback looks at a command before it touches the
host: a call that writes both defaults out is refused, and the run ends there, however many loops are
around the step. All other commands are handed on, and among them those that leave the defaults in
another spelling.

* `Step.LeavesDefaults`, `Step.WritesDefaults` — the steps that should be refused, and those that are
* `Plays.guards` — a call is refused just if it comes to such a step, and that is the last it comes to
* `Comes.refused` — what comes to such a step does end
* `Rig.refuses_writtenDefaults` — what is refused, and what becomes of it
-/

set_option autoImplicit false

namespace Replay

variable {σ : Type}

/-! ## Steps -/

namespace Step

/-- The command of the step plays the local action, with its properties left at their defaults. -/
def LeavesDefaults (step : Step) : Prop :=
  ∃ c, step.instruction = .ok (.plain (.call c)) ∧ c.LeavesDefaults

/-- It does so by writing both of them out, the text in double quotes. -/
def WritesDefaults (step : Step) : Prop :=
  ∃ c, step.instruction = .ok (.plain (.call c)) ∧ c.LeavesDefaults ∧ Replay.WritesDefaults c.named

variable {step : Step} {h : Host σ} {g : Grouping} {base : Surface}

/-- A spelling of such a call is read as one, whatever blanks and positional arguments it has. -/
theorem reads_of_spells {named : List (String × String)}
    (spells : Call.Spells "ar" "local_play" named step.text) (defaults : AtDefaults named) :
    ∃ c, step.instruction = .ok (.plain (.call c)) ∧ c.LeavesDefaults ∧ c.named = named := by
  obtain ⟨positional, hparse⟩ :=
    spells.parse (by decide +kernel) (by decide +kernel) defaults.compact
  have hreads : step.instruction = .ok (.plain (.call ⟨"ar", "local_play", positional, named⟩)) := by
    rw [instruction, Instruction.parse, spells.payload?_eq_none, hparse]
  exact ⟨_, hreads, ⟨rfl, defaults⟩, rfl⟩

/-- Such a step fails, and leaves the host as it is. -/
theorem effect?_of_writesDefaults (writes : step.WritesDefaults) :
    step.effect? h g base = some fun s => (.error .selfPlay, s) := by
  obtain ⟨c, hreads, hleaves, hwrites⟩ := writes
  have hguard : Host.playsItself (.call c) = true :=
    Host.playsItself_iff.mpr ⟨c, rfl, hleaves, hwrites⟩
  unfold effect?
  rw [hreads]
  refine congrArg some (funext fun s => ?_)
  exact if_pos hguard

end Step

/-! ## What the host does does not look like it -/

namespace Host

variable {h : Host σ} {s s' : σ}

theorem makeSelection_ne_selfPlay {selection : Selection}
    (done : h.makeSelection selection s = (.error .selfPlay, s')) : False := by
  unfold makeSelection at done
  dsimp only at done
  generalize h.selectExisting selection.objects _ = listed at done
  split at done
  · cases done
  · split at done <;> cases done

theorem playScript_ne_selfPlay {stepId source : String}
    (done : h.playScript stepId source s = (.error .selfPlay, s')) : False := by
  unfold playScript at done
  dsimp only at done
  split at done <;> cases done

/-- Only the guard refuses a command like that. -/
theorem playsItself_of_playCommand {g : Grouping} {base : Surface} {step : Step} {c : Command}
    (done : h.playCommand g base step c s = (.error .selfPlay, s')) : playsItself c = true := by
  by_contra hguard
  unfold playCommand at done
  rw [if_neg hguard] at done
  dsimp only at done
  split at done <;> cases done

end Host

/-- A step that fails like that writes the defaults out. -/
theorem Step.writesDefaults_of_effect? {step : Step} {h : Host σ} {g : Grouping} {base : Surface}
    {f : σ → Except PlayError Unit × σ} {s s' : σ} (effect : step.effect? h g base = some f)
    (failed : f s = (.error .selfPlay, s')) : step.WritesDefaults := by
  unfold effect? at effect
  split at effect
  · cases effect
    cases failed
  · cases effect
    exact (Host.makeSelection_ne_selfPlay failed).elim
  · cases effect
    exact (Host.playScript_ne_selfPlay failed).elim
  · rename_i command hreads
    cases effect
    obtain ⟨c, rfl, hleaves, hwrites⟩ :=
      Host.playsItself_iff.mp (Host.playsItself_of_playCommand failed)
    exact ⟨c, hreads, hleaves, hwrites⟩
  · cases effect

/-! ## Calls -/

namespace Event

/-- A step is reached whose command writes the defaults out. -/
def WritesDefaults : Event → Prop
  | reached _ step => step.WritesDefaults
  | asked _ _ => False

/-- What opens or ends a loop, or waits, is no command. -/
theorem not_writesDefaults {depth : Nat} {step : Step} {d : Directive}
    (reads : step.instruction = .ok (.directive d)) : ¬(reached depth step).WritesDefaults := by
  rintro ⟨c, hreads, -⟩
  cases reads.symm.trans hreads

theorem not_writesDefaults_of_done {depth : Nat} {step : Step} {h : Host σ} {g : Grouping}
    {base : Surface} {f : σ → Except PlayError Unit × σ} {s s' : σ}
    (effect : step.effect? h g base = some f) (done : f s = (.ok (), s')) :
    ¬(reached depth step).WritesDefaults := by
  intro hwrites
  cases (Step.effect?_of_writesDefaults hwrites).symm.trans effect
  cases done

end Event

/-- What the steps that write the defaults out have to do with the end of an activity: nothing comes
behind one of them, and it is refused just if it comes to one. -/
structure Guards (events : List Event) (result : Result) : Prop where
  last : events.Pairwise fun e _ => ¬e.WritesDefaults
  refused : result = .error .selfPlay ↔ ∃ e ∈ events, e.WritesDefaults

namespace Guards

variable {events events' : List Event} {result : Result} {e : Event}

/-- Nothing happens, and nothing is refused. -/
theorem quiet (hresult : result ≠ .error .selfPlay) : Guards [] result :=
  ⟨.nil, by simpa using hresult⟩

/-- An event that is nothing of the kind comes first. -/
theorem cons (h : Guards events result) (he : ¬e.WritesDefaults) : Guards (e :: events) result := by
  refine ⟨List.pairwise_cons.mpr ⟨fun _ _ => he, h.last⟩, ?_⟩
  rw [h.refused]
  simp [he]

/-- The last event is one that fails. -/
theorem single (h : result = .error .selfPlay ↔ e.WritesDefaults) : Guards [e] result :=
  ⟨List.pairwise_singleton _ _, by simpa using h⟩

/-- What does not fail, and what comes after it. -/
theorem append {outcome : Outcome} (h : Guards events (.ok outcome)) (h' : Guards events' result) :
    Guards (events ++ events') result := by
  have hnone : ∀ e ∈ events, ¬e.WritesDefaults := by
    intro e he hwrites
    cases h.refused.mpr ⟨e, he, hwrites⟩
  refine ⟨List.pairwise_append.mpr ⟨h.last, h'.last, fun e he _ _ => hnone e he⟩, ?_⟩
  rw [h'.refused]
  constructor
  · rintro ⟨e, he, hwrites⟩
    exact ⟨e, List.mem_append_right _ he, hwrites⟩
  · rintro ⟨e, he, hwrites⟩
    exact ⟨e, (List.mem_append.mp he).resolve_left fun h => hnone e h hwrites, hwrites⟩

/-- Such an event is the last. -/
theorem eq_concat (h : Guards events result) (he : e ∈ events) (hwrites : e.WritesDefaults) :
    ∃ before, events = before ++ [e] := by
  obtain ⟨before, after, rfl⟩ := List.append_of_mem he
  obtain ⟨-, hafter, -⟩ := List.pairwise_append.mp h.last
  have hnil : after = [] := by
    refine List.eq_nil_iff_forall_not_mem.mpr fun x hx => ?_
    exact (List.pairwise_cons.mp hafter).1 x hx hwrites
  exact ⟨before, by rw [hnil]⟩

end Guards

/-- **A call is refused just if it comes to a step that writes the defaults out.** -/
theorem Plays.guards {rig : Rig σ} {a : Activity} {s s' : Session σ} {events : List Event}
    {result : Result} (h : Plays rig a s events result s') : Guards events result := by
  induction h with
  | tooDeep _ | gone _ _ | finish _ | roundTooDeep _ => exact .quiet (by simp)
  | pass _ _ _ ih | close _ _ ih | noneLeft _ ih | nextRound _ ih | roundFailed _ _ ih => exact ih
  | act effect done _ ih => exact ih.cons (Event.not_writesDefaults_of_done effect done)
  | fail effect failed =>
    refine .single ⟨fun hresult => ?_, fun hwrites => ?_⟩
    · cases hresult
      exact Step.writesDefaults_of_effect? effect failed
    · cases (Step.effect?_of_writesDefaults hwrites).symm.trans effect
      cases failed
      rfl
  | awaitRender reads | wait reads | badLoop reads _ _ | badRange reads _ _ _ =>
    exact .single (iff_of_false (by simp) (Event.not_writesDefaults reads))
  | loopEnd reads _ ih => exact ih.cons (Event.not_writesDefaults reads)
  | unmatched reads _ _ ih | skip reads _ _ _ _ ih | range reads _ _ _ _ ih
  | whileTrue reads _ _ _ ih => exact ih.cons (Event.not_writesDefaults reads)
  | enter reads _ _ _ _ ih => exact ih.cons (Event.not_writesDefaults reads)
  | enough _ _ ih | again _ _ ih => exact ih.cons id
  | unknown _ => exact .single (iff_of_false (by simp) id)
  | roundDone _ _ _ ih ih' => exact ih.append ih'

/-- **What comes to a step that writes the defaults out is refused there**, however deep: the session
is the one in which a pass has come to the step, with its alerts raised. -/
theorem Comes.refused {rig : Rig σ} {a : Activity} {s : Session σ} {events : List Event}
    (h : Comes rig a s events) {depth : Nat} {step : Step} (came : .reached depth step ∈ events)
    (writes : step.WritesDefaults) :
    ∃ p steps s₁ before, Activity.Onward rig (a, s) (.walk p (step :: steps), s₁) ∧
      Plays rig a s (before ++ [.reached depth step]) (.error .selfPlay)
        (s₁.alert p.source step) := by
  obtain ⟨⟨a', s₁⟩, honward, hbegins⟩ := h.onward _ came
  obtain ⟨p, steps, rfl, rfl⟩ := Activity.eq_walk_of_event? hbegins
  have hhere : Plays rig (.walk p (step :: steps)) s₁ [.reached p.source.depth step]
      (.error .selfPlay) (s₁.alert p.source step) :=
    .fail (Step.effect?_of_writesDefaults writes) rfl
  obtain ⟨before, hplays⟩ := Plays.of_onward honward hhere
  exact ⟨p, steps, s₁, before, honward, hplays⟩

/-! ## Turns -/

/-- What is driven to an event is not too deep, and its action is in the library. -/
theorem Plays.enters {rig : Rig σ} {r : Resumption} {s s' : Session σ} {events : List Event}
    {result : Result} (h : Plays rig (.drive r) s events result s') (came : events ≠ []) :
    r.depth ≤ rig.settings.maxNesting ∧
      ∃ action, s.library.action? r.collection r.actionId = some action := by
  cases h with
  | tooDeep _ | gone _ _ => exact absurd rfl came
  | pass shallow found _ => exact ⟨shallow, _, found⟩

namespace Turn

variable {turn : Turn} {rig : Rig σ} {s s' : Session σ} {events : List Event} {result : Result}

/-- The flags that are set when a turn fails at a step: that of its action and that of the step (of
the first one with that id), or only that of the action if it has lost the step since the turn was
suspended. -/
def Flags (turn : Turn) (l : Library) (stepId : String) (l' : Library) : Prop :=
  match turn with
  | play collection id => l.FlagsStep collection id stepId l'
  | resume r => l.FlagsStep r.collection r.actionId stepId l' ∨
      l.FlagsAction r.collection r.actionId stepId l'

/-- A turn comes to one end. -/
theorem Plays.unique {events₁ : List Event} {result₁ : Result} {s₁ : Session σ}
    (h : turn.Plays rig s events result s') (h₁ : turn.Plays rig s events₁ result₁ s₁) :
    result = result₁ ∧ s' = s₁ := by
  cases h with
  | refused failure =>
    cases h₁ with
    | refused failure₁ =>
      cases failure.symm.trans failure₁
      exact ⟨rfl, rfl⟩
    | driven start _ => cases failure.symm.trans start
  | driven start drives =>
    cases h₁ with
    | refused failure => cases failure.symm.trans start
    | driven start₁ drives₁ =>
      cases start.symm.trans start₁
      exact drives.unique drives₁

/-- A turn begins or there is no such action. -/
theorem begins_ne_selfPlay : turn.begins s ≠ .error .selfPlay := by
  unfold begins
  split
  · split <;> simp
  · simp

/-- A turn that is refused has come to a step that writes the defaults out, and that is the last it
has come to. -/
theorem last_of_selfPlay (h : turn.Plays rig s events (.error .selfPlay) s') :
    ∃ before depth step, events = before ++ [.reached depth step] ∧ step.WritesDefaults := by
  cases h with
  | refused failure => exact absurd failure begins_ne_selfPlay
  | driven start drives =>
    obtain ⟨e, he, hwrites⟩ := drives.guards.refused.mp rfl
    obtain ⟨before, rfl⟩ := drives.guards.eq_concat he hwrites
    cases e with
    | asked _ _ => exact hwrites.elim
    | reached depth step => exact ⟨before, depth, step, rfl, hwrites⟩

/-- A turn that fails at an event flags its step. -/
theorem flags_of_plays {before : List Event} {e : Event} {error : PlayError}
    (h : turn.Plays rig s (before ++ [e]) (.error error) s') :
    turn.Flags s.library e.step.id s'.library := by
  generalize hevents : before ++ [e] = events at h
  cases h with
  | refused _ => simp at hevents
  | @driven r _ _ _ start drives =>
    subst hevents
    obtain ⟨shallow, action, hfound⟩ := drives.enters (by simp)
    have hlibrary := (drives.verdict shallow).library_of_concat
    rw [hlibrary]
    cases turn with
    | resume _ =>
      cases start
      exact Library.flags_raiseAlert hfound
    | play collection id =>
      obtain hbegins | ⟨played, hplayed, hbegins⟩ := begins_play start <;> cases hbegins
      have hlast := drives.held (Resumption.holds_start collection id played.steps) e (by simp)
      exact Library.flagsStep_raiseAlert hplayed ⟨e.step, hlast, rfl⟩

end Turn

/-- **The guard refuses the calls that write the defaults out, and nothing else.**

A text may spell a call of the operator that plays the local action with both properties at their
defaults in any way: it is read as such a call, and writes the defaults out just if both are there
and the text is in double quotes. Whatever turn comes to a step whose command does so, at whatever
depth and whether or not it would end otherwise, it fails at that step and with that error. It leaves
the session in which a pass came to the step, but for alerts: the host, the timetable and the queue
are as they were, and the alerts are those of the step and its action. No turn fails with that error
that has not come to such a step last. -/
theorem Rig.refuses_writtenDefaults (rig : Rig σ) :
    (∀ (step : Step) named, Call.Spells "ar" "local_play" named step.text → AtDefaults named →
      step.LeavesDefaults ∧ (step.WritesDefaults ↔ WritesDefaults named)) ∧
    (∀ (turn : Turn) s events depth step, turn.Comes rig s events → .reached depth step ∈ events →
      step.WritesDefaults →
        ∃ r p steps s₁ before budget, turn.begins s = .ok r ∧
          Activity.Onward rig (.drive r, s) (.walk p (step :: steps), s₁) ∧
          turn.run rig budget s = .failed .selfPlay (s₁.alert p.source step) ∧
          turn.Plays rig s (before ++ [.reached depth step]) (.error .selfPlay)
            (s₁.alert p.source step) ∧
          turn.Flags s.library step.id (s₁.alert p.source step).library) ∧
    (∀ (turn : Turn) s budget s', turn.run rig budget s = .failed .selfPlay s' →
      ∃ before depth step, turn.Plays rig s (before ++ [.reached depth step]) (.error .selfPlay) s' ∧
        step.WritesDefaults) := by
  refine ⟨?_, ?_, ?_⟩
  · intro step named spells defaults
    obtain ⟨c, hreads, hleaves, rfl⟩ := Step.reads_of_spells spells defaults
    refine ⟨⟨c, hreads, hleaves⟩, ?_, fun hwrites => ⟨c, hreads, hleaves, hwrites⟩⟩
    rintro ⟨c', hreads', -, hwrites⟩
    cases hreads.symm.trans hreads'
    exact hwrites
  · intro turn s events depth step hcomes came writes
    obtain ⟨r, hbegins, hdrive⟩ := hcomes
    obtain ⟨p, steps, s₁, before, honward, hplays⟩ := hdrive.refused came writes
    have hturn := Turn.Plays.driven hbegins hplays
    obtain ⟨budget, hrun⟩ := Turn.run_iff_plays.mpr ⟨_, hturn⟩
    exact ⟨r, p, steps, s₁, before, budget, hbegins, honward, hrun, hturn,
      Turn.flags_of_plays hturn⟩
  · intro turn s budget s' hrun
    have hfails : ∃ n, turn.run rig n s = .ofResult (.error .selfPlay) s' := ⟨budget, hrun⟩
    obtain ⟨events, hplays⟩ := Turn.run_iff_plays.mp hfails
    obtain ⟨before, depth, step, rfl, hwrites⟩ := Turn.last_of_selfPlay hplays
    exact ⟨before, depth, step, hplays, hwrites⟩

/-- A call that writes both defaults out, with blanks, a positional argument and the index first. -/
def paddedCall : Step :=
  .recorded "p" " bpy.ops. ar.local_play (\"EXEC_DEFAULT\" , index = -1, id= \"\" ) "

theorem paddedCall_spells :
    Call.Spells "ar" "local_play" [("index", "-1"), ("id", "\"\"")] paddedCall.text := by
  have hindex : Arguments.Pads ("index", "-1") " index = -1".toList :=
    .around (p := [' ']) (q := [' ']) (r := [' ']) (t := []) (by decide) (by decide)
  have hid : Arguments.Pads ("id", "\"\"") " id= \"\" ".toList :=
    .around (p := [' ']) (q := []) (r := [' ']) (t := [' ']) (by decide) (by decide)
  have hlists : Arguments.Lists [("index", "-1"), ("id", "\"\"")]
      (Text.join [','] (["\"EXEC_DEFAULT\" ".toList] ++
        [" index = -1".toList, " id= \"\" ".toList])) :=
    .behind (by decide) (by decide +kernel) (.cons hindex (.cons hid .nil))
  exact @Call.Spells.blanks _ _ _ _ [' '] [' '] [' '] [' '] _ (by decide +kernel)
    (by decide) (by decide) hlists

/-- That call in a range loop in a counted loop, behind a command and in front of another one. -/
def selfPlayingRounds : List Step := [
  .recorded "l" "ar.event:\x7b\"Type\":\"Loop\",\"StatementType\":\"repeat\",\"RepeatCount\":2\x7d",
  .recorded "k" ("ar.event:\x7b\"Type\":\"Loop\",\"StatementType\":\"count\"," ++
    "\"Startnumber\":0,\"Endnumber\":2,\"Stepnumber\":1\x7d"),
  .recorded "x" "bpy.context.scene.x = 1",
  paddedCall,
  .recorded "y" "bpy.context.scene.y = 1",
  .recorded "f" "ar.event:\x7b\"Type\":\"EndLoop\"\x7d",
  .recorded "e" "ar.event:\x7b\"Type\":\"EndLoop\"\x7d"]

theorem selfPlayingRounds_outcome :
    (Turn.rehearse 10 selfPlayingRounds).failure?
        (fun s => (s.localAlerts, s.host.journal.map JournalEntry.command)) =
      some (.selfPlay, [(true, [false, false, false, true, false, false, false])],
        ["bpy.context.scene.x = 1"]) := by
  decide +kernel

theorem selfPlayingRounds_refused :
    paddedCall.WritesDefaults ∧
    ∃ (step : Step) (s' : Session Stage), step.WritesDefaults ∧
      Turn.rehearse 10 selfPlayingRounds = .failed .selfPlay s' ∧
      (Session.rehearsal selfPlayingRounds).library.FlagsStep .locals "a" step.id s'.library ∧
      s'.localAlerts = [(true, [false, false, false, true, false, false, false])] ∧
      s'.host.journal.map JournalEntry.command = ["bpy.context.scene.x = 1"] := by
  obtain ⟨hspelled, hturn, honly⟩ := Rig.refuses_writtenDefaults .rehearsal
  have hpadded : paddedCall.WritesDefaults :=
    (hspelled paddedCall _ paddedCall_spells ⟨by decide, by decide⟩).2.mpr ⟨by decide, by decide⟩
  obtain ⟨s', hrun, hseen⟩ := Run.of_failure? selfPlayingRounds_outcome
  obtain ⟨halerts, hjournal⟩ := Prod.mk.inj hseen
  obtain ⟨before, depth, step, hplays, hwrites⟩ := honly (.play .locals "a") _ 10 s' hrun
  have hcomes := hplays.comes.resolve_left (by simp)
  obtain ⟨_, _, _, _, _, _, _, _, _, hplays₁, hflags⟩ :=
    hturn _ _ _ depth step hcomes (by simp) hwrites
  obtain ⟨-, rfl⟩ := hplays.unique hplays₁
  exact ⟨hpadded, step, _, hwrites, hrun, hflags, halerts, hjournal⟩

/-- A call that leaves the text out. -/
def shortCall : Step := .recorded "p" "bpy.ops.ar.local_play(index=-1)"

/-- A call that writes the text in single quotes. -/
def singlyQuotedCall : Step := .recorded "p" "bpy.ops.ar.local_play(id='', index=-1)"

/-- Both are handed on to the host, which knows no such operator. -/
theorem slippingCalls_outcome : ∀ step ∈ [shortCall, singlyQuotedCall],
    (Turn.rehearse 10 [step]).failure? (fun _ => ()) = some (.invocation step.text
      "Calling operator \"bpy.ops.ar.local_play\" error, could not be found", ()) := by
  decide +kernel

/-- **Calls that leave the defaults in other spellings are not refused.** -/
theorem slippingCalls_not_refused :
    (shortCall.LeavesDefaults ∧ ¬∃ s', Turn.rehearse 10 [shortCall] = .failed .selfPlay s') ∧
    singlyQuotedCall.LeavesDefaults ∧
      ¬∃ s', Turn.rehearse 10 [singlyQuotedCall] = .failed .selfPlay s' := by
  have hslips : ∀ step ∈ [shortCall, singlyQuotedCall],
      ¬∃ s', Turn.rehearse 10 [step] = .failed .selfPlay s' := by
    rintro step hstep ⟨s', hrefused⟩
    obtain ⟨_, hrun, -⟩ := Run.of_failure? (slippingCalls_outcome step hstep)
    cases hrun.symm.trans hrefused
  refine ⟨⟨?_, hslips _ (by simp)⟩, ?_, hslips _ (by simp)⟩
  · exact ⟨⟨"ar", "local_play", "", [("index", "-1")]⟩, by decide +kernel, rfl, by decide,
      by decide⟩
  · exact ⟨⟨"ar", "local_play", "", [("id", "''"), ("index", "-1")]⟩, by decide +kernel, rfl,
      by decide, by decide⟩

end Replay
