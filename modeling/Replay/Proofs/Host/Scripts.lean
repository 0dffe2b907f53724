import Replay.Proofs.Host.Atomicity
import Replay.Proofs.Text.Occurrences

/-!
# Scripts

A script runs its lines in turn on the surface that the user works on, but for blank lines and
comments, and ends at the first one that fails. Its report says which line of the text that is,
blank lines and comments counted.

* `Script.commands` — the commands of a script, in order
* `Stage.runLines_failed` — the line at which a script fails, and what is done before
* `Script.blame_report` — the report names the step and the line
* `Stage.Alike` — stages that differ in where their commands have run, at most
* `Stage.Alike.playCommand` — a recorded command does to one what the line does to the other
-/

set_option autoImplicit false

namespace Replay

open Text

/-! ## Replacing -/

namespace Text

variable {q : Char} {rest replacement : List Char}

/-- Nothing is replaced where the pattern cannot begin. -/
theorem replaceAll_behind {a : List Char} (free : q ∉ a) (s : List Char) :
    replaceAll (q :: rest) replacement (a ++ s) = a ++ replaceAll (q :: rest) replacement s := by
  induction a with
  | nil => rfl
  | cons c a ih =>
    obtain ⟨hc, ha⟩ := List.ne_and_not_mem_of_not_mem_cons free
    have hstart : afterStart? (q :: rest) (c :: (a ++ s)) = none := if_neg hc
    have hnone : ¬(q :: rest ≠ [] ∧ (afterStart? (q :: rest) (c :: (a ++ s))).isSome = true) := by
      rw [hstart]
      rintro ⟨-, ⟨⟩⟩
    rw [List.cons_append, replaceAll, replaceFrom, if_neg hnone]
    exact congrArg (c :: ·) (ih ha)

theorem replaceFrom_skip (pattern : List Char) (t s : List Char) :
    replaceFrom pattern replacement t.length (t ++ s) = replaceAll pattern replacement s := by
  induction t with
  | nil => rfl
  | cons c t ih => exact ih

/-- The first occurrence is replaced. -/
theorem replaceAll_first (s : List Char) :
    replaceAll (q :: rest) replacement (q :: rest ++ s) =
      replacement ++ replaceAll (q :: rest) replacement s := by
  have hstart : afterStart? (q :: rest) (q :: rest ++ s) = some s := afterStart?_append _ s
  have hfirst : q :: rest ≠ [] ∧ (afterStart? (q :: rest) (q :: (rest ++ s))).isSome = true :=
    ⟨List.cons_ne_nil q rest, by rw [← List.cons_append, hstart]; rfl⟩
  rw [replaceAll, List.cons_append, replaceFrom, if_pos hfirst, List.length_cons,
    Nat.add_sub_cancel, replaceFrom_skip]

end Text

/-! ## Lines and commands -/

namespace Script

/-- A line that is passed over: a blank one, or a comment. -/
def Silent (line : List Char) : Prop := trim line = [] ∨ (trim line).head? = some '#'

instance (line : List Char) : Decidable (Silent line) := inferInstanceAs (Decidable (_ ∨ _))

/-- The commands among some lines, without blanks around them. -/
def spoken : List (List Char) → List String
  | [] => []
  | line :: rest => if Silent line then spoken rest else String.ofList (trim line) :: spoken rest

/-- **The commands of a script**: what it says but for blank lines and comments. -/
def commands (source : String) : List String := spoken (lines source.toList)

theorem spoken_append (before rest : List (List Char)) :
    spoken (before ++ rest) = spoken before ++ spoken rest := by
  induction before with
  | nil => rfl
  | cons line before ih =>
    rw [List.cons_append, spoken, spoken]
    split
    · exact ih
    · rw [ih, List.cons_append]

/-- The report on a line of a script, in the name of a step. -/
def report (stepId source : String) (line : Nat) (cause : SceneError) : String :=
  "Traceback (most recent call last):\n  File " ++ ("\"" ++ stepId ++ "\"") ++
    (", line " ++ String.ofList (Nat.toDigits 10 line) ++ ", in <module>\n") ++
    (⟨stepId, source⟩ : Script).blame cause.message

/-- What names a script is put in the place of the text without a name. -/
theorem blame_parts (s : Script) {front back : String} (message : String)
    (free : '"' ∉ front.toList) (free' : '"' ∉ back.toList) :
    s.blame (front ++ "\"<string>\"" ++ back ++ message) =
      front ++ ("\"" ++ s.name ++ "\"") ++ back ++ s.blame message := by
  unfold blame
  generalize "\"" ++ s.name ++ "\"" = name
  obtain ⟨rest, hpattern⟩ : ∃ rest, "\"<string>\"".toList = '"' :: rest := ⟨_, rfl⟩
  refine String.toList_inj.mp ?_
  simp only [String.toList_append, String.toList_ofList, List.append_assoc, hpattern]
  rw [replaceAll_behind free, replaceAll_first, replaceAll_behind free']

/-- **The report names the step and the line.** -/
theorem blame_report (stepId source : String) (line : Nat) (cause : SceneError) :
    (⟨stepId, source⟩ : Script).blame (SceneError.inScript line cause).message =
      report stepId source line cause := by
  have hfront : '"' ∉ "Traceback (most recent call last):\n  File ".toList := by decide +kernel
  have hends : '"' ∉ ", line ".toList ∧ '"' ∉ ", in <module>\n".toList := by decide +kernel
  have hback : '"' ∉
      (", line " ++ String.ofList (Nat.toDigits 10 line) ++ ", in <module>\n").toList := by
    simp only [String.toList_append, String.toList_ofList, List.mem_append]
    rintro ((hline | hdigit) | hmodule)
    · exact hends.1 hline
    · have hisDigit := Nat.isDigit_of_mem_toDigits (by decide) (by decide) hdigit
      exact absurd hisDigit (by decide)
    · exact hends.2 hmodule
  have hmessage : (SceneError.inScript line cause).message =
      "Traceback (most recent call last):\n  File " ++ "\"<string>\"" ++
        (", line " ++ String.ofList (Nat.toDigits 10 line) ++ ", in <module>\n") ++
          cause.message := by
    have hstart : "Traceback (most recent call last):\n  File \"<string>\", line " =
      "Traceback (most recent call last):\n  File " ++ "\"<string>\"" ++ ", line " := by
        decide +kernel
    have hwhole := congrArg (fun s => s ++ String.ofList (Nat.toDigits 10 line) ++
      ", in <module>\n" ++ cause.message) hstart
    refine Eq.trans hwhole ?_
    simp only [String.append_assoc]
  exact (congrArg (blame ⟨stepId, source⟩) hmessage).trans
    (blame_parts ⟨stepId, source⟩ cause.message hfront hback)

end Script

/-! ## The line at which a script fails -/

namespace Stage

variable {surface : Surface} {line : List Char} {rest : List (List Char)} {number : Nat}
  {st st' : Stage}

theorem runLines_silent (silent : Script.Silent line) :
    runLines surface number (line :: rest) st = runLines surface (number + 1) rest st :=
  if_pos silent

theorem runLines_spoken (spoken : ¬Script.Silent line) :
    runLines surface number (line :: rest) st =
      match st.invoke (.ofText (String.ofList (trim line)) .execute) surface with
      | (.error e, st) => (.error (.inScript number e), st)
      | (.ok (), st) => runLines surface (number + 1) rest st := by
  rewrite [runLines, if_neg (show ¬(trim line = [] ∨ (trim line).head? = some '#') from spoken)]
  rcases st.invoke (.ofText (String.ofList (trim line)) .execute) surface with ⟨_ | _, _⟩ <;> rfl

/-- **A script fails at a line**: the lines before it are run to the stage that is left, on which
the command of the line fails and changes nothing. -/
structure FailsAt (surface : Surface) (number : Nat) (before : List (List Char)) (line : List Char)
    (cause : SceneError) (st st' : Stage) : Prop where
  spoken : ¬Script.Silent line
  reached : runLines surface number before st = (.ok (), st')
  refused : st'.invoke (.ofText (String.ofList (trim line)) .execute) surface = (.error cause, st')

/-- **A script that fails does so at its first line that fails**, and says which one that is. -/
theorem runLines_failed {lines : List (List Char)} {e : SceneError} (atomic : st.operators.Atomic)
    (h : runLines surface number lines st = (.error e, st')) :
    ∃ before line after cause, lines = before ++ line :: after ∧
      FailsAt surface number before line cause st st' ∧
        e = .inScript (number + before.length) cause := by
  induction lines generalizing number st with
  | nil => cases h
  | cons line rest ih =>
    by_cases hline : Script.Silent line
    · rw [runLines_silent hline] at h
      obtain ⟨before, failing, after, cause, rfl, hfails, rfl⟩ := ih atomic h
      refine ⟨line :: before, failing, after, cause, rfl, ⟨hfails.spoken, ?_, hfails.refused⟩, ?_⟩
      · rw [runLines_silent hline, hfails.reached]
      · rw [List.length_cons, Nat.add_right_comm, Nat.add_assoc]
    · rw [runLines_spoken hline] at h
      have hoperators := invoke_operators st (.ofText (String.ofList (trim line)) .execute) surface
      cases hinvoke : st.invoke (.ofText (String.ofList (trim line)) .execute) surface with
      | mk result next =>
        rw [hinvoke] at h hoperators
        cases result with
        | error cause =>
          cases h
          obtain rfl := invoke_failed atomic hinvoke
          exact ⟨[], line, rest, cause, rfl, ⟨hline, rfl, hinvoke⟩, rfl⟩
        | ok done =>
          have hatomic : next.operators.Atomic := by rwa [hoperators]
          obtain ⟨before, failing, after, cause, rfl, hfails, rfl⟩ := ih hatomic h
          refine ⟨line :: before, failing, after, cause, rfl,
            ⟨hfails.spoken, ?_, hfails.refused⟩, ?_⟩
          · rw [runLines_spoken hline, hinvoke]
            exact hfails.reached
          · rw [List.length_cons, Nat.add_right_comm, Nat.add_assoc]

/-! ## Stages that are alike -/

/-- **Stages are alike** if they have the same scene and operators, and the same texts in their
journals. -/
structure Alike (a b : Stage) : Prop where
  scene : b.scene = a.scene
  operators : b.operators = a.operators
  texts : b.journal.map JournalEntry.command = a.journal.map JournalEntry.command

theorem Alike.refl (st : Stage) : Alike st st := ⟨rfl, rfl, rfl⟩

/-- A command looks at no more of its surface than the area. -/
theorem perform_area {surface' : Surface} (area : surface'.area = surface.area) (c : Command) :
    st.perform c surface' = st.perform c surface := by
  have htype : st.scene.layout.typeAt? surface' = st.scene.layout.typeAt? surface := by
    rw [Layout.typeAt?, Layout.typeAt?, area]
  unfold perform
  rw [htype]

/-- **A command does the same to stages that are alike**, in the same area. -/
theorem Alike.invoke {a b : Stage} (h : Alike a b) {surface' : Surface}
    (area : surface'.area = surface.area) (i : Invocation) :
    (b.invoke i surface').1 = (a.invoke i surface).1 ∧
      Alike (a.invoke i surface).2 (b.invoke i surface').2 := by
  have hperform : b.perform i.command surface' = a.perform i.command surface := by
    rw [perform_area area]
    unfold perform
    rw [h.scene, h.operators]
  unfold Stage.invoke
  rw [hperform]
  cases a.perform i.command surface with
  | mk result scene =>
    cases result with
    | error e => exact ⟨rfl, rfl, h.operators, h.texts⟩
    | ok done =>
      refine ⟨rfl, rfl, h.operators, ?_⟩
      simp only [List.map_append, h.texts]
      rfl

end Stage

/-- A step records a command, to be run at once in any editor. -/
structure Step.Records (step : Step) (command : String) : Prop where
  text : step.text = command
  mode : step.callMode = .execute
  anywhere : step.uiType = ""

/-- A command that is not addressed to the player: neither a directive nor a call that has it play
an action. -/
structure Command.Outward (command : String) : Prop where
  plain : Directive.payload? command = none
  other : ∀ c, parse command = .call c → c.id ≠ "ar.local_play"

namespace Stage

variable {a b : Stage} {step : Step} {command : String} {base surface : Surface}

/-- **A step that records a command does what the command does.** -/
theorem Alike.playCommand (h : Alike a b) (records : step.Records command)
    (outward : Command.Outward command) (area : base.area = surface.area) :
    ∃ b', host.playCommand .group base step (Command.parse command) b =
        ((a.invoke (.ofText command .execute) surface).1.mapError fun e =>
          .invocation (String.ofList (trim command.toList)) e.message, b') ∧
      Alike (a.invoke (.ofText command .execute) surface).2 b' := by
  have hself : Host.playsItself (Command.parse command) = false := by
    cases hcommand : Command.parse command with
    | call c => simp [Host.playsItself, outward.other c hcommand]
    | assign path value => rfl
    | expression text => rfl
  have htype : step.requiredType? = none := if_pos records.anywhere
  have haim : (host.layout b).aim base none =
    (host.layout b, ⟨Target.onContent (host.layout b) base, none⟩) := rfl
  have harea : (Target.onContent (host.layout b) base).area = surface.area := by
    rw [← area]
    unfold Target.onContent
    split <;> rfl
  have hinvocation : Invocation.mk (Command.parse command) step.callMode
      (String.ofList (trim step.text.toList)) = .ofText command .execute := by
    rw [records.mode, records.text, Invocation.ofText]
  unfold Host.playCommand
  rw [hself, htype, haim]
  generalize Target.onContent (host.layout b) base = surface' at harea
  obtain ⟨hresult, halike⟩ := h.invoke harea (.ofText command .execute)
  have hoccupy : host.occupy (host.layout b) ⟨surface', none⟩ b = b := rfl
  have hinvoke : host.invokeGrouped .group (.ofText command .execute) surface' b =
    worded (b.invoke (.ofText command .execute) surface') := rfl
  dsimp only
  rw [if_neg Bool.false_ne_true, hinvocation, records.text, hoccupy, hinvoke, ← hresult]
  cases hb : b.invoke (.ofText command .execute) surface' with
  | mk result b' =>
    rw [hb] at halike
    cases result with
    | error e => exact ⟨b', rfl, halike⟩
    | ok done =>
      refine ⟨host.redrawAt surface' b', rfl, ?_⟩
      unfold Host.redrawAt
      split
      · exact ⟨halike.scene, halike.operators, halike.texts⟩
      · exact halike

end Stage

end Replay
