import Replay.Proofs.Host.Keeps
import Replay.Proofs.Playback.Block

/-!
# Performances

What blocks mean: they are performed one after the other, up to the first failure. A loop of a fixed
number of rounds stands for its body so many times; the rounds of a range and of a condition are each
a level of nesting deeper than the loop. There are no passes, no frames and no resumptions here.

* `Performs` — how blocks are performed
* `Performs.unique` — the rules leave no choice
* `Performs.splits` — blocks are performed one after the other
* `Performs.keeps` — a performance leaves the host in the states that its operations keep it in
-/

set_option autoImplicit false

namespace Replay

/-- How blocks are performed: on which host, and how their commands run there. -/
structure Manner (σ : Type) where
  host : Host σ
  /-- How deep rounds may be nested. -/
  limit : Nat
  grouping : Grouping
  base : Surface

/-- How a performance ends, and the state that it leaves. -/
inductive Ending (σ : Type)
  | done (state : σ)
  /-- The first failure, and the step to blame. -/
  | failed (e : PlayError) (culprit : Step) (state : σ)

namespace Ending

variable {σ : Type}

/-- The state of the host at the end. -/
def state : Ending σ → σ
  | done s => s
  | failed _ _ s => s

/-- The result of the playback of which this is the end. -/
def result : Ending σ → Result
  | done _ => .ok .finished
  | failed e _ _ => .error e

/-- The id of the step to blame. -/
def blame? : Ending σ → Option String
  | done _ => none
  | failed _ culprit _ => some culprit.id

theorem eq_done {ending : Ending σ} {outcome : Outcome} (h : .ok outcome = ending.result) :
    ∃ state, ending = .done state := by
  cases ending with
  | done state => exact ⟨state, rfl⟩
  | failed e culprit state => cases h

theorem eq_failed {ending : Ending σ} {e : PlayError} (h : .error e = ending.result) :
    ∃ culprit state, ending = .failed e culprit state := by
  cases ending with
  | done state => cases h
  | failed e culprit state => cases h; exact ⟨culprit, state, rfl⟩

end Ending

variable {σ : Type}

/-- **How blocks are performed.** `Performs m depth blocks s ending`: performed so many rounds deep
from a state of the host, these blocks come to that ending. -/
inductive Performs (m : Manner σ) : Nat → List Block → σ → Ending σ → Prop
  | nil {depth s} : Performs m depth [] s (.done s)
  | act {depth step rest s f s' ending}
      (effect : step.effect? m.host m.grouping m.base = some f) (done : f s = (.ok (), s'))
      (after : Performs m depth rest s' ending) : Performs m depth (.step step :: rest) s ending
  | fail {depth step rest s f e s'}
      (effect : step.effect? m.host m.grouping m.base = some f) (failed : f s = (.error e, s')) :
      Performs m depth (.step step :: rest) s (.failed e step s')
  | badLoop {depth opening cause body rest s} :
      Performs m depth (.loop opening (.error cause) body :: rest) s
        (.failed (.malformedDirective opening.text cause) opening s)
  /-- A negative number counts as nought. -/
  | times {depth opening count body rest s ending}
      (after : Performs m depth ((List.replicate count.toNat body).flatten ++ rest) s ending) :
      Performs m depth (.loop opening (.ok (.times count)) body :: rest) s ending
  | badRange {depth opening start stop by' body rest s}
      (counts : rangeCount? start stop by' = none) :
      Performs m depth (.loop opening (.ok (.range start stop by')) body :: rest) s
        (.failed (.invalidRange start stop by') opening s)
  | range {depth opening start stop by' count body rest s ending}
      (counts : rangeCount? start stop by' = some count)
      (after : Performs m depth (List.replicate count (.round opening body) ++ rest) s ending) :
      Performs m depth (.loop opening (.ok (.range start stop by')) body :: rest) s ending
  | enough {depth opening condition body rest s s' ending}
      (holds : m.host.evaluate s condition = (.ok false, s'))
      (after : Performs m depth rest s' ending) :
      Performs m depth (.loop opening (.ok (.whileTrue condition)) body :: rest) s ending
  | again {depth opening condition body rest s s' ending}
      (holds : m.host.evaluate s condition = (.ok true, s'))
      (after : Performs m depth
        (.round opening body :: .loop opening (.ok (.whileTrue condition)) body :: rest) s' ending) :
      Performs m depth (.loop opening (.ok (.whileTrue condition)) body :: rest) s ending
  | unknown {depth opening condition body rest s report s'}
      (holds : m.host.evaluate s condition = (.error report, s')) :
      Performs m depth (.loop opening (.ok (.whileTrue condition)) body :: rest) s
        (.failed (.condition condition report) opening s')
  | tooDeep {depth opening body rest s} (deep : m.limit < depth + 1) :
      Performs m depth (.round opening body :: rest) s
        (.failed (.nestingTooDeep m.limit) opening s)
  | roundFailed {depth opening body rest s e culprit s'} (shallow : depth + 1 ≤ m.limit)
      (inside : Performs m (depth + 1) body s (.failed e culprit s')) :
      Performs m depth (.round opening body :: rest) s (.failed e culprit s')
  | roundDone {depth opening body rest s s' ending} (shallow : depth + 1 ≤ m.limit)
      (inside : Performs m (depth + 1) body s (.done s')) (after : Performs m depth rest s' ending) :
      Performs m depth (.round opening body :: rest) s ending

/-- A performance leaves the host in the states that its operations keep it in. -/
theorem Performs.keeps {m : Manner σ} {p : σ → Prop} (k : m.host.Keeps p) {depth : Nat}
    {blocks : List Block} {s : σ} {ending : Ending σ} (h : Performs m depth blocks s ending)
    (hs : p s) : p ending.state := by
  induction h with
  | nil => exact hs
  | act effect done _ ih => exact ih (k.effect effect done hs)
  | fail effect failed => exact k.effect effect failed hs
  | badLoop => exact hs
  | times _ ih => exact ih hs
  | badRange counts => exact hs
  | range counts _ ih => exact ih hs
  | enough holds _ ih => exact ih (k.condition holds hs)
  | again holds _ ih => exact ih (k.condition holds hs)
  | unknown holds => exact k.condition holds hs
  | tooDeep deep => exact hs
  | roundFailed shallow _ ih => exact ih hs
  | roundDone shallow _ _ ih ih' => exact ih' (ih hs)

/-- **The rules leave no choice.** -/
theorem Performs.unique {m : Manner σ} {depth : Nat} {blocks : List Block} {s : σ}
    {ending ending' : Ending σ} (h : Performs m depth blocks s ending)
    (h' : Performs m depth blocks s ending') : ending = ending' := by
  induction h generalizing ending' with
  | nil => cases h'; rfl
  | act effect done _ ih =>
    cases h' with
    | act effect' done' after' =>
      cases effect.symm.trans effect'
      cases done.symm.trans done'
      exact ih after'
    | fail effect' failed' =>
      cases effect.symm.trans effect'
      cases done.symm.trans failed'
  | fail effect failed =>
    cases h' with
    | act effect' done' _ =>
      cases effect.symm.trans effect'
      cases failed.symm.trans done'
    | fail effect' failed' =>
      cases effect.symm.trans effect'
      cases failed.symm.trans failed'
      rfl
  | badLoop => cases h'; rfl
  | times _ ih =>
    cases h' with
    | times after' => exact ih after'
  | badRange counts =>
    cases h' with
    | badRange _ => rfl
    | range counts' _ => cases counts.symm.trans counts'
  | range counts _ ih =>
    cases h' with
    | badRange counts' => cases counts.symm.trans counts'
    | range counts' after' =>
      cases counts.symm.trans counts'
      exact ih after'
  | enough holds _ ih =>
    cases h' with
    | enough holds' after' => cases holds.symm.trans holds'; exact ih after'
    | again holds' _ => cases holds.symm.trans holds'
    | unknown holds' => cases holds.symm.trans holds'
  | again holds _ ih =>
    cases h' with
    | enough holds' _ => cases holds.symm.trans holds'
    | again holds' after' => cases holds.symm.trans holds'; exact ih after'
    | unknown holds' => cases holds.symm.trans holds'
  | unknown holds =>
    cases h' with
    | enough holds' _ => cases holds.symm.trans holds'
    | again holds' _ => cases holds.symm.trans holds'
    | unknown holds' => cases holds.symm.trans holds'; rfl
  | tooDeep deep =>
    cases h' with
    | tooDeep _ => rfl
    | roundFailed shallow _ => omega
    | roundDone shallow _ _ => omega
  | roundFailed shallow _ ih =>
    cases h' with
    | tooDeep deep => omega
    | roundFailed _ inside' => exact ih inside'
    | roundDone _ inside' _ => cases ih inside'
  | roundDone shallow _ _ ih ih' =>
    cases h' with
    | tooDeep deep => omega
    | roundFailed _ inside' => cases ih inside'
    | roundDone _ inside' after' => cases ih inside'; exact ih' after'

/-! ## One after the other -/

/-- How some blocks are performed in front of others: to their end, or up to a failure. -/
inductive Performs.Splits (m : Manner σ) (depth : Nat) (first later : List Block) (s : σ) :
    Ending σ → Prop
  | done {s' ending} (front : Performs m depth first s (.done s'))
      (behind : Performs m depth later s' ending) : Splits m depth first later s ending
  | failed {e culprit s'} (front : Performs m depth first s (.failed e culprit s')) :
      Splits m depth first later s (.failed e culprit s')

/-- What comes first may be performed differently. -/
theorem Performs.Splits.imp {m : Manner σ} {depth : Nat} {first first' later : List Block} {s s' : σ}
    {ending : Ending σ} (h : Splits m depth first later s ending)
    (rule : ∀ {ending}, Performs m depth first s ending → Performs m depth first' s' ending) :
    Splits m depth first' later s' ending := by
  cases h with
  | done front behind => exact .done (rule front) behind
  | failed front => exact .failed (rule front)

/-- **Blocks are performed one after the other.** -/
theorem Performs.splits {m : Manner σ} {depth : Nat} {blocks later : List Block} {s : σ}
    {ending : Ending σ} (h : Performs m depth blocks s ending) :
    ∀ {first}, blocks = first ++ later → Splits m depth first later s ending := by
  induction h with
  | nil =>
    intro first hblocks
    obtain ⟨rfl, rfl⟩ := List.append_eq_nil_iff.mp hblocks.symm
    exact .done .nil .nil
  | act effect done after ih =>
    rintro (_ | ⟨block, first⟩) hblocks
    · cases hblocks
      exact .done .nil (.act effect done after)
    · cases hblocks
      exact (ih rfl).imp (.act effect done)
  | fail effect failed =>
    rintro (_ | ⟨block, first⟩) hblocks
    · cases hblocks
      exact .done .nil (.fail effect failed)
    · cases hblocks
      exact .failed (.fail effect failed)
  | badLoop =>
    rintro (_ | ⟨block, first⟩) hblocks
    · cases hblocks
      exact .done .nil .badLoop
    · cases hblocks
      exact .failed .badLoop
  | times after ih =>
    rintro (_ | ⟨block, first⟩) hblocks
    · cases hblocks
      exact .done .nil (.times after)
    · cases hblocks
      exact (ih (List.append_assoc _ _ _).symm).imp .times
  | badRange counts =>
    rintro (_ | ⟨block, first⟩) hblocks
    · cases hblocks
      exact .done .nil (.badRange counts)
    · cases hblocks
      exact .failed (.badRange counts)
  | range counts after ih =>
    rintro (_ | ⟨block, first⟩) hblocks
    · cases hblocks
      exact .done .nil (.range counts after)
    · cases hblocks
      exact (ih (List.append_assoc _ _ _).symm).imp (.range counts)
  | enough holds after ih =>
    rintro (_ | ⟨block, first⟩) hblocks
    · cases hblocks
      exact .done .nil (.enough holds after)
    · cases hblocks
      exact (ih rfl).imp (.enough holds)
  | again holds after ih =>
    rintro (_ | ⟨block, first⟩) hblocks
    · cases hblocks
      exact .done .nil (.again holds after)
    · cases hblocks
      exact (ih rfl).imp (.again holds)
  | unknown holds =>
    rintro (_ | ⟨block, first⟩) hblocks
    · cases hblocks
      exact .done .nil (.unknown holds)
    · cases hblocks
      exact .failed (.unknown holds)
  | tooDeep deep =>
    rintro (_ | ⟨block, first⟩) hblocks
    · cases hblocks
      exact .done .nil (.tooDeep deep)
    · cases hblocks
      exact .failed (.tooDeep deep)
  | roundFailed shallow inside _ =>
    rintro (_ | ⟨block, first⟩) hblocks
    · cases hblocks
      exact .done .nil (.roundFailed shallow inside)
    · cases hblocks
      exact .failed (.roundFailed shallow inside)
  | roundDone shallow inside after _ ih =>
    rintro (_ | ⟨block, first⟩) hblocks
    · cases hblocks
      exact .done .nil (.roundDone shallow inside after)
    · cases hblocks
      exact (ih rfl).imp (.roundDone shallow inside)

end Replay
