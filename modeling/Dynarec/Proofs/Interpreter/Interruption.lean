import Dynarec.Proofs.Interpreter.Bound
import Dynarec.Proofs.Interpreter.Nesting
import Dynarec.Proofs.Interpreter.Stopping

/-!
Runs that are interrupted. The run flag may be cleared before any step of the code and of the code that it calls in
place. Whenever that is, the run comes to the same end as one that is left alone, with the same registers and the same
memory; and once the flag is cleared it stays so.
-/
namespace Dynarec
namespace Interpreter
open Effect Outcome

/-- Whether the flag is cleared at a moment of a run: before the step whose number comes first, in that step before the
step of the code it calls whose number comes second, and so on. -/
abbrev Moments := List Nat → Bool

/-- The flag is left alone. -/
def Moments.never : Moments := fun _ => false

/-- The moments of the code that the first step calls. -/
def Moments.within (moments : Moments) : Moments := fun moment => moments (0 :: moment)

/-- The moments behind the first step. -/
def Moments.later (moments : Moments) : Moments
  | [] => false
  | number :: inner => moments ((number + 1) :: inner)

/-- Runs an activation to its end while the flag is cleared at moments of the run. -/
def execAmid (cache : Cache) : Nat → Moments → Activation → Context → Outcome (UInt64 × Context)
  | 0, _, _, _ => .error .outOfFuel
  | fuel + 1, moments, .compiled function args frame, context =>
    match step (link cache (execAmid cache fuel moments.within)) function args frame (context.stopIf (moments [0])) with
    | .ok (.next frame context) => execAmid cache fuel moments.later (.compiled function args frame) context
    | .ok (.done next context) => .ok (next, context)
    | .error halt => .error halt
  | _ + 1, moments, .thunk layout function, context => do
    let context := context.stopIf (moments [0])
    let (next, regs, world) ← function.enter layout context.regs context.world
    return (next, { context with regs, world })
  | fuel + 1, moments, .probe probe args, context =>
    answer cache (link cache (execAmid cache fuel moments.within)) args (context.stopIf (moments [0])) probe

/-- The moments of a run that is left alone. -/
inductive Occurs (cache : Cache) : Activation → Context → List Nat → Prop
  | now {activation : Activation} {context : Context} : Occurs cache activation context [0]
  | within {activation callee : Activation} {context inner : Context} {target : UInt64} {moment : List Nat} :
      activation.callee? = some target → entered? cache target context = some (callee, inner) →
        Occurs cache callee inner moment → Occurs cache activation context (0 :: moment)
  | later {fuel number : Nat} {function : Ir.Function} {args : List UInt64} {frame next : Frame}
      {context after : Context} {inner : List Nat} :
      step (link cache (exec cache fuel)) function args frame context = .ok (.next next after) →
        Occurs cache (.compiled function args next) after (number :: inner) →
          Occurs cache (.compiled function args frame) context ((number + 1) :: inner)

variable {cache : Cache} {moments : Moments} {fuel : Nat} {activation : Activation} {context : Context}

theorem Moments.later_never : never.later = never := by
  funext moment
  cases moment <;> rfl

/-- A run without interruptions is an ordinary one. -/
theorem execAmid_never (cache : Cache) (fuel : Nat) (activation : Activation) (context : Context) :
    execAmid cache fuel .never activation context = exec cache fuel activation context := by
  induction fuel generalizing activation context with
  | zero => rfl
  | succ fuel ih =>
    have same : execAmid cache fuel Moments.never.within = exec cache fuel := funext₂ ih
    cases activation with
    | compiled function args frame =>
      simp only [execAmid, exec, same, Moments.later_never, ih]
      rfl
    | thunk layout function => rfl
    | probe probe args =>
      simp only [execAmid, exec, same]
      rfl

theorem execAmid_succ (cache : Cache) (fuel : Nat) (moments : Moments) (activation : Activation) (context : Context) :
    execAmid cache (fuel + 1) moments activation (context.stopIf (moments [0])) =
      execAmid cache (fuel + 1) moments activation context := by
  cases stops : moments [0] with
  | false => rfl
  | true => cases activation <;> simp only [execAmid, stops, Context.stopIf, ↓reduceIte, Context.stop_stop]

section
variable {related : Context → Context → Prop} {admits : Calling.HostFunction → Prop} {left right : Context}
  (congruence : Context.Congruence related admits)
  (interrupts : ∀ {left right}, related left right → ∀ first second, related (left.stopIf first) (right.stopIf second))
include congruence interrupts

/-- Interruptions and a larger bound change nothing in what code makes of related contexts. -/
theorem execAmid_related (held : cache.Admitted admits) {fuel more : Nat} (atLeast : fuel ≤ more)
    (moments momentsToo : Moments) (admitted : activation.Admitted admits) (agree : related left right) :
    Below (Arrival.Related related) (execAmid cache fuel moments activation left)
      (execAmid cache more momentsToo activation right) := by
  induction fuel generalizing more moments momentsToo activation left right with
  | zero => exact fun unbounded => absurd rfl unbounded
  | succ fuel ih =>
    obtain ⟨more, rfl⟩ : ∃ rest, more = rest + 1 := ⟨more - 1, by omega⟩
    have calls : CallsBelow related (link cache (execAmid cache fuel moments.within))
        (link cache (execAmid cache more momentsToo.within)) :=
      calls_below congruence held fun activation left right admitted agree => ih (by omega) _ _ admitted agree
    have begin := interrupts agree (moments [0]) (momentsToo [0])
    cases activation with
    | compiled function args frame =>
      have steps := step_below congruence calls function args frame begin
      have compiled : ∀ frame, (Activation.compiled function args frame).Admitted admits := by
        intro frame layout function same
        cases same
      simp only [execAmid]
      cases first : step (link cache (execAmid cache fuel moments.within)) function args frame
          (left.stopIf (moments [0])) with
      | error halt =>
        intro unbounded
        rw [first] at steps
        have same := steps (by simpa using unbounded)
        generalize step (link cache (execAmid cache more momentsToo.within)) function args frame _ = second at same
        cases same
        exact .error halt
      | ok reached =>
        rw [first] at steps
        have same := steps (by simp)
        generalize step (link cache (execAmid cache more momentsToo.within)) function args frame _ = second at same
        cases same with
        | ok same =>
          cases same with
          | next frame agree => exact ih (by omega) _ _ (compiled frame) agree
          | done next agree => exact .ok ⟨rfl, agree⟩
    | thunk layout function =>
      refine (enter_below congruence (admitted _ _ rfl) layout begin).bind ?_
      rintro ⟨next, leftRegs, leftWorld⟩ ⟨_, rightRegs, rightWorld⟩ ⟨rfl, agree⟩
      exact .ok ⟨rfl, agree⟩
    | probe probe args => exact answer_below congruence calls cache args begin probe

end

theorem Stops.interrupts {left right : Context} (stops : left.Stops right) (first second : Bool) :
    (left.stopIf first).Stops (right.stopIf second) := by
  obtain rfl : right = left.stop := stops
  unfold Context.Stops
  simp

theorem entered?_of_stop {target : UInt64} {callee : Activation} {inner other : Context}
    (enters : entered? cache target context = some (callee, inner)) (same : other.stop = context.stop) :
    ∃ innerToo, entered? cache target other = some (callee, innerToo) ∧ innerToo.stop = inner.stop := by
  obtain ⟨shallow, subroutine, there, rfl, rfl⟩ := entered?_eq_some enters
  have regs : other.regs = context.regs := congrArg (·.regs) same
  have depth : other.depth = context.depth := congrArg (·.depth) same
  refine ⟨{ other with depth := other.depth + 1 }, ?_, ?_⟩
  · unfold entered?
    rw [depth, regs, if_neg (Nat.not_le.mpr shallow), there]
    rfl
  · exact congrArg (fun context : Context => { context with depth := context.depth + 1 }) same

/-- A step of code that is about to make a call makes it, and goes on behind it. -/
theorem step_calls {call : UInt64 → Context → Outcome (UInt64 × Context)} {function : Ir.Function} {args : List UInt64}
    {frame : Frame} {target : UInt64} {reached : Step}
    (calls : (Activation.compiled function args frame).callee? = some target)
    (moves : step call function args frame context = .ok reached) :
    ∃ word next after, call target context = .ok (word, after) ∧ reached = .next next after := by
  unfold Activation.callee? at calls
  unfold step at moves
  dsimp only at calls
  split at calls
  · next dst own here =>
    cases calls
    rw [here] at moves
    obtain ⟨⟨word, after⟩, called, moves⟩ := of_bind moves
    obtain ⟨locals, _, assigned⟩ := of_bind moves
    cases assigned
    exact ⟨word, _, after, called, rfl⟩
  · cases calls

section
variable (held : cache.Admitted Calling.HostFunction.Heedless)
include held

theorem execAmid_stops {more : Nat} (atLeast : fuel ≤ more) (moments momentsToo : Moments)
    (admitted : activation.Admitted Calling.HostFunction.Heedless) (context : Context) :
    Below (Arrival.Related Context.Stops) (execAmid cache fuel moments activation context)
      (execAmid cache more momentsToo activation context.stop) :=
  execAmid_related stops_congruence Stops.interrupts held atLeast moments momentsToo admitted rfl

/-- On a stopped thread a run comes to the same as elsewhere, whenever this is interrupted. -/
theorem execAmid_stop (fuel : Nat) (moments momentsToo : Moments)
    (admitted : activation.Admitted Calling.HostFunction.Heedless) (context : Context) :
    execAmid cache fuel momentsToo activation context.stop =
      (execAmid cache fuel moments activation context).map fun (next, after) => (next, after.stop) := by
  have below := execAmid_stops held (le_refl fuel) moments momentsToo admitted context
  have above := execAmid_related stops_congruence.flip (fun stops first second => Stops.interrupts stops second first)
    held (le_refl fuel) momentsToo moments admitted (rfl : Context.Stops context context.stop)
  have same := Outcome.Agree.of_below below above
  generalize execAmid cache fuel moments activation context = here at same
  generalize execAmid cache fuel momentsToo activation context.stop = there at same
  cases same with
  | error halt => rfl
  | @ok left right same =>
    obtain ⟨next, after⟩ := left
    obtain ⟨_, _⟩ := right
    obtain ⟨rfl, rfl⟩ := same
    rfl

/-- What a run comes to that is left alone, it comes to whenever it is interrupted. -/
theorem execAmid_returns (moments : Moments) (admitted : activation.Admitted Calling.HostFunction.Heedless)
    {word : UInt64} {after other : Context} (ran : exec cache fuel activation context = .ok (word, after))
    (same : other.stop = context.stop) :
    ∃ left, execAmid cache fuel moments activation other = .ok (word, left) ∧ left.stop = after.stop := by
  have stopped := execAmid_stop held fuel .never moments admitted context
  have stoppedToo := execAmid_stop held fuel moments moments admitted other
  rw [execAmid_never, ran] at stopped
  rw [same, stopped] at stoppedToo
  cases interrupted : execAmid cache fuel moments activation other with
  | error halt =>
    rw [interrupted] at stoppedToo
    cases stoppedToo
  | ok arrival =>
    rw [interrupted] at stoppedToo
    obtain ⟨next, left⟩ := arrival
    obtain ⟨rfl, stops⟩ := Prod.mk.inj (Except.ok.inj stoppedToo)
    exact ⟨left, rfl, stops.symm⟩

/-- A stopped thread stays so. -/
theorem execAmid_stopped (admitted : activation.Admitted Calling.HostFunction.Heedless)
    (stopped : context.stop = context) {word : UInt64} {after : Context}
    (ran : execAmid cache fuel moments activation context = .ok (word, after)) : after.stop = after := by
  have same := execAmid_stop held fuel moments moments admitted context
  rw [stopped, ran] at same
  exact (congrArg Prod.snd (Except.ok.inj same)).symm

end

theorem link_stopped {target word : UInt64} {callee : Activation} {inner after : Context}
    (enters : entered? cache target context = some (callee, inner))
    (stops : ∀ word left, execAmid cache fuel moments callee inner = .ok (word, left) → left.stop = left)
    (called : link cache (execAmid cache fuel moments) target context = .ok (word, after)) : after.stop = after := by
  rw [link_enters _ enters] at called
  obtain ⟨⟨_, left⟩, ran, called⟩ := of_bind called
  cases called
  exact congrArg (fun context : Context => { context with depth := left.depth - 1 }) (stops _ _ ran)

section
variable (held : cache.Admitted Calling.HostFunction.Heedless)
include held

/-- Steps of runs that were interrupted at other moments lead to the same place. -/
theorem step_stops {more : Nat} (atLeast : fuel ≤ more) (moments momentsToo : Moments) (function : Ir.Function)
    (args : List UInt64) (frame : Frame) (context : Context) :
    Below (Step.Agree Context.Stops) (step (link cache (execAmid cache fuel moments)) function args frame context)
      (step (link cache (execAmid cache more momentsToo)) function args frame context.stop) := by
  refine step_below stops_congruence (calls_below stops_congruence held ?_) function args frame rfl
  rintro activation left _ admitted rfl
  exact execAmid_stops held atLeast moments momentsToo admitted left

theorem step_same {fuelToo : Nat} {momentsToo : Moments} {function : Ir.Function} {args : List UInt64}
    {frame next : Frame} {other after : Context} (same : other.stop = context.stop)
    (moves : step (link cache (execAmid cache fuel moments)) function args frame context = .ok (.next next after))
    {reached : Step}
    (movesToo : step (link cache (execAmid cache fuelToo momentsToo)) function args frame other = .ok reached) :
    ∃ afterToo, reached = .next next afterToo ∧ afterToo.stop = after.stop := by
  -- both come to where a run on a stopped thread comes to within the larger bound
  have first := step_stops held (Nat.le_max_left fuel fuelToo) moments moments function args frame context
  have second := step_stops held (Nat.le_max_right fuel fuelToo) momentsToo moments function args frame other
  rw [moves] at first
  rw [movesToo, same] at second
  have there := first (by simp)
  have thereToo := second (by simp)
  generalize step (link cache (execAmid cache (max fuel fuelToo) moments)) function args frame context.stop = stopped
    at there thereToo
  cases there with
  | ok agree =>
    cases agree with
    | next _ stops =>
      cases thereToo with
      | ok agree =>
        cases agree with
        | next _ stopsToo => exact ⟨_, rfl, stopsToo.symm.trans stops⟩

/-- Where a run comes to a moment at which the flag is cleared, it ends on a stopped thread. -/
theorem Occurs.stopped {moment : List Nat} (occurs : Occurs cache activation context moment)
    (admitted : activation.Admitted Calling.HostFunction.Heedless) (stops : moments moment = true) {other : Context}
    (same : other.stop = context.stop) {word : UInt64} {after : Context}
    (ran : execAmid cache fuel moments activation other = .ok (word, after)) : after.stop = after := by
  induction occurs generalizing fuel moments other word after with
  | now =>
    cases fuel with
    | zero => cases ran
    | succ fuel =>
      rw [← execAmid_succ, stops] at ran
      exact execAmid_stopped held admitted rfl ran
  | @within activation callee context inner target moment calls enters _ ih =>
    cases fuel with
    | zero => cases ran
    | succ fuel =>
      have begin : (other.stopIf (moments [0])).stop = context.stop := by rw [Context.stop_stopIf, same]
      obtain ⟨innerToo, entersToo, sameToo⟩ := entered?_of_stop enters begin
      obtain ⟨_, subroutine, there, rfl, _⟩ := entered?_eq_some enters
      have linked : ∀ word after, link cache (execAmid cache fuel moments.within) target (other.stopIf (moments [0])) =
          .ok (word, after) → after.stop = after := fun _ _ called =>
        link_stopped entersToo (fun _ _ ran => ih ((held.of_get? there).activate _) stops sameToo ran) called
      cases activation with
      | compiled function args frame =>
        simp only [execAmid] at ran
        split at ran
        · next moves =>
          obtain ⟨_, _, _, called, reached⟩ := step_calls calls moves
          cases reached
          exact execAmid_stopped held (fun _ _ same => by cases same) (linked _ _ called) ran
        · next moves =>
          obtain ⟨_, _, _, _, reached⟩ := step_calls calls moves
          cases reached
        · cases ran
      | thunk layout function => cases calls
      | probe probe args =>
        cases probe with
        | call own =>
          cases calls
          exact linked _ _ ran
        | _ => cases calls
  | @later fuelToo number function args frame next context middle inner moves _ ih =>
    cases fuel with
    | zero => cases ran
    | succ fuel =>
      have begin : (other.stopIf (moments [0])).stop = context.stop := by rw [Context.stop_stopIf, same]
      rw [← funext₂ (execAmid_never cache fuelToo)] at moves
      simp only [execAmid] at ran
      split at ran
      · next movesToo =>
        obtain ⟨_, reached, sameToo⟩ := step_same held begin moves movesToo
        cases reached
        exact ih (fun _ _ same => by cases same) stops sameToo ran
      · next movesToo =>
        obtain ⟨_, reached, _⟩ := step_same held begin moves movesToo
        cases reached
      · cases ran

end
end Interpreter
end Dynarec
