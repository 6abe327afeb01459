import Dynarec.Interpreter
import Dynarec.Proofs.Cache.Admission
import Dynarec.Proofs.Register.Agreement

/-!
Runs that come to the same. A run that did not come to its bound comes to the same end with a larger bound, and
on registers that read the same. Both hold because a step passes them on from the calls it makes.
-/
namespace Dynarec

/-- Both end alike: with values that agree, or with the same halt. -/
inductive Outcome.Agree {α : Type} (agree : α → α → Prop) : Outcome α → Outcome α → Prop
  | ok {left right : α} : agree left right → Outcome.Agree agree (.ok left) (.ok right)
  | error (halt : Halt) : Outcome.Agree agree (.error halt) (.error halt)

/-- Both end alike, unless the first came to its bound. -/
def Outcome.Below {α : Type} (agree : α → α → Prop) (left right : Outcome α) : Prop :=
  left ≠ .error .outOfFuel → Outcome.Agree agree left right

namespace Outcome

theorem Agree.bounded {α : Type} {agree : α → α → Prop} {left right : Outcome α} (same : Agree agree left right) :
    left = .error .outOfFuel ↔ right = .error .outOfFuel := by
  cases same <;> simp

theorem Agree.of_ok {α : Type} {agree : α → α → Prop} {left : Outcome α} {right : α}
    (same : Agree agree left (.ok right)) : ∃ value, left = .ok value ∧ agree value right := by
  cases same with
  | ok agree => exact ⟨_, rfl, agree⟩

theorem Agree.bind {α β : Type} {agree : α → α → Prop} {agreeToo : β → β → Prop} {left right : Outcome α}
    {next nextToo : α → Outcome β} (same : Agree agree left right)
    (follows : ∀ first second, agree first second → Agree agreeToo (next first) (nextToo second)) :
    Agree agreeToo (left >>= next) (right >>= nextToo) := by
  cases same with
  | ok agree => exact follows _ _ agree
  | error halt => exact .error halt

theorem Agree.bind_same {α β : Type} {agree : β → β → Prop} (first : Outcome α) {next nextToo : α → Outcome β}
    (follows : ∀ value, Agree agree (next value) (nextToo value)) : Agree agree (first >>= next) (first >>= nextToo) := by
  cases first with
  | error halt => exact .error halt
  | ok value => exact follows value

theorem Below.ok {α : Type} {agree : α → α → Prop} {left right : α} (same : agree left right) :
    Below agree (.ok left) (.ok right) := fun _ => .ok same

theorem Below.error {α : Type} (agree : α → α → Prop) (halt : Halt) :
    Below agree (.error halt) (.error halt) := fun _ => .error halt

theorem Below.bounded {α : Type} {agree : α → α → Prop} {left right : Outcome α} {short : Prop} [Decidable short]
    (below : ¬short → Below agree left right) : Below agree (if short then .error .outOfFuel else left) right := by
  split
  · exact fun unbounded => absurd rfl unbounded
  · next reaches => exact below reaches

theorem Below.bind {α β : Type} {agree : α → α → Prop} {agreeToo : β → β → Prop} {left right : Outcome α}
    {next nextToo : α → Outcome β} (below : Below agree left right)
    (follows : ∀ first second, agree first second → Below agreeToo (next first) (nextToo second)) :
    Below agreeToo (left >>= next) (right >>= nextToo) := by
  cases left with
  | error halt =>
    intro unbounded
    have apart : halt ≠ .outOfFuel := fun same => unbounded (congrArg Except.error same)
    have same := below fun bound => apart (Except.error.inj bound)
    cases same
    exact .error halt
  | ok first =>
    have same := below (by simp)
    cases same with
    | ok same => exact follows _ _ same

theorem Below.bind_same {α β : Type} {agree : β → β → Prop} (first : Outcome α) {next nextToo : α → Outcome β}
    (follows : ∀ value, Below agree (next value) (nextToo value)) :
    Below agree (first >>= next) (first >>= nextToo) := by
  cases first with
  | error halt => exact .error agree halt
  | ok value => exact follows value

end Outcome

/-- The registers read the same, and the rest is the same. -/
structure Context.Agree (left right : Context) : Prop where
  regs : left.regs.Agree right.regs
  world : left.world = right.world
  depth : left.depth = right.depth

theorem Context.Agree.refl (context : Context) : context.Agree context := ⟨.refl _, rfl, rfl⟩

theorem Context.Agree.symm {left right : Context} (agree : left.Agree right) : right.Agree left :=
  ⟨agree.regs.symm, agree.world.symm, agree.depth.symm⟩

theorem Context.Agree.trans {first second third : Context} (left : first.Agree second) (right : second.Agree third) :
    first.Agree third :=
  ⟨left.regs.trans right.regs, left.world.trans right.world, left.depth.trans right.depth⟩

/-- The same next address in contexts that agree. -/
def Arrival.Agree (left right : UInt64 × Context) : Prop := left.1 = right.1 ∧ left.2.Agree right.2

theorem Arrival.Agree.symm {left right : UInt64 × Context} (agree : Arrival.Agree left right) :
    Arrival.Agree right left := ⟨agree.1.symm, agree.2.symm⟩

theorem Arrival.Agree.trans {first second third : UInt64 × Context} (left : Arrival.Agree first second)
    (right : Arrival.Agree second third) : Arrival.Agree first third :=
  ⟨left.1.trans right.1, left.2.trans right.2⟩

namespace Outcome

theorem Agree.symm {left right : Outcome (UInt64 × Context)} (same : Agree Arrival.Agree left right) :
    Agree Arrival.Agree right left := by
  cases same with
  | ok agree => exact .ok agree.symm
  | error halt => exact .error halt

theorem Agree.trans {first second third : Outcome (UInt64 × Context)} (left : Agree Arrival.Agree first second)
    (right : Agree Arrival.Agree second third) : Agree Arrival.Agree first third := by
  cases left with
  | ok agree =>
    cases right with
    | ok more => exact .ok (agree.trans more)
  | error halt => exact right

theorem Below.trans {first second third : Outcome (UInt64 × Context)} (left : Below Arrival.Agree first second)
    (right : Below Arrival.Agree second third) : Below Arrival.Agree first third := by
  intro unbounded
  have same := left unbounded
  exact same.trans (right (mt same.bounded.mpr unbounded))

end Outcome

/-- The same next address in related contexts. -/
def Arrival.Related (related : Context → Context → Prop) (left right : UInt64 × Context) : Prop :=
  left.1 = right.1 ∧ related left.2 right.2

/-- The frame and the next address are the same, in related contexts. -/
inductive Step.Agree (related : Context → Context → Prop) : Step → Step → Prop
  | next (frame : Frame) {left right : Context} : related left right →
      Step.Agree related (.next frame left) (.next frame right)
  | done (next : UInt64) {left right : Context} : related left right →
      Step.Agree related (.done next left) (.done next right)

/-- Contexts that code cannot tell apart, nor can the host functions that it may run. -/
structure Context.Congruence (related : Context → Context → Prop) (admits : Calling.HostFunction → Prop) : Prop where
  regs : ∀ {left right}, related left right → left.regs.Agree right.regs
  depth : ∀ {left right}, related left right → left.depth = right.depth
  write : ∀ {left right}, related left right → ∀ register wide, related (left.write register wide) (right.write register wide)
  nest : ∀ {left right}, related left right → ∀ depth, related { left with depth } { right with depth }
  note : ∀ {left right}, related left right → ∀ event, related (left.note event) (right.note event)
  access : ∀ {left right}, related left right → ∀ {α : Type} (use : Memory → α × Memory),
    (left.world.access use).1 = (right.world.access use).1 ∧
      related { left with world := (left.world.access use).2 } { right with world := (right.world.access use).2 }
  host : ∀ {left right function}, related left right → admits function → ∀ values,
    Outcome.Agree (fun first second => first.1 = second.1 ∧
        related { left with world := first.2 } { right with world := second.2 })
      (function.apply values left.world) (function.apply values right.world)

def Activation.Admitted (admits : Calling.HostFunction → Prop) (activation : Activation) : Prop :=
  ∀ layout function, activation = .thunk layout function → admits function

theorem Subroutine.Admitted.activate {admits : Calling.HostFunction → Prop} {subroutine : Subroutine}
    (admitted : subroutine.Admitted admits) (regs : RegisterFile) : (subroutine.activate regs).Admitted admits := by
  intro layout function same
  unfold Subroutine.activate at same
  cases code : subroutine.code <;> rw [code] at same <;> cases same
  exact admitted _ _ code

namespace Interpreter
open Outcome

variable {related : Context → Context → Prop} {admits : Calling.HostFunction → Prop} {left right : Context}

/-- What calls pass on. -/
def CallsBelow (related : Context → Context → Prop) (call callToo : UInt64 → Context → Outcome (UInt64 × Context)) :
    Prop :=
  ∀ target left right, related left right → Below (Arrival.Related related) (call target left) (callToo target right)

theorem assign_below (agree : related left right) (frame : Frame) (dst : Ir.Local) (wide : Wide) :
    Below (Step.Agree related) (assign frame left dst wide) (assign frame right dst wide) :=
  Below.bind_same _ fun _ => .ok (.next _ agree)

theorem activate_agree {left right : RegisterFile} (agree : left.Agree right) (subroutine : Subroutine) :
    subroutine.activate left = subroutine.activate right := by
  have arguments : subroutine.arguments left = subroutine.arguments right :=
    List.flatMap_congr fun register _ => agree.words register
  unfold Subroutine.activate
  rw [arguments]

section
variable (congruence : Context.Congruence related admits)
include congruence

theorem load_below (agree : related left right) (address : UInt64) (size : Nat) :
    Below (fun first second => first.1 = second.1 ∧ related first.2 second.2)
      (left.load address size) (right.load address size) := by
  obtain ⟨same, agree⟩ := congruence.access agree fun memory => memory.readNat address size
  obtain ⟨leftRegs, leftWorld, leftDepth⟩ := left
  obtain ⟨rightRegs, rightWorld, rightDepth⟩ := right
  unfold Context.load World.readNat
  dsimp only at same agree ⊢
  generalize leftWorld.access (fun memory => memory.readNat address size) = here at same agree ⊢
  generalize rightWorld.access (fun memory => memory.readNat address size) = there at same agree ⊢
  obtain ⟨result, leftWorld⟩ := here
  obtain ⟨_, rightWorld⟩ := there
  cases same
  cases result with
  | ok word => exact .ok ⟨rfl, agree⟩
  | error stop => cases stop; exact .error _ _

theorem store_related (agree : related left right) (address : UInt64) (size n : Nat) :
    related (left.store address size n) (right.store address size n) :=
  (congruence.access agree fun memory => ((), memory.writeNat address size n)).2

theorem compareAndSwap_related (agree : related left right) (address : UInt64) (expected desired : UInt32) :
    (left.compareAndSwap address expected desired).1 = (right.compareAndSwap address expected desired).1 ∧
      related (left.compareAndSwap address expected desired).2 (right.compareAndSwap address expected desired).2 :=
  congruence.access agree fun memory => memory.compareAndSwap address expected desired

theorem perform_below {call callToo : UInt64 → Context → Outcome (UInt64 × Context)}
    (calls : CallsBelow related call callToo) (function : Ir.Function) (args : List UInt64) (frame : Frame)
    (agree : related left right) (op : Ir.Op) :
    Below (Step.Agree related) (perform call function args frame left op)
      (perform callToo function args frame right op) := by
  cases op with
  | loadRegister dst register =>
    simp only [perform, congruence.regs agree register]
    exact assign_below agree _ _ _
  | storeRegister register src =>
    exact .bind_same _ fun wide => .ok (.next _ (congruence.write agree register wide))
  | load width dst address =>
    refine .bind_same _ fun place => (load_below congruence agree place width.bytes).bind ?_
    rintro ⟨word, left⟩ ⟨_, right⟩ ⟨rfl, agree⟩
    exact assign_below agree _ _ _
  | loadVector dst address =>
    refine .bind_same _ fun place => (load_below congruence agree place 16).bind ?_
    rintro ⟨word, left⟩ ⟨_, right⟩ ⟨rfl, agree⟩
    exact assign_below agree _ _ _
  | store width address src =>
    exact .bind_same _ fun place => .bind_same _ fun word => .ok (.next _ (store_related congruence agree place _ _))
  | storeVector address src =>
    exact .bind_same _ fun place => .bind_same _ fun wide => .ok (.next _ (store_related congruence agree place _ _))
  | cas32 dst address expected desired =>
    refine .bind_same _ fun place => .bind_same _ fun old => .bind_same _ fun new => ?_
    obtain ⟨swapped, same⟩ := compareAndSwap_related congruence agree place old.toUInt32 new.toUInt32
    dsimp only
    rw [swapped]
    exact assign_below same _ _ _
  | call dst target =>
    refine (calls target left right agree).bind ?_
    rintro ⟨next, left⟩ ⟨_, right⟩ ⟨rfl, agree⟩
    exact assign_below agree _ _ _
  | branchIf cond label =>
    refine .bind_same _ fun word => ?_
    split
    · exact .bind_same _ fun frame => .ok (.next frame agree)
    · exact .ok (.next _ agree)
  | ret next => exact .bind_same _ fun word => .ok (.done word agree)
  | jump label => exact .bind_same _ fun frame => .ok (.next frame agree)
  | place label | preload | spill | reload => exact .ok (.next _ agree)
  | const dst value => exact assign_below agree _ _ _
  | loadArg dst slot => exact .bind_same _ fun _ => assign_below agree _ _ _
  | move dst src => exact .bind_same _ fun _ => assign_below agree _ _ _
  | unary op dst src => exact .bind_same _ fun _ => assign_below agree _ _ _
  | vectorExtract dst src high => exact .bind_same _ fun _ => assign_below agree _ _ _
  | binaryImm op dst lhs imm => exact .bind_same _ fun _ => assign_below agree _ _ _
  | binary op dst lhs rhs => exact .bind_same _ fun _ => .bind_same _ fun _ => assign_below agree _ _ _
  | compare cond dst lhs rhs => exact .bind_same _ fun _ => .bind_same _ fun _ => assign_below agree _ _ _
  | select dst cond yes no => exact .bind_same _ fun _ => .bind_same _ fun _ => assign_below agree _ _ _
  | vector op dst lhs rhs => exact .bind_same _ fun _ => .bind_same _ fun _ => assign_below agree _ _ _
  | vectorPack dst low high => exact .bind_same _ fun _ => .bind_same _ fun _ => assign_below agree _ _ _

theorem step_below {call callToo : UInt64 → Context → Outcome (UInt64 × Context)}
    (calls : CallsBelow related call callToo) (function : Ir.Function) (args : List UInt64) (frame : Frame)
    (agree : related left right) :
    Below (Step.Agree related) (step call function args frame left) (step callToo function args frame right) := by
  unfold step
  split
  · exact .ok (.done 0 agree)
  · exact perform_below congruence calls function args _ agree _

theorem answer_below {call callToo : UInt64 → Context → Outcome (UInt64 × Context)}
    (calls : CallsBelow related call callToo) (cache : Cache) (args : List UInt64) (agree : related left right)
    (probe : Probe) :
    Below (Arrival.Related related) (answer cache call args left probe) (answer cache callToo args right probe) := by
  cases probe with
  | call target => exact calls target left right agree
  | depth => exact .ok ⟨by rw [congruence.depth agree], agree⟩
  | load address =>
    refine (load_below congruence agree address 8).bind ?_
    rintro ⟨word, left⟩ ⟨_, right⟩ ⟨rfl, agree⟩
    exact .ok ⟨rfl, agree⟩
  | increment index =>
    simp only [answer, (congruence.regs agree).wordAt index]
    refine .bind_same _ fun word => ?_
    by_cases bound : index < 32
    · rw [RegisterFile.setWordAt_eq _ bound, RegisterFile.setWordAt_eq _ bound]
      exact .ok ⟨rfl, congruence.write agree _ _⟩
    · simp only [RegisterFile.setWordAt, bound]
      exact .error _ _
  | const value | arg index | args | known address => exact .ok ⟨rfl, agree⟩

theorem enter_below {function : Calling.HostFunction} (admitted : admits function) (layout : Calling.Layout)
    (agree : related left right) :
    Below (fun first second => first.1 = second.1 ∧
        related { left with regs := first.2.1, world := first.2.2 } { right with regs := second.2.1, world := second.2.2 })
      (function.enter layout left.regs left.world) (function.enter layout right.regs right.world) := by
  unfold Calling.HostFunction.enter
  rw [layout.read_agree (congruence.regs agree)]
  refine Below.bind (fun _ => congruence.host agree admitted _) ?_
  rintro ⟨result, world⟩ ⟨_, other⟩ ⟨rfl, agree⟩
  have stored : related { left with regs := Calling.Value.store result left.regs, world }
      { right with regs := Calling.Value.store result right.regs, world := other } := by
    cases result with
    | none => exact agree
    | some value => exact congruence.write agree _ _
  exact .ok ⟨congrArg Wide.low (congruence.regs stored .link), stored⟩

theorem calls_below {cache : Cache} (admitted : cache.Admitted admits)
    {run runToo : Activation → Context → Outcome (UInt64 × Context)}
    (runs : ∀ activation left right, activation.Admitted admits → related left right →
      Below (Arrival.Related related) (run activation left) (runToo activation right)) :
    CallsBelow related (link cache run) (link cache runToo) := by
  intro target left right agree
  have depth := congruence.depth agree
  unfold link
  rw [depth]
  split
  · exact .ok ⟨rfl, congruence.note agree _⟩
  · split
    · exact .ok ⟨rfl, agree⟩
    · next subroutine published =>
      rw [activate_agree (congruence.regs agree)]
      have callee := (admitted.of_get? published).activate right.regs
      refine (runs _ _ _ callee (congruence.nest agree (right.depth + 1))).bind ?_
      rintro ⟨next, left⟩ ⟨_, right⟩ ⟨rfl, agree⟩
      -- the callee leaves the depth it was given in both, so both are back where they were
      have back := congruence.nest agree (right.depth - 1)
      have depth : left.depth = right.depth := congruence.depth agree
      refine .ok ⟨rfl, ?_⟩
      dsimp only
      rw [depth]
      exact back

/-- A larger bound changes nothing in what code makes of related contexts. -/
theorem exec_related {cache : Cache} (held : cache.Admitted admits) {fuel more : Nat} (atLeast : fuel ≤ more)
    {activation : Activation} (admitted : activation.Admitted admits) (agree : related left right) :
    Below (Arrival.Related related) (exec cache fuel activation left) (exec cache more activation right) := by
  -- on the bound, which goes down by one both for the next step and for the calls that this one makes
  induction fuel generalizing more activation left right with
  | zero => exact fun unbounded => absurd rfl unbounded
  | succ fuel ih =>
    obtain ⟨more, rfl⟩ : ∃ rest, more = rest + 1 := ⟨more - 1, by omega⟩
    have calls : CallsBelow related (link cache (exec cache fuel)) (link cache (exec cache more)) :=
      calls_below congruence held fun activation left right admitted agree => ih (by omega) admitted agree
    cases activation with
    | compiled function args frame =>
      have steps := step_below congruence calls function args frame agree
      have compiled : ∀ frame, (Activation.compiled function args frame).Admitted admits := by
        intro frame layout function same
        cases same
      simp only [exec]
      cases first : step (link cache (exec cache fuel)) function args frame left with
      | error halt =>
        intro unbounded
        rw [first] at steps
        have same := steps (by simpa using unbounded)
        generalize step (link cache (exec cache more)) function args frame right = second at same
        cases same
        exact .error halt
      | ok reached =>
        rw [first] at steps
        have same := steps (by simp)
        generalize step (link cache (exec cache more)) function args frame right = second at same
        cases same with
        | ok same =>
          cases same with
          | next frame agree => exact ih (by omega) (compiled frame) agree
          | done next agree => exact .ok ⟨rfl, agree⟩
    | thunk layout function =>
      refine (enter_below congruence (admitted _ _ rfl) layout agree).bind ?_
      rintro ⟨next, leftRegs, leftWorld⟩ ⟨_, rightRegs, rightWorld⟩ ⟨rfl, agree⟩
      exact .ok ⟨rfl, agree⟩
    | probe probe args => exact answer_below congruence calls cache args agree probe

end

/-- No code tells contexts apart that agree, whatever host functions it runs. -/
theorem agree_congruence : Context.Congruence Context.Agree fun _ => True where
  regs agree := agree.regs
  depth agree := agree.depth
  write agree register wide := ⟨agree.regs.write register wide, agree.world, agree.depth⟩
  nest agree depth := ⟨agree.regs, agree.world, rfl⟩
  note agree event := ⟨agree.regs, congrArg (·.note event) agree.world, agree.depth⟩
  access {left right} agree _ use := by
    rw [agree.world]
    exact ⟨rfl, agree.regs, rfl, agree.depth⟩
  host {left right function} agree _ values := by
    rw [agree.world]
    cases function.apply values right.world with
    | error halt => exact .error halt
    | ok found => exact .ok ⟨rfl, agree.regs, rfl, agree.depth⟩

theorem link_below {cache : Cache} {run runToo : Activation → Context → Outcome (UInt64 × Context)}
    (runs : ∀ activation left right, Context.Agree left right →
      Below Arrival.Agree (run activation left) (runToo activation right)) :
    CallsBelow Context.Agree (link cache run) (link cache runToo) :=
  calls_below agree_congruence (fun _ _ _ _ _ _ => trivial) fun activation left right _ agree =>
    runs activation left right agree

/-- A larger bound and registers that read the same change nothing. -/
theorem exec_below (cache : Cache) {fuel more : Nat} (atLeast : fuel ≤ more) (activation : Activation)
    {left right : Context} (agree : left.Agree right) :
    Below Arrival.Agree (exec cache fuel activation left) (exec cache more activation right) :=
  exec_related agree_congruence (fun _ _ _ _ _ _ => trivial) atLeast (fun _ _ _ => trivial) agree

end Interpreter
end Dynarec
