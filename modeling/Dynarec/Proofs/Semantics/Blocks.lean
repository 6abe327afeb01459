import Dynarec.Proofs.Guest.Exploration
import Dynarec.Proofs.Interpreter.Agreement
import Dynarec.Proofs.Interpreter.Bound
import Dynarec.Proofs.Semantics.Steps

/-!
Graphs of a program against its steps. Running blocks comes to nothing but what the steps come to, whatever is
called in place, and it comes to an end where they do.
-/
namespace Dynarec
namespace Semantics
open Outcome Interpreter

/-- The machine about to go on at an address in a context. -/
def enterAt (address : UInt64) (context : Context) : State := ⟨address, context.regs, context.world⟩

/-- What running code from a state on has come to is what the steps from there come to. -/
inductive Follows (code : Code) (state : State) : Outcome (UInt64 × Context) → Prop
  | bounded : Follows code state (.error .outOfFuel)
  | arrives {count : Nat} {last : State} {next : UInt64} {context : Context} : Steps code count state last →
      last.Alike (enterAt next context) → Follows code state (.ok (next, context))
  | faults {count : Nat} {last : State} : Steps code count state last → Faults code last →
      Follows code state (.error .overflow)

variable {code : Code}

theorem Follows.refl (next : UInt64) (context : Context) : Follows code (enterAt next context) (.ok (next, context)) :=
  .arrives (.refl _) (.refl _)

theorem Follows.after (plain : code.Plain) {count : Nat} {first middle other : State}
    {result : Outcome (UInt64 × Context)} (steps : Steps code count first middle) (alike : middle.Alike other)
    (follows : Follows code other result) : Follows code first result := by
  cases follows with
  | bounded => exact .bounded
  | arrives later arrived =>
    obtain ⟨final, ahead, same⟩ := later.alike plain alike.symm
    exact .arrives (steps.trans ahead) (same.symm.trans arrived)
  | faults later stops =>
    obtain ⟨final, ahead, same⟩ := later.alike plain alike.symm
    exact .faults (steps.trans ahead) (stops.alike plain same)

/-- What comes behind a run goes on from where it has come to. -/
theorem Follows.bind (plain : code.Plain) {α : Type} {state : State} {first : Outcome α}
    {place : α → UInt64 × Context} {next : α → Outcome (UInt64 × Context)}
    (follows : Follows code state (first.map place))
    (ahead : ∀ value, Follows code (enterAt (place value).1 (place value).2) (next value)) :
    Follows code state (first >>= next) := by
  cases first with
  | error halt =>
    cases follows with
    | bounded => exact .bounded
    | faults steps stops => exact .faults steps stops
  | ok value =>
    have goesOn := ahead value
    change Follows code state (.ok (place value)) at follows
    generalize place value = arrival at follows goesOn
    cases follows with
    | arrives steps alike => exact .after plain steps alike goesOn

theorem Follows.congr {state : State} {left right : Outcome (UInt64 × Context)} (follows : Follows code state left)
    (same : Outcome.Agree Arrival.Agree left right) : Follows code state right := by
  cases same with
  | error => exact follows
  | @ok first second agree =>
    obtain ⟨next, left⟩ := first
    obtain ⟨_, right⟩ := second
    obtain ⟨rfl, agree⟩ := agree
    cases follows with
    | arrives steps alike =>
      exact .arrives steps (alike.trans ⟨rfl, agree.regs, by rw [enterAt, agree.world]; exact .refl _⟩)

/-- Where there is a result, a step at least has been taken to it. -/
def Advances (code : Code) (state : State) (result : Outcome (UInt64 × Context)) : Prop :=
  ∀ next context, result = .ok (next, context) → ∃ count last, Steps code (count + 1) state last ∧
    last.Alike (enterAt next context)

theorem Advances.error (state : State) (halt : Halt) : Advances code state (.error halt) := by
  intro next context came
  cases came

theorem Advances.after {count : Nat} {first middle : State} {result : Outcome (UInt64 × Context)}
    (steps : Steps code (count + 1) first middle) (follows : Follows code middle result) :
    Advances code first result := by
  rintro next context rfl
  cases follows with
  | @arrives more last _ _ later alike =>
    refine ⟨count + more, last, ?_, alike⟩
    rw [Nat.add_right_comm]
    exact steps.trans later

theorem Advances.alike (plain : code.Plain) {left right : State} {result : Outcome (UInt64 × Context)}
    (advances : Advances code right result) (alike : left.Alike right) : Advances code left result := by
  intro next context came
  obtain ⟨count, last, steps, arrived⟩ := advances next context came
  obtain ⟨final, ahead, same⟩ := steps.alike plain alike.symm
  exact ⟨count, final, ahead, same.symm.trans arrived⟩

theorem Advances.congr {state : State} {left right : Outcome (UInt64 × Context)} (advances : Advances code state left)
    (same : Outcome.Agree Arrival.Agree left right) : Advances code state right := by
  rintro next context rfl
  obtain ⟨⟨address, other⟩, rfl, here, agree⟩ := same.of_ok
  obtain rfl : address = next := here
  obtain ⟨count, last, steps, alike⟩ := advances address other rfl
  exact ⟨count, last, steps, alike.trans ⟨rfl, agree.regs, by rw [enterAt, agree.world]; exact .refl _⟩⟩

/-- The steps from a state come to their end after a number of them. -/
def EndsIn (code : Code) (count : Nat) (state : State) : Prop :=
  ∃ last, Steps code count state last ∧ step? code last = none

theorem EndsIn.rest (plain : code.Plain) {count total : Nat} {first middle other : State}
    (ends : EndsIn code total first) (steps : Steps code count first middle) (alike : middle.Alike other) :
    ∃ left, total = count + left ∧ EndsIn code left other := by
  obtain ⟨last, whole, stops⟩ := ends
  obtain ⟨left, split, later⟩ := steps.rest whole stops
  obtain ⟨final, ahead, same⟩ := later.alike plain alike
  exact ⟨left, split, final, ahead, stops_alike plain same stops⟩

theorem address_of_sequential {instruction : Guest.Instruction} {state next : State}
    (moves : execute? instruction state = some next) (sequential : instruction.endsBlock = false) :
    next.address = instruction.next := by
  obtain ⟨after, _, goes⟩ := Option.bind_eq_some_iff.mp moves
  obtain ⟨address, successor, same⟩ := Option.bind_eq_some_iff.mp goes
  obtain rfl := Option.some.inj same
  have falls : successor? instruction after = some instruction.next := by
    unfold Guest.Instruction.endsBlock Guest.Flow.endsBlock Guest.Form.flow at sequential
    unfold successor?
    cases form : instruction.form <;> simp [form] at sequential ⊢
  exact Option.some.inj (successor.symm.trans falls)

/-- The instructions in a row from an address on are what is stepped through there. -/
theorem steps_executeAll? (plain : code.Plain) (bound : Nat) (state : State) :
    match executeAll? (code.program.run bound state.address) state with
    | some last => Steps code (code.program.run bound state.address).length state last
    | none => ∃ count last, Steps code count state last ∧ Faults code last := by
  induction bound generalizing state with
  | zero => exact .refl state
  | succ bound ih =>
    rw [Guest.Program.run]
    cases scripted : code.program.at? state.address with
    | none => exact .refl state
    | some instruction =>
      have steps : ∀ rest, executeAll? (instruction :: rest) state =
          (step? code state).bind (executeAll? rest) := by
        intro rest
        rw [step?_scripted plain scripted]
        rfl
      dsimp only
      cases ends : instruction.endsBlock with
      | true =>
        rw [if_pos rfl, steps]
        cases moves : step? code state with
        | none => exact ⟨0, state, .refl state, by rw [scripted]; rfl, moves⟩
        | some next => exact .step moves (.refl next)
      | false =>
        rw [if_neg (by simp), steps]
        cases moves : step? code state with
        | none => exact ⟨0, state, .refl state, by rw [scripted]; rfl, moves⟩
        | some next =>
          rw [step?_scripted plain scripted] at moves
          have later := ih next
          rw [address_of_sequential moves ends] at later
          rw [← step?_scripted plain scripted] at moves
          rw [Option.bind_some]
          cases ran : executeAll? (code.program.run bound instruction.next) next with
          | none =>
            rw [ran] at later
            obtain ⟨count, last, rest, faults⟩ := later
            exact ⟨count + 1, last, .step moves rest, faults⟩
          | some last =>
            rw [ran] at later
            exact .step moves later

/-- A block is stepped through, by one step at least. -/
theorem steps_block (plain : code.Plain) {block : Guest.Block} (found : code.program.block block.address = .ok block)
    (context : Context) :
    match executeAll? block.instructions (enterAt block.address context) with
    | some last => ∃ count, Steps code (count + 1) (enterAt block.address context) last
    | none => ∃ count last, Steps code count (enterAt block.address context) last ∧ Faults code last := by
  obtain ⟨_, instructions, nonempty⟩ := Guest.Program.run_of_block found
  have steps := steps_executeAll? plain code.program.size (enterAt block.address context)
  change match executeAll? (code.program.run code.program.size block.address) _ with | some _ => _ | none => _ at steps
  rw [← instructions] at steps
  cases ran : executeAll? block.instructions (enterAt block.address context) with
  | none => rwa [ran] at steps
  | some last =>
    rw [ran] at steps
    obtain ⟨count, some⟩ : ∃ count, block.instructions.length = count + 1 :=
      ⟨_, (Nat.succ_pred_eq_of_pos (List.length_pos_of_ne_nil nonempty)).symm⟩
    refine ⟨count, ?_⟩
    change Steps code (code.program.run code.program.size block.address).length _ last at steps
    rwa [← instructions, some] at steps

def Exit.next : Exit → UInt64
  | .onward next => next
  | .away next => next

/-- Where a block is left to, and in which context. -/
def Exit.place (arrival : Exit × Context) : UInt64 × Context := (arrival.1.next, arrival.2)

variable {links : UInt64 → Bool} {call : UInt64 → Context → Outcome (UInt64 × Context)}

theorem depart_follows (calls : ∀ target context, Follows code (enterAt target context) (call target context))
    (last : Guest.Instruction) (next : UInt64) (context : Context) :
    Follows code (enterAt next context) ((depart links call last next context).map Exit.place) := by
  unfold depart
  split
  · exact .refl next context
  · split
    · have called := calls next context
      cases came : call next context with
      | error halt =>
        rw [came] at called
        cases called with
        | bounded => exact .bounded
        | faults steps stops => exact .faults steps stops
      | ok arrival =>
        rw [came] at called
        obtain ⟨back, left⟩ := arrival
        have place : Exit.place (if back = last.next then .onward back else .away back, left) = (back, left) := by
          unfold Exit.place
          split <;> rfl
        change Follows code _ (.ok (Exit.place _))
        rw [place]
        exact called
    · exact .refl next context
  · exact .refl next context

theorem runBlock_none {block : Guest.Block} {context : Context}
    (faults : executeAll? block.instructions (enterAt block.address context) = none) :
    runBlock links call block context = .error .overflow := by
  have entered : (⟨block.address, context.regs, context.world⟩ : State) = enterAt block.address context := rfl
  unfold runBlock
  rw [entered, faults]

/-- Behind its instructions a block goes on where they have come to. -/
theorem runBlock_behind (calls : ∀ target context, Follows code (enterAt target context) (call target context))
    {block : Guest.Block} {context : Context} {last : State}
    (ran : executeAll? block.instructions (enterAt block.address context) = some last) :
    Follows code last ((runBlock links call block context).map Exit.place) := by
  have entered : (⟨block.address, context.regs, context.world⟩ : State) = enterAt block.address context := rfl
  unfold runBlock
  rw [entered, ran]
  let here : Context := { context with regs := last.regs, world := last.world }
  dsimp only
  split
  · exact depart_follows calls _ last.address here
  · exact .refl last.address here

theorem runBlock_follows (plain : code.Plain)
    (calls : ∀ target context, Follows code (enterAt target context) (call target context)) {block : Guest.Block}
    (found : code.program.block block.address = .ok block) (context : Context) :
    Follows code (enterAt block.address context) ((runBlock links call block context).map Exit.place) := by
  have steps := steps_block plain found context
  cases ran : executeAll? block.instructions (enterAt block.address context) with
  | none =>
    rw [ran] at steps
    obtain ⟨count, last, steps, faults⟩ := steps
    rw [runBlock_none ran]
    exact .faults steps faults
  | some last =>
    rw [ran] at steps
    obtain ⟨count, steps⟩ := steps
    exact .after plain steps (.refl last) (runBlock_behind calls ran)

theorem follow_follows {tier : Tier} {run : UInt64 → Context → Outcome (UInt64 × Context)}
    (runs : ∀ next context, Follows code (enterAt next context) (run next context)) (arrival : Exit × Context) :
    Follows code (enterAt (Exit.place arrival).1 (Exit.place arrival).2) (follow tier run arrival) := by
  obtain ⟨exit, context⟩ := arrival
  cases exit with
  | away next => exact .refl next context
  | onward next =>
    change Follows code (enterAt next context) (if tier = .tier0 then .ok (next, context) else run next context)
    split
    · exact .refl next context
    · exact runs next context

/-- A graph of the program runs as the program is stepped through, if what it calls in place does. -/
theorem runGraph_follows (plain : code.Plain)
    (calls : ∀ target context, Follows code (enterAt target context) (call target context)) {graph : Guest.Graph}
    (own : ∀ block ∈ graph.blocks, code.program.block block.address = .ok block) (tier : Tier) (fuel : Nat)
    (address : UInt64) (context : Context) :
    Follows code (enterAt address context) (runGraph graph tier links call fuel address context) := by
  induction fuel generalizing address context with
  | zero => exact .bounded
  | succ fuel ih =>
    rw [runGraph]
    split
    · exact .refl address context
    · next block found =>
      have member := List.mem_of_find?_eq_some found
      have here : block.address = address := by simpa using List.find?_some found
      rw [← here]
      exact (runBlock_follows plain calls (own block member) context).bind plain fun arrival => follow_follows ih arrival

/-- From one of its blocks on, a graph of the program does not come to a result without a step. -/
theorem runGraph_advances (plain : code.Plain)
    (calls : ∀ target context, Follows code (enterAt target context) (call target context)) {graph : Guest.Graph}
    (own : ∀ block ∈ graph.blocks, code.program.block block.address = .ok block) {address : UInt64}
    (inside : graph.contains address = true) (tier : Tier) (fuel : Nat) (context : Context) :
    Advances code (enterAt address context) (runGraph graph tier links call fuel address context) := by
  cases fuel with
  | zero => exact .error _ _
  | succ fuel =>
    rw [runGraph]
    split
    · next absent =>
      obtain ⟨block, member, here⟩ := List.any_eq_true.mp inside
      exact absurd here (List.find?_eq_none.mp absent block member)
    · next block found =>
      have member := List.mem_of_find?_eq_some found
      have here : block.address = address := by simpa using List.find?_some found
      subst here
      have steps := steps_block plain (own block member) context
      cases ran : executeAll? block.instructions (enterAt block.address context) with
      | none =>
        rw [runBlock_none ran]
        exact .error _ _
      | some last =>
        rw [ran] at steps
        obtain ⟨count, steps⟩ := steps
        refine .after steps ((runBlock_behind calls ran).bind plain fun arrival => follow_follows ?_ arrival)
        exact runGraph_follows plain calls own tier fuel

theorem runBlock_within {callToo : UInt64 → Context → Outcome (UInt64 × Context)} (calls : CallsWithin call callToo)
    (block : Guest.Block) (context : Context) :
    Within (runBlock links call block context) (runBlock links callToo block context) := by
  unfold runBlock
  split
  · exact .refl _
  · split
    · unfold depart
      split
      · exact .refl _
      · split
        · exact (calls _ _).bind fun _ => .refl _
        · exact .refl _
      · exact .refl _
    · exact .refl _

theorem runGraph_within {callToo : UInt64 → Context → Outcome (UInt64 × Context)} (calls : CallsWithin call callToo)
    (graph : Guest.Graph) (tier : Tier) {fuel more : Nat} (atLeast : fuel ≤ more) (address : UInt64)
    (context : Context) :
    Within (runGraph graph tier links call fuel address context)
      (runGraph graph tier links callToo more address context) := by
  induction fuel generalizing more address context with
  | zero => exact .bounded _
  | succ fuel ih =>
    obtain ⟨more, rfl⟩ : ∃ rest, more = rest + 1 := ⟨more - 1, by omega⟩
    rw [runGraph, runGraph]
    split
    · exact .refl _
    · refine (runBlock_within calls _ context).bind ?_
      rintro ⟨exit, context⟩
      cases exit with
      | away next => exact .refl _
      | onward next =>
        change Within (if tier = .tier0 then .ok (next, context) else _)
          (if tier = .tier0 then .ok (next, context) else _)
        split
        · exact .refl _
        · exact ih (Nat.le_of_succ_le_succ atLeast) next context

end Semantics
end Dynarec
