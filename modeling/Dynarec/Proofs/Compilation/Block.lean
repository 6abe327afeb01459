import Dynarec.Proofs.Compilation.Transfer
import Dynarec.Proofs.Emission.Callees
import Dynarec.Semantics.Graph

/-!
The code of a block does what its instructions do one after the other, and leaves the way the last of them does.
-/
namespace Dynarec
namespace Emission
open Ir Semantics Interpreter

variable {emission : Emission} {function : Function} {args : List UInt64} {frame : Frame} {context : Context}
  {state : State}

theorem CodeOf.unexpanded {instruction : Guest.Instruction} {added : List Op}
    (code : emission.CodeOf instruction added) (sequential : instruction.endsBlock = false) :
    Expansion.expand emission.bindings added = added := by
  have plain : ∀ op ∈ added, Expansion.expandOp emission.bindings op = [op] := by
    unfold CodeOf at code
    unfold Guest.Instruction.endsBlock at sequential
    cases form : instruction.form <;> simp only [form] at code sequential
    all_goals first
      | exact absurd sequential (by decide)
      | grind [Expansion.expandOp]
  unfold Expansion.expand
  rw [List.flatMap_congr plain]
  simp

theorem execute?_sequential {instruction : Guest.Instruction} (sequential : instruction.endsBlock = false)
    (state : State) : execute? instruction state =
      (effect? instruction state).map fun after => { after with address := instruction.next } := by
  have next : ∀ after, successor? instruction after = some instruction.next := by
    intro after
    unfold Guest.Instruction.endsBlock at sequential
    unfold successor?
    cases form : instruction.form <;> simp only [form] at sequential ⊢
    all_goals exact absurd sequential (by decide)
  unfold execute?
  cases effect? instruction state with
  | none => rfl
  | some after => simp [next]

theorem executeAll?_append (front back : List Guest.Instruction) (state : State) :
    executeAll? (front ++ back) state = (executeAll? front state).bind (executeAll? back) := by
  unfold executeAll?
  rw [List.foldlM_append]
  rfl

theorem executeAll?_single (instruction : Guest.Instruction) (state : State) :
    executeAll? [instruction] state = execute? instruction state := by
  simp [executeAll?]

theorem runs_body {instructions : List Guest.Instruction} {bodies : List (List Op)}
    (body : List.Forall₂ emission.CodeOf instructions bodies)
    (sequential : ∀ instruction ∈ instructions, instruction.endsBlock = false) (sound : emission.Allotted)
    (tracks : emission.Tracks frame context state)
    (holds : function.Holds frame.position (Expansion.expand emission.bindings bodies.flatten)) :
    (∃ after, executeAll? instructions state = some after ∧ emission.Reaches function args frame context
        (Expansion.expand emission.bindings bodies.flatten).length after) ∨
      (executeAll? instructions state = none ∧ Overflows function args frame context) := by
  induction body generalizing frame context state with
  | nil => exact .inl ⟨state, rfl, reaches_here tracks⟩
  | @cons instruction added instructions bodies code _ ih =>
    have first := sequential instruction (by simp)
    rw [List.flatten_cons, Expansion.expand_append, code.unexpanded first] at holds ⊢
    obtain ⟨here, behind⟩ := holds.append
    have split : executeAll? (instruction :: instructions) state =
        (execute? instruction state).bind (executeAll? instructions) := rfl
    rw [split, execute?_sequential first]
    rcases tracks.executes sound code first here with
      ⟨after, done, count, last, between, glides, position, tracked, depth⟩ | ⟨none, overflows⟩
    · rw [← position] at behind
      have rest := ih (fun other member => sequential other (by simp [member]))
        (tracked.at last.position instruction.next) behind
      rw [done, List.length_append]
      exact rest.imp (fun ⟨final, ran, reaches⟩ => ⟨final, ran, reaches.after glides position depth⟩)
        fun ⟨stops, overflows⟩ => ⟨stops, overflows.after glides⟩
    · exact .inr ⟨by rw [none]; rfl, overflows⟩

/-- The code leaves where the last instruction leads, the way it does. -/
def Leaves (emission : Emission) (function : Function) (args : List UInt64) (frame : Frame) (context : Context)
    (last : Guest.Instruction) (after : State) : Prop :=
  match last.form with
  | .ret => Ends function args frame context after.address after
  | .bl =>
    if emission.tier = .tier1 ∧ emission.linkable after.address then
      emission.CallsThrough function args frame context after.address last.next after
    else emission.Arrives function args frame context after.address after
  | _ => emission.Arrives function args frame context after.address after

theorem Leaves.after {count : Nat} {next : Frame} {between : Context} {last : Guest.Instruction} {final : State}
    (leaves : emission.Leaves function args next between last final)
    (first : Glide function args count frame context next between) (depth : between.depth = context.depth) :
    emission.Leaves function args frame context last final := by
  unfold Leaves at leaves ⊢
  split at leaves
  · exact Ends.after leaves first depth
  · by_cases inPlace : emission.tier = .tier1 ∧ emission.linkable final.address = true
    · rw [if_pos inPlace] at leaves ⊢
      exact CallsThrough.after leaves first depth
    · rw [if_neg inPlace] at leaves ⊢
      exact Arrives.after leaves first depth
  · exact Arrives.after leaves first depth

/-- Where control falls out of an instruction the code goes on behind it. -/
theorem Reaches.arrives {length : Nat} {target : UInt64} {after : State} {rest : List Op}
    (reaches : emission.Reaches function args frame context length after) (goes : emission.Continues target rest)
    (sound : emission.Allotted) (sites : function.Sites emission.labels)
    (holds : function.Holds (frame.position + length) (Expansion.expand emission.bindings rest)) :
    emission.Arrives function args frame context target { after with address := target } := by
  obtain ⟨count, last, between, glides, position, tracked, depth⟩ := reaches
  rw [← position] at holds
  have arrives : emission.Arrives function args last between target { after with address := target } :=
    goes.arrives (tracked.at last.position target) sound sites holds
  exact arrives.after glides depth

theorem leaves_sequential {last : Guest.Instruction} {final rest : List Op} (code : emission.CodeOf last final)
    (sequential : last.endsBlock = false) (goes : emission.Continues last.next rest)
    (sound : emission.Allotted) (sites : function.Sites emission.labels)
    (tracks : emission.Tracks frame context state)
    (holds : function.Holds frame.position (Expansion.expand emission.bindings (final ++ rest))) :
    (∃ after, execute? last state = some after ∧ emission.Leaves function args frame context last after) ∨
      (execute? last state = none ∧ Overflows function args frame context) := by
  rw [Expansion.expand_append, code.unexpanded sequential] at holds
  obtain ⟨here, behind⟩ := holds.append
  rw [execute?_sequential sequential]
  rcases tracks.executes sound code sequential here with ⟨after, done, reaches⟩ | ⟨none, overflows⟩
  · refine .inl ⟨{ after with address := last.next }, by rw [done]; rfl, ?_⟩
    have arrives : emission.Arrives function args frame context last.next { after with address := last.next } :=
      reaches.arrives goes sound sites behind
    unfold Guest.Instruction.endsBlock at sequential
    unfold Leaves
    cases form : last.form <;> rw [form] at sequential
    all_goals first
      | exact arrives
      | exact absurd sequential (by decide)
  · exact .inr ⟨by rw [none]; rfl, overflows⟩

/-- A conditional branch on a register. -/
theorem leaves_conditional {last : Guest.Instruction} {register : Register} {cond : Local} {target : UInt64}
    {final rest : List Op} (bound : emission.Binds register cond) (code : emission.ContinuesIf cond target final)
    (goes : emission.Continues last.next rest) (sound : emission.Allotted) (sites : function.Sites emission.labels)
    (tracks : emission.Tracks frame context state)
    (holds : function.Holds frame.position (Expansion.expand emission.bindings (final ++ rest))) :
    emission.Arrives function args frame context (if state.word register ≠ 0 then target else last.next)
      { state with address := if state.word register ≠ 0 then target else last.next } := by
  rw [Expansion.expand_append] at holds
  obtain ⟨here, behind⟩ := holds.append
  have way : if state.word register ≠ 0 then
      emission.Arrives function args frame context target { state with address := target }
    else emission.Reaches function args frame context (Expansion.expand emission.bindings final).length
      { state with address := target } :=
    code.arrives bound (tracks.at frame.position target) sound sites here
  split at way
  · next taken =>
    rw [if_pos taken]
    exact way
  · next untaken =>
    rw [if_neg untaken]
    exact way.arrives goes sound sites behind

theorem leaves_call {last : Guest.Instruction} {link : Local} {target : UInt64} {rest : List Op}
    (bound : emission.Binds .link link)
    (code : if emission.tier = .tier1 ∧ emission.linkable target = true then
      emission.CallsInPlace target last.next rest else emission.Continues target rest)
    (sound : emission.Allotted) (sites : function.Sites emission.labels)
    (tracks : emission.Tracks frame context state)
    (holds : function.Holds frame.position (Expansion.expand emission.bindings (.const link last.next :: rest))) :
    if emission.tier = .tier1 ∧ emission.linkable target = true then
      emission.CallsThrough function args frame context target last.next
        { state.setWord .link last.next with address := target }
    else emission.Arrives function args frame context target
      { state.setWord .link last.next with address := target } := by
  have first : emission.Reaches function args frame context 1 (state.setWord .link last.next) :=
    reaches_assign tracks sound holds bound _ (truncate_word 30 last.next) fun _ => by simp only [perform]
  obtain ⟨count, next, between, glides, position, tracked, depth⟩ := first
  have behind := holds.cons.2
  rw [← position] at behind
  have there := tracked.at next.position target
  split at code
  · next inPlace =>
    rw [if_pos inPlace]
    have calls : emission.CallsThrough function args next between target last.next
        { state.setWord .link last.next with address := target } := code.through there sound sites behind
    exact calls.after glides depth
  · next leaves =>
    rw [if_neg leaves]
    have arrives : emission.Arrives function args next between target
        { state.setWord .link last.next with address := target } := code.arrives there sound sites behind
    exact arrives.after glides depth

theorem runs_last {last : Guest.Instruction} {final rest : List Op} (code : emission.CodeOf last final)
    (way : (last.fallsOut = true ∧ emission.Continues last.next rest) ∨ (last.fallsOut = false ∧ rest = []))
    (sound : emission.Allotted) (sites : function.Sites emission.labels)
    (tracks : emission.Tracks frame context state)
    (holds : function.Holds frame.position (Expansion.expand emission.bindings (final ++ rest))) :
    (∃ after, execute? last state = some after ∧ emission.Leaves function args frame context last after) ∨
      (execute? last state = none ∧ Overflows function args frame context) := by
  by_cases ends : last.endsBlock = true
  · refine .inl ?_
    unfold Guest.Instruction.fallsOut at way
    unfold Guest.Instruction.endsBlock at ends
    unfold CodeOf at code
    unfold execute? effect? successor? Leaves
    revert code way ends
    cases last.form <;> intro code way ends
    case b =>
      obtain ⟨target, named, goes⟩ := code
      obtain rfl : rest = [] := by simpa [Guest.Form.flow] using way
      rw [List.append_nil] at holds
      refine ⟨{ state with address := target }, by simp [named], ?_⟩
      exact goes.arrives (tracks.at frame.position target) sound sites holds
    case bEq =>
      obtain ⟨flag, target, named, bound, conditional⟩ := code
      obtain goes : emission.Continues last.next rest := by simpa [Guest.Form.flow] using way
      refine ⟨{ state with address := if state.word .zero ≠ 0 then target else last.next }, ?_,
        leaves_conditional bound conditional goes sound sites tracks holds⟩
      by_cases taken : state.word .zero = 0 <;> simp [named, taken]
    case cbnz =>
      obtain ⟨value, target, named, bound, conditional⟩ := code
      obtain goes : emission.Continues last.next rest := by simpa [Guest.Form.flow] using way
      refine ⟨{ state with address := if state.word (last.x 0) ≠ 0 then target else last.next }, ?_,
        leaves_conditional bound conditional goes sound sites tracks holds⟩
      by_cases taken : state.word (last.x 0) = 0 <;> simp [named, taken]
    case bl =>
      obtain ⟨link, target, after, named, bound, rfl, goes⟩ := code
      obtain rfl : rest = [] := by simpa [Guest.Form.flow] using way
      rw [List.append_nil] at holds
      exact ⟨{ state.setWord .link last.next with address := target }, by simp [named],
        leaves_call bound goes sound sites tracks holds⟩
    case ret =>
      obtain ⟨next, bound, rfl⟩ := code
      obtain rfl : rest = [] := by simpa [Guest.Form.flow] using way
      rw [List.append_nil] at holds
      refine ⟨{ state with address := state.word .link }, rfl, ?_⟩
      exact ends_ret (tracks.at frame.position (state.word .link)) (tracks.get bound) holds
    all_goals exact absurd ends (by decide)
  · have sequential : last.endsBlock = false := by simpa using ends
    have falls : last.fallsOut = true := by
      unfold Guest.Instruction.endsBlock Guest.Flow.endsBlock at sequential
      unfold Guest.Instruction.fallsOut
      cases flow : last.form.flow <;> simp_all
    rcases way with ⟨_, goes⟩ | ⟨leaves, _⟩
    · exact leaves_sequential code sequential goes sound sites tracks holds
    · rw [falls] at leaves
      cases leaves

/-- What a block does by itself, beside what its code does. The code's part of a call is left open: whatever the
callee comes to, both go on alike. -/
inductive Matches (emission : Emission) (function : Function) (args : List UInt64) (links : UInt64 → Bool)
    (block : Guest.Block) (frame : Frame) (context alone : Context) : Prop
  | overflow : (∀ call, runBlock links call block alone = .error .overflow) →
      Overflows function args frame context → Matches emission function args links block frame context alone
  | away (next : UInt64) (after : Context) : (∀ call, runBlock links call block alone = .ok (.away next, after)) →
      Ends function args frame context next ⟨next, after.regs, after.world⟩ → after.depth = alone.depth →
        Matches emission function args links block frame context alone
  | onward (next : UInt64) (after : Context) :
      (∀ call, runBlock links call block alone = .ok (.onward next, after)) →
        emission.Arrives function args frame context next ⟨next, after.regs, after.world⟩ →
          after.depth = alone.depth → Matches emission function args links block frame context alone
  | call (target back : UInt64) (after : Context) :
      (∀ call, runBlock links call block alone = (call target after >>= fun arrival =>
        .ok (if arrival.1 = back then .onward arrival.1 else .away arrival.1, arrival.2))) →
        emission.CallsThrough function args frame context target back ⟨target, after.regs, after.world⟩ →
          after.depth = alone.depth → Matches emission function args links block frame context alone

theorem execute?_call {last : Guest.Instruction} (form : last.form = .bl) {after : State}
    (ran : execute? last state = some after) : last.target = some after.address := by
  unfold execute? effect? successor? at ran
  rw [form] at ran
  cases named : last.target with
  | none => simp [named] at ran
  | some target =>
    simp only [named] at ran
    cases ran
    rfl

/-- A block that ends in an instruction matches code that leaves as the instruction does. -/
theorem matches_last {block : Guest.Block} {last : Guest.Instruction} {links : UInt64 → Bool}
    {alone : Context} {before after : State} (member : last ∈ block.instructions)
    (linked : ∀ target ∈ block.callees,
      links target = true ↔ emission.tier = .tier1 ∧ emission.linkable target = true)
    (ran : execute? last before = some after)
    (ways : ∀ call, runBlock links call block alone =
      depart links call last after.address { alone with regs := after.regs, world := after.world })
    (leaves : emission.Leaves function args frame context last after) :
    emission.Matches function args links block frame context alone := by
  unfold Leaves at leaves
  unfold depart at ways
  cases form : last.form <;> simp only [form] at leaves ways
  case ret => exact .away _ { alone with regs := after.regs, world := after.world } ways leaves rfl
  case bl =>
    have callee : after.address ∈ block.callees := by
      refine List.mem_filterMap.mpr ⟨last, member, ?_⟩
      unfold Guest.Instruction.callee?
      rw [form]
      exact execute?_call form ran
    have links := linked after.address callee
    by_cases inPlace : emission.tier = .tier1 ∧ emission.linkable after.address = true
    · rw [if_pos inPlace] at leaves
      simp only [links.mpr inPlace, if_true] at ways
      exact .call after.address last.next { alone with regs := after.regs, world := after.world } ways leaves rfl
    · rw [if_neg inPlace] at leaves
      have apart := mt links.mp inPlace
      simp only [apart] at ways
      exact .onward _ { alone with regs := after.regs, world := after.world } ways leaves rfl
  all_goals exact .onward _ { alone with regs := after.regs, world := after.world } ways leaves rfl

theorem runs_block {block : Guest.Block} {added : List Op} (code : emission.BlockCode block added)
    (straight : block.Straight) (sound : emission.Allotted) (sites : function.Sites emission.labels)
    {links : UInt64 → Bool} (linked : ∀ target ∈ block.callees,
      links target = true ↔ emission.tier = .tier1 ∧ emission.linkable target = true) {alone : Context}
    (tracks : emission.Tracks frame context ⟨block.address, alone.regs, alone.world⟩)
    (holds : function.Holds frame.position (Expansion.expand emission.bindings added)) :
    emission.Matches function args links block frame context alone := by
  obtain ⟨label, front, last, bodies, final, rest, found, split, body, ending, rfl, way⟩ := code
  have sequential : ∀ instruction ∈ front, instruction.endsBlock = false := by
    simpa [split] using straight.sequential
  have next : block.last = last.next := by simp [Guest.Block.last, split]
  have final? : block.instructions.getLast? = some last := by simp [split]
  rw [next] at way
  have shape : Expansion.expand emission.bindings (.place label :: (bodies.flatten ++ (final ++ rest))) =
      .place label :: (Expansion.expand emission.bindings bodies.flatten ++
        Expansion.expand emission.bindings (final ++ rest)) := by
    rw [← Expansion.expand_append]
    rfl
  rw [shape] at holds
  have passes : Glide function args 1 frame context { frame with position := frame.position + 1 } context :=
    glide_place holds context
  obtain ⟨inside, behind⟩ := holds.cons.2.append
  have all : executeAll? block.instructions ⟨block.address, alone.regs, alone.world⟩ =
      (executeAll? front ⟨block.address, alone.regs, alone.world⟩).bind (execute? last) := by
    rw [split, executeAll?_append]
    exact congrArg _ (funext (executeAll?_single last))
  rcases runs_body body sequential sound tracks.stepped inside with
    ⟨middle, ran, count, reached, between, glides, position, tracked, depth⟩ | ⟨none, overflows⟩
  · rw [← position] at behind
    rw [ran] at all
    rcases runs_last ending way sound sites tracked behind with ⟨after, done, leaves⟩ | ⟨none, overflows⟩
    · have whole := leaves.after (passes.trans glides) depth
      let left : Context := { alone with regs := after.regs, world := after.world }
      have ways : ∀ call, runBlock links call block alone = depart links call last after.address left := by
        intro call
        unfold runBlock
        rw [all, Option.bind_some, done, final?]
      exact matches_last (by simp [split]) linked done ways whole
    · refine .overflow (fun call => ?_) ((overflows.after glides).after passes)
      unfold runBlock
      rw [all, Option.bind_some, none]
  · refine .overflow (fun call => ?_) (overflows.after passes)
    unfold runBlock
    rw [all, none]
    rfl

end Emission
end Dynarec
