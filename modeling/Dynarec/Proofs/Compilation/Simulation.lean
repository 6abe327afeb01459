import Dynarec.Proofs.Compilation.Graph

/-!
The code of a graph runs as the graph does: as long as control goes to blocks that are in it, the code goes from
label to label, and each block's code does what the block does. The two directions are inductions on the bounds
of the runs, with the calls of the one below those of the other.
-/
namespace Dynarec
namespace Emission
open Ir Semantics Interpreter Outcome

variable {emission : Emission} {graph : Guest.Graph} {args : List UInt64} {frame : Frame}
  {context alone : Context} {next : UInt64} {cache : Cache} {links : UInt64 → Bool}

theorem Ends.exec {function : Function} {state : State}
    (ends : Ends function args frame context next state) (cache : Cache) :
    ∃ left : Context, left.Agree { context with regs := state.regs, world := state.world } ∧
      ∃ bound, ∀ fuel, exec cache fuel (.compiled function args frame) context =
        if fuel ≤ bound then .error .outOfFuel else .ok (next, left) := by
  obtain ⟨count, last, between, left, glides, done, agree⟩ := ends
  refine ⟨left, agree, count, ?_⟩
  intro fuel
  rw [glides.exec cache fuel]
  split
  · next few =>
    rw [Nat.sub_eq_zero_of_le few]
    rfl
  · next enough =>
    obtain ⟨rest, more⟩ : ∃ rest, fuel - count = rest + 1 := ⟨fuel - count - 1, by omega⟩
    rw [more, Interpreter.exec, done]

theorem Ends.below {function : Function} {state : State} (ends : Ends function args frame context next state)
    (cache : Cache) (fuel : Nat) (regs : state.regs.Agree alone.regs) (world : state.world = alone.world)
    (depth : context.depth = alone.depth) :
    Below Arrival.Agree (Interpreter.exec cache fuel (.compiled function args frame) context)
      (.ok (next, alone)) := by
  obtain ⟨left, agree, least, ran⟩ := ends.exec cache
  rw [ran fuel]
  exact .bounded fun _ => .ok ⟨rfl, agree.regs.trans regs, agree.world.trans world, agree.depth.trans depth⟩

theorem Overflows.exec {function : Function} (overflows : Overflows function args frame context) (cache : Cache) :
    ∃ bound, ∀ fuel, exec cache fuel (.compiled function args frame) context =
      if fuel ≤ bound then .error .outOfFuel else .error .overflow := by
  obtain ⟨count, last, between, glides, halts⟩ := overflows
  refine ⟨count, ?_⟩
  intro fuel
  rw [glides.exec cache fuel]
  split
  · next few =>
    rw [Nat.sub_eq_zero_of_le few]
    rfl
  · next enough =>
    obtain ⟨rest, more⟩ : ∃ rest, fuel - count = rest + 1 := ⟨fuel - count - 1, by omega⟩
    rw [more, Interpreter.exec, halts]

/-- A frame that makes a call goes on with what the callee comes to. -/
theorem exec_calling {function : Function} {caller : Frame} {entering : Context} {target : UInt64}
    {resume : UInt64 → Frame}
    (steps : ∀ call, step call function args caller entering = (call target entering >>= fun arrival =>
      .ok (.next (resume arrival.1) arrival.2))) (cache : Cache) (fuel : Nat) :
    exec cache (fuel + 1) (.compiled function args caller) entering =
      (link cache (exec cache fuel) target entering >>= fun arrival =>
        exec cache fuel (.compiled function args (resume arrival.1)) arrival.2) := by
  rw [Interpreter.exec, steps]
  cases link cache (Interpreter.exec cache fuel) target entering <;> rfl

/-- The run of a graph that has come to an address to end at. -/
theorem follow_outside {tier : Tier} (outside : tier = .tier0 ∨ ∀ block ∈ graph.blocks, block.address ≠ next)
    (call : UInt64 → Context → Outcome (UInt64 × Context)) (fuel : Nat) :
    follow tier (runGraph graph tier links call (fuel + 1)) (.onward next, alone) = .ok (next, alone) := by
  by_cases tier0 : tier = .tier0
  · simp [follow, tier0]
  · simp [follow, runGraph, tier0, find_none (outside.resolve_left tier0)]

/-- The code's run is below the graph's from the end of a block on, if it is from each block. -/
theorem arrive_below (lays : emission.Lays graph) {call : UInt64 → Context → Outcome (UInt64 × Context)}
    {bound fuel more : Nat}
    (ih : ∀ fewer < bound, ∀ more, fewer ≤ more → ∀ (block : Guest.Block) (frame : Frame) (context alone : Context),
      block ∈ graph.blocks → emission.AtBlock frame context block alone →
        Below Arrival.Agree (exec cache fewer (.compiled emission.finish.function args frame) context)
          (runGraph graph emission.tier links call (more + 1) block.address alone))
    (few : fuel ≤ bound) (enough : fuel ≤ more)
    (arrives : emission.Arrives emission.finish.function args frame context next ⟨next, alone.regs, alone.world⟩)
    (depth : context.depth = alone.depth) :
    Below Arrival.Agree (exec cache fuel (.compiled emission.finish.function args frame) context)
      (follow emission.tier (runGraph graph emission.tier links call more) (.onward next, alone)) := by
  intro unbounded
  have positive : fuel ≠ 0 := by
    rintro rfl
    exact unbounded rfl
  obtain ⟨rest, rfl⟩ : ∃ rest, more = rest + 1 := ⟨more - 1, by omega⟩
  rcases arrives.block lays depth with ⟨block, member, rfl, tier, count, last, between, glides, atBlock⟩ | ⟨outside, ends⟩
  · rw [glides.exec cache fuel] at unbounded ⊢
    have step : follow emission.tier (runGraph graph emission.tier links call (rest + 1))
        (.onward block.address, alone) = runGraph graph emission.tier links call (rest + 1) block.address alone := by
      simp [follow, tier]
    rw [step]
    exact ih _ (by omega) rest (by omega) block last between alone member atBlock unbounded
  · rw [follow_outside outside]
    exact ends.below cache fuel (.refl _) rfl depth unbounded

/-- Which callees are called in place. -/
def Links (emission : Emission) (graph : Guest.Graph) (links : UInt64 → Bool) : Prop :=
  ∀ target ∈ graph.callees, links target = true ↔ emission.tier = .tier1 ∧ emission.linkable target = true

theorem AtBlock.matches {block : Guest.Block} (atBlock : emission.AtBlock frame context block alone)
    (lays : emission.Lays graph) (sound : graph.Sound) (linked : emission.Links graph links)
    (member : block ∈ graph.blocks) :
    emission.Matches emission.finish.function args links block frame context alone := by
  obtain ⟨added, code, holds, tracks, _⟩ := atBlock
  have callees : ∀ target ∈ block.callees,
      links target = true ↔ emission.tier = .tier1 ∧ emission.linkable target = true :=
    fun target calls => linked target (List.mem_flatMap.mpr ⟨block, member, calls⟩)
  exact runs_block code (sound.straight block member) lays.allotted lays.sites callees tracks holds

theorem runGraph_block (sound : graph.Sound) {block : Guest.Block} (member : block ∈ graph.blocks) (tier : Tier)
    (call : UInt64 → Context → Outcome (UInt64 × Context)) (fuel : Nat) :
    runGraph graph tier links call (fuel + 1) block.address alone =
      (runBlock links call block alone >>= follow tier (runGraph graph tier links call fuel)) := by
  rw [runGraph, find_block sound member]

/-- What the code comes to within a bound, the graph comes to. -/
theorem exec_below_runGraph (lays : emission.Lays graph) (sound : graph.Sound) (linked : emission.Links graph links)
    {calls fuel more : Nat} (few : fuel ≤ calls + 1) (enough : fuel ≤ more)
    {block : Guest.Block} (member : block ∈ graph.blocks) (atBlock : emission.AtBlock frame context block alone) :
    Below Arrival.Agree (exec cache fuel (.compiled emission.finish.function args frame) context)
      (runGraph graph emission.tier links (link cache (exec cache calls)) (more + 1) block.address alone) := by
  induction fuel using Nat.strong_induction_on generalizing more block frame context alone with
  | _ fuel ih =>
    have onward : ∀ fewer < fuel, ∀ more, fewer ≤ more → ∀ (block : Guest.Block) (frame : Frame)
        (context alone : Context), block ∈ graph.blocks → emission.AtBlock frame context block alone → _ :=
      fun fewer less more enough block frame context alone member atBlock =>
        ih fewer less (by omega) enough member atBlock
    have depth : context.depth = alone.depth := atBlock.choose_spec.2.2.2
    rw [runGraph_block sound member]
    cases atBlock.matches lays sound linked member with
    | overflow stops overflows =>
      obtain ⟨least, ran⟩ := overflows.exec cache
      rw [stops, ran fuel]
      exact .bounded fun _ => .error _ .overflow
    | away next after leaves ends same =>
      rw [leaves]
      exact ends.below cache fuel (.refl after.regs) rfl (depth.trans same.symm)
    | onward next after leaves arrives same =>
      rw [leaves]
      exact arrive_below lays onward le_rfl enough arrives (depth.trans same.symm)
    | call target back after leaves calling same =>
      obtain ⟨count, caller, entering, resume, glides, agree, steps, goes⟩ := calling
      rw [leaves, glides.exec cache fuel, bind_assoc]
      rcases Nat.eq_zero_or_pos (fuel - count) with few | some
      · rw [few]
        exact fun unbounded => absurd rfl unbounded
      · obtain ⟨rest, left⟩ : ∃ rest, fuel - count = rest + 1 := ⟨fuel - count - 1, by omega⟩
        rw [left, exec_calling steps]
        have entered : entering.Agree after := ⟨agree.regs, agree.world, agree.depth.trans (depth.trans same.symm)⟩
        have callee : Below Arrival.Agree (link cache (exec cache rest) target entering)
            (link cache (exec cache calls) target after) :=
          link_below (fun activation _ _ agree => exec_below cache (by omega) activation agree) _ _ _ entered
        refine callee.bind ?_
        rintro ⟨came, left⟩ ⟨_, right⟩ ⟨rfl, agree⟩
        have way := goes came left
        by_cases returned : came = back
        · subst returned
          simp only [if_true] at way ⊢
          exact arrive_below lays onward (by omega) (by omega) (way.congr agree.regs agree.world) agree.depth
        · simp only [if_neg returned] at way ⊢
          exact way.below cache rest agree.regs agree.world agree.depth

theorem Ends.above {function : Function} {state : State} (ends : Ends function args frame context next state)
    (cache : Cache) (regs : state.regs.Agree alone.regs) (world : state.world = alone.world)
    (depth : context.depth = alone.depth) :
    ∃ bound, Below Arrival.Agree (.ok (next, alone))
      (Interpreter.exec cache bound (.compiled function args frame) context) := by
  obtain ⟨left, agree, least, ran⟩ := ends.exec cache
  refine ⟨least + 1, ?_⟩
  rw [ran, if_neg (by omega)]
  have same : Arrival.Agree (next, left) (next, alone) :=
    ⟨rfl, agree.regs.trans regs, agree.world.trans world, agree.depth.trans depth⟩
  exact .ok same.symm

/-- The graph's run is below the code's from the end of a block on, if it is from each block. -/
theorem arrive_above (lays : emission.Lays graph) {call : UInt64 → Context → Outcome (UInt64 × Context)} {fuel : Nat}
    (ih : ∀ (block : Guest.Block) (frame : Frame) (context alone : Context), block ∈ graph.blocks →
      emission.AtBlock frame context block alone → ∃ bound, Below Arrival.Agree
        (runGraph graph emission.tier links call fuel block.address alone)
          (exec cache bound (.compiled emission.finish.function args frame) context))
    (arrives : emission.Arrives emission.finish.function args frame context next ⟨next, alone.regs, alone.world⟩)
    (depth : context.depth = alone.depth) :
    ∃ bound, Below Arrival.Agree (follow emission.tier (runGraph graph emission.tier links call fuel)
      (.onward next, alone)) (exec cache bound (.compiled emission.finish.function args frame) context) := by
  rcases arrives.block lays depth with ⟨block, member, rfl, tier, count, last, between, glides, atBlock⟩ | ⟨outside, ends⟩
  · obtain ⟨bound, below⟩ := ih block last between alone member atBlock
    refine ⟨bound + (count + 1), ?_⟩
    rw [glides.exec, Nat.add_sub_cancel]
    simpa [follow, tier] using below
  · obtain ⟨bound, below⟩ := ends.above cache (.refl _) rfl depth
    refine ⟨bound, ?_⟩
    cases fuel with
    | succ fuel =>
      rw [follow_outside outside]
      exact below
    | zero =>
      unfold follow
      by_cases tier0 : emission.tier = .tier0
      · simpa [tier0] using below
      · simp only [if_neg tier0]
        exact fun unbounded => absurd rfl unbounded

/-- What the graph comes to in a number of blocks, the code comes to. -/
theorem runGraph_below_exec (lays : emission.Lays graph) (sound : graph.Sound) (linked : emission.Links graph links)
    (calls fuel : Nat) {block : Guest.Block} (member : block ∈ graph.blocks)
    (atBlock : emission.AtBlock frame context block alone) :
    ∃ bound, Below Arrival.Agree
      (runGraph graph emission.tier links (link cache (exec cache calls)) fuel block.address alone)
      (exec cache bound (.compiled emission.finish.function args frame) context) := by
  induction fuel generalizing block frame context alone with
  | zero => exact ⟨0, .error _ .outOfFuel⟩
  | succ fuel ih =>
    have onward : ∀ (block : Guest.Block) (frame : Frame) (context alone : Context), block ∈ graph.blocks →
        emission.AtBlock frame context block alone → _ :=
      fun block frame context alone member atBlock => ih member atBlock
    have depth : context.depth = alone.depth := atBlock.choose_spec.2.2.2
    rw [runGraph_block sound member]
    cases atBlock.matches lays sound linked member with
    | overflow stops overflows =>
      obtain ⟨least, ran⟩ := overflows.exec cache
      refine ⟨least + 1, ?_⟩
      rw [stops, ran, if_neg (by omega)]
      exact .error _ .overflow
    | away next after leaves ends same =>
      rw [leaves]
      exact ends.above cache (.refl after.regs) rfl (depth.trans same.symm)
    | onward next after leaves arrives same =>
      rw [leaves]
      exact arrive_above lays onward arrives (depth.trans same.symm)
    | call target back after leaves calling same =>
      obtain ⟨count, caller, entering, resume, glides, agree, steps, goes⟩ := calling
      have entered : after.Agree entering :=
        ⟨agree.regs.symm, agree.world.symm, same.trans (depth.symm.trans agree.depth.symm)⟩
      have callee : Below Arrival.Agree (link cache (exec cache calls) target after)
          (link cache (exec cache calls) target entering) :=
        link_below (fun activation _ _ agree => exec_below cache le_rfl activation agree) _ _ _ entered
      rw [leaves, bind_assoc]
      cases came : link cache (exec cache calls) target after with
      | error halt =>
        refine ⟨count + (calls + 1), ?_⟩
        rw [glides.exec, Nat.add_sub_cancel_left, exec_calling steps]
        intro unbounded
        have same := callee (by rwa [came])
        rw [came] at same
        generalize link cache (exec cache calls) target entering = ended at same ⊢
        cases same
        exact .error halt
      | ok arrival =>
        obtain ⟨next, right⟩ := arrival
        -- where the callee ends fixes where the code goes on, and so how long it still runs
        obtain ⟨left, ended, agree⟩ : ∃ left, link cache (exec cache calls) target entering = .ok (next, left) ∧
            right.Agree left := by
          have same := callee (by simp [came])
          rw [came] at same
          generalize link cache (exec cache calls) target entering = ended at same ⊢
          cases same with
          | @ok _ arrival agree =>
            obtain ⟨other, left⟩ := arrival
            obtain ⟨rfl, agree⟩ := agree
            exact ⟨left, rfl, agree⟩
        obtain ⟨rest, first⟩ : ∃ rest, Below Arrival.Agree (follow emission.tier
            (runGraph graph emission.tier links (link cache (exec cache calls)) fuel)
              (if next = back then .onward next else .away next, right))
            (exec cache rest (.compiled emission.finish.function args (resume next)) left) := by
          have way := goes next left
          by_cases returned : next = back
          · subst returned
            simp only [if_true] at way ⊢
            exact arrive_above lays onward (way.congr agree.regs.symm agree.world.symm) agree.depth.symm
          · simp only [if_neg returned] at way ⊢
            exact way.above cache agree.regs.symm agree.world.symm agree.depth.symm
        have later : Below Arrival.Agree (link cache (exec cache calls) target entering)
            (link cache (exec cache (calls + rest)) target entering) :=
          link_below (fun activation _ _ agree => exec_below cache (by omega) activation agree) _ _ _ (.refl entering)
        rw [ended] at later
        refine ⟨count + (calls + rest + 1), ?_⟩
        rw [glides.exec, Nat.add_sub_cancel_left, exec_calling steps]
        have goesOn : Below Arrival.Agree ((.ok (next, left) : Outcome (UInt64 × Context)) >>= fun arrival =>
            exec cache rest (.compiled emission.finish.function args (resume arrival.1)) arrival.2) _ :=
          later.bind fun _ arrival agree => by
            rw [agree.1]
            exact exec_below cache (Nat.le_add_left rest calls) _ agree.2
        exact first.trans goesOn

end Emission
end Dynarec
