import Dynarec.Proofs.Compilation.Instruction
import Dynarec.Proofs.Ir.Placement

/-!
The code that leaves a block. It comes to another block's label, or ends with the guest's registers stored; a
conditional transfer may fall through instead, and a call in place runs its target in between.
-/
namespace Dynarec
namespace Ir.Function

/-- A label is placed where its placement stands, when no label is placed twice. -/
theorem placement_of_holds {function : Function} (once : (function.ops.toList.filterMap Op.placed?).Nodup)
    {position : Nat} {label : Label} {rest : List Op} (holds : function.Holds position (.place label :: rest)) :
    function.placement? label = some position := placement_of_place once holds.cons.1

/-- Every label is placed, and none twice. -/
structure Sites (function : Function) (labels : Nat) : Prop where
  once : (function.ops.toList.filterMap Op.placed?).Nodup
  placed : ∀ label, label < labels → ∃ position, function.placement? label = some position

end Ir.Function

namespace Emission
open Ir Semantics Interpreter

/-- The run ends at `next` with the guest's registers in the file. -/
def Ends (function : Function) (args : List UInt64) (frame : Frame) (context : Context) (next : UInt64)
    (state : State) : Prop :=
  ∃ count last between after, Glide function args count frame context last between ∧
    (∀ call, step call function args last between = .ok (.done next after)) ∧
      after.Agree { context with regs := state.regs, world := state.world }

/-- The run comes to the label of an address, or ends if it has none to go on at. -/
def Arrives (emission : Emission) (function : Function) (args : List UInt64) (frame : Frame) (context : Context)
    (target : UInt64) (state : State) : Prop :=
  (∃ label count last between, emission.jumpTarget? target = some label ∧
    Glide function args (count + 1) frame context last between ∧
      function.placement? label = some last.position ∧ emission.Tracks last between state ∧
        between.depth = context.depth) ∨
    (emission.jumpTarget? target = none ∧ Ends function args frame context target state)

variable {emission : Emission} {function : Function} {args : List UInt64} {frame : Frame} {context : Context}
  {state : State}

theorem Ends.after {count : Nat} {next : Frame} {between : Context} {target : UInt64}
    (ends : Ends function args next between target state)
    (first : Glide function args count frame context next between) (depth : between.depth = context.depth) :
    Ends function args frame context target state := by
  obtain ⟨more, last, reached, after, glides, done, agree⟩ := ends
  refine ⟨count + more, last, reached, after, first.trans glides, done, agree.regs, agree.world, ?_⟩
  rw [agree.depth]
  exact depth

theorem Arrives.after {count : Nat} {next : Frame} {between : Context} {target : UInt64}
    (arrives : emission.Arrives function args next between target state)
    (first : Glide function args count frame context next between) (depth : between.depth = context.depth) :
    emission.Arrives function args frame context target state := by
  rcases arrives with ⟨label, more, last, reached, found, glides, placed, tracks, same⟩ | ⟨outside, ends⟩
  · exact .inl ⟨label, count + more, last, reached, found, first.trans glides, placed, tracks, same.trans depth⟩
  · exact .inr ⟨outside, ends.after first depth⟩

theorem Ends.congr {target : UInt64} {other : State} (ends : Ends function args frame context target state)
    (regs : state.regs.Agree other.regs) (world : state.world = other.world) :
    Ends function args frame context target other := by
  obtain ⟨count, last, between, after, glides, done, agree⟩ := ends
  exact ⟨count, last, between, after, glides, done, agree.regs.trans regs, agree.world.trans world, agree.depth⟩

theorem Arrives.congr {target : UInt64} {other : State}
    (arrives : emission.Arrives function args frame context target state)
    (regs : state.regs.Agree other.regs) (world : state.world = other.world) :
    emission.Arrives function args frame context target other := by
  rcases arrives with ⟨label, count, last, between, found, glides, placed, tracks, same⟩ | ⟨outside, ends⟩
  · exact .inl ⟨label, count, last, between, found, glides, placed, tracks.congr regs world, same⟩
  · exact .inr ⟨outside, ends.congr regs world⟩

/-- Stores, then the end at the address in a local. -/
theorem ends_ret (tracks : emission.Tracks frame context state) {next : Local} {wide : Wide}
    (held : frame.get next = .ok wide)
    (holds : function.Holds frame.position (Expansion.expand emission.bindings [.spill, .ret next])) :
    Ends function args frame context wide.low state := by
  have shape : Expansion.expand emission.bindings [.spill, .ret next] =
      emission.bindings.map Expansion.store ++ [.ret next] := by
    simp [Expansion.expand, Expansion.expandOp]
  rw [shape] at holds
  obtain ⟨stores, last⟩ := holds.append
  obtain ⟨regs, glides, agree⟩ := tracks.spill stores
  rw [List.length_map] at last
  refine ⟨_, _, _, { context with regs }, glides, fun call => (step_at last call _).trans ?_, agree, tracks.world, rfl⟩
  simp only [perform, word_of_get held]
  rfl

/-- An address in a local of its own, and the end there. -/
theorem ends_leave (tracks : emission.Tracks frame context state) {next : Local} (free : emission.Scratch next)
    {target : UInt64} (holds : function.Holds frame.position
      (Expansion.expand emission.bindings [.const next target, .spill, .ret next])) :
    Ends function args frame context target state := by
  have shape : Expansion.expand emission.bindings [.const next target, .spill, .ret next] =
      .const next target :: Expansion.expand emission.bindings [.spill, .ret next] := rfl
  rw [shape] at holds
  obtain ⟨last, first, position, tracked, held, _⟩ :=
    reaches_scratch tracks holds free (.ofWord target) fun _ => by simp only [perform]
  have behind := holds.cons.2
  rw [← position] at behind
  have ends : Ends function args last context (Wide.ofWord target).low state := ends_ret tracked held behind
  rw [Wide.low_ofWord] at ends
  exact ends.after first rfl

theorem Continues.arrives {target : UInt64} {added : List Op} (goes : emission.Continues target added)
    (tracks : emission.Tracks frame context state) (sound : emission.Allotted)
    (sites : function.Sites emission.labels)
    (holds : function.Holds frame.position (Expansion.expand emission.bindings added)) :
    emission.Arrives function args frame context target state := by
  rcases goes with ⟨label, found, rfl⟩ | ⟨outside, next, free, rfl⟩
  · obtain ⟨position, place⟩ := sites.placed label (sound.jumpTarget?_lt found)
    exact .inl ⟨label, 0, { frame with position }, context, found, glide_jump holds place context, place,
      tracks.at position state.address, rfl⟩
  · exact .inr ⟨outside, ends_leave tracks free holds⟩

/-- A conditional transfer is made when the register is not zero, and falls through otherwise. -/
theorem ContinuesIf.arrives {register : Register} {cond : Local} {target : UInt64} {added : List Op}
    (goes : emission.ContinuesIf cond target added) (bound : emission.Binds register cond)
    (tracks : emission.Tracks frame context state) (sound : emission.Allotted)
    (sites : function.Sites emission.labels)
    (holds : function.Holds frame.position (Expansion.expand emission.bindings added)) :
    if state.word register ≠ 0 then emission.Arrives function args frame context target state
    else emission.Reaches function args frame context (Expansion.expand emission.bindings added).length state := by
  rcases goes with ⟨label, found, rfl⟩ | ⟨outside, nought, untaken, next, skip, free, freeToo, freeNext, rfl⟩
  · obtain ⟨position, place⟩ := sites.placed label (sound.jumpTarget?_lt found)
    split
    · next taken =>
      exact .inl ⟨label, 0, { frame with position }, context, found,
        glide_taken holds (tracks.get bound) taken place context, place, tracks.at position state.address, rfl⟩
    · next untaken =>
      exact ⟨1, { frame with position := frame.position + 1 }, context,
        glide_untaken holds (tracks.get bound) (not_not.mp untaken) context, rfl, tracks.stepped, rfl⟩
  · have shape : Expansion.expand emission.bindings [.const nought 0, .compare .eq untaken cond nought,
        .branchIf untaken skip, .const next target, .spill, .ret next, .place skip] =
        .const nought 0 :: .compare .eq untaken cond nought :: .branchIf untaken skip ::
          (Expansion.expand emission.bindings [.const next target, .spill, .ret next] ++ [.place skip]) := by
      simp [Expansion.expand, Expansion.expandOp]
    rw [shape] at holds ⊢
    obtain ⟨first, toFirst, atFirst, tracked, held, _⟩ :=
      reaches_scratch tracks holds free (.ofWord 0) fun _ => by simp only [perform]
    have holdsFirst := holds.cons.2
    rw [← atFirst] at holdsFirst
    obtain ⟨second, toSecond, atSecond, trackedToo, heldToo, _⟩ :=
      reaches_scratch tracked holdsFirst freeToo (if state.word register == 0 then 1 else 0) fun _ => by
        simp only [perform, tracked.stepped.word bound, word_of_get held, Wide.low_ofWord, Cond.holds]
        rfl
    have holdsSecond := holdsFirst.cons.2
    rw [← atSecond] at holdsSecond
    obtain ⟨leaving, skipping⟩ := (holdsSecond.cons.2).append
    have place := Function.placement_of_holds sites.once skipping
    have glides : Glide function args 2 frame context second context := toFirst.trans toSecond
    split
    · next taken =>
      have nonzero : (state.word register == 0) = false := by simpa using taken
      rw [nonzero] at heldToo
      have moves : Glide function args 1 second context { second with position := second.position + 1 } context :=
        glide_untaken holdsSecond heldToo rfl context
      exact .inr ⟨outside, (ends_leave trackedToo.stepped freeNext leaving).after (glides.trans moves) rfl⟩
    · next untaken =>
      have zero : (state.word register == 0) = true := by simpa using untaken
      rw [zero] at heldToo
      have taken : (if true = true then 1 else 0 : Wide).low ≠ 0 := by decide
      let skipped : Frame := { second with position := second.position + 1 +
        (Expansion.expand emission.bindings [.const next target, .spill, .ret next]).length }
      have moves : Glide function args 1 second context skipped context :=
        glide_taken holdsSecond heldToo taken place context
      have passes : Glide function args 1 skipped context { skipped with position := skipped.position + 1 } context :=
        glide_place skipping context
      refine ⟨2 + (1 + 1), { skipped with position := skipped.position + 1 }, context,
        glides.trans (moves.trans passes), ?_, trackedToo.at (skipped.position + 1) state.address, rfl⟩
      simp only [skipped, List.length_cons, List.length_append, List.length_nil]
      omega

/-- A call in place, from the frame that makes it with the guest's registers in the file to where it goes on. -/
def CallsThrough (emission : Emission) (function : Function) (args : List UInt64) (frame : Frame)
    (context : Context) (target back : UInt64) (state : State) : Prop :=
  ∃ (count : Nat) (caller : Frame) (entering : Context) (resume : UInt64 → Frame),
    Glide function args count frame context caller entering ∧
      entering.Agree { context with regs := state.regs, world := state.world } ∧
        (∀ call, step call function args caller entering = (call target entering >>=
          fun arrival => .ok (.next (resume arrival.1) arrival.2))) ∧
          ∀ next after, if next = back then
              emission.Arrives function args (resume next) after back ⟨back, after.regs, after.world⟩
            else Ends function args (resume next) after next ⟨next, after.regs, after.world⟩

theorem CallsThrough.after {count : Nat} {next : Frame} {between : Context} {target back : UInt64}
    (calls : emission.CallsThrough function args next between target back state)
    (first : Glide function args count frame context next between) (depth : between.depth = context.depth) :
    emission.CallsThrough function args frame context target back state := by
  obtain ⟨more, caller, entering, resume, glides, agree, steps, goes⟩ := calls
  exact ⟨count + more, caller, entering, resume, first.trans glides,
    ⟨agree.regs, agree.world, agree.depth.trans depth⟩, steps, goes⟩

/-- Behind a call the code goes on where the callee was to return to, and ends where else it came to. -/
theorem arrives_behind {address target : UInt64} {next expected returned : Local} {resume : Label} {rest : List Op}
    (tracks : emission.Tracks frame context state) (sound : emission.Allotted)
    (sites : function.Sites emission.labels) (held : frame.get next = .ok (.ofWord address))
    (free : emission.Scratch expected) (freeToo : emission.Scratch returned) (apart : next ≠ expected)
    (apartToo : next ≠ returned) (goes : emission.Continues target rest)
    (holds : function.Holds frame.position (.const expected target :: .compare .eq returned next expected ::
      .branchIf returned resume :: (Expansion.expand emission.bindings [.spill, .ret next] ++
        .place resume :: Expansion.expand emission.bindings rest))) :
    if address = target then emission.Arrives function args frame context target state
    else Ends function args frame context address state := by
  obtain ⟨first, toFirst, atFirst, tracked, heldFirst, keptFirst⟩ :=
    reaches_scratch tracks holds free (.ofWord target) fun _ => by simp only [perform]
  have holdsFirst := holds.cons.2
  rw [← atFirst] at holdsFirst
  have nextFirst : first.get next = .ok (.ofWord address) := (keptFirst next apart).trans held
  obtain ⟨second, toSecond, atSecond, trackedToo, heldSecond, keptSecond⟩ :=
    reaches_scratch tracked holdsFirst freeToo (if address == target then 1 else 0) fun _ => by
      simp only [perform, word_of_get nextFirst, word_of_get heldFirst, Wide.low_ofWord, Cond.holds]
      rfl
  have holdsSecond := holdsFirst.cons.2
  rw [← atSecond] at holdsSecond
  have nextSecond : second.get next = .ok (.ofWord address) := (keptSecond next apartToo).trans nextFirst
  obtain ⟨ending, resuming⟩ := holdsSecond.cons.2.append
  have glides : Glide function args 2 frame context second context := toFirst.trans toSecond
  split
  · next same =>
    have equal : (address == target) = true := by simpa using same
    rw [equal] at heldSecond
    let resumed : Frame := { second with position := second.position + 1 +
      (Expansion.expand emission.bindings [.spill, .ret next]).length }
    have taken : Glide function args 1 second context resumed context :=
      glide_taken holdsSecond heldSecond (by decide) (Function.placement_of_holds sites.once resuming) context
    have passes : Glide function args 1 resumed context { resumed with position := resumed.position + 1 } context :=
      glide_place resuming context
    have arrives : emission.Arrives function args { resumed with position := resumed.position + 1 } context target
        state := goes.arrives (trackedToo.at (resumed.position + 1) state.address) sound sites resuming.cons.2
    exact arrives.after (glides.trans (taken.trans passes)) rfl
  · next other =>
    have different : (address == target) = false := by simpa using other
    rw [different] at heldSecond
    have untaken : Glide function args 1 second context { second with position := second.position + 1 } context :=
      glide_untaken holdsSecond heldSecond rfl context
    have ends : Ends function args { second with position := second.position + 1 } context
        (Wide.ofWord address).low state := ends_ret trackedToo.stepped nextSecond ending
    rw [Wide.low_ofWord] at ends
    exact ends.after (glides.trans untaken) rfl

theorem CallsInPlace.through {target back : UInt64} {added : List Op}
    (calls : emission.CallsInPlace target back added) (tracks : emission.Tracks frame context state)
    (sound : emission.Allotted) (sites : function.Sites emission.labels)
    (holds : function.Holds frame.position (Expansion.expand emission.bindings added)) :
    emission.CallsThrough function args frame context target back state := by
  obtain ⟨next, expected, returned, resume, rest, free, freeToo, freeThree, apart, apartToo, goes, rfl⟩ := calls
  have shape : Expansion.expand emission.bindings ([.spill, .call next target, .reload, .const expected back,
      .compare .eq returned next expected, .branchIf returned resume, .spill, .ret next, .place resume] ++ rest) =
      emission.bindings.map Expansion.store ++ .call next target :: (emission.bindings.map Expansion.load ++
        .const expected back :: .compare .eq returned next expected :: .branchIf returned resume ::
          (Expansion.expand emission.bindings [.spill, .ret next] ++
            .place resume :: Expansion.expand emission.bindings rest)) := by
    simp [Expansion.expand, Expansion.expandOp]
  rw [shape] at holds
  obtain ⟨stores, calling⟩ := holds.append
  rw [List.length_map] at calling
  obtain ⟨regs, glides, agree⟩ := tracks.spill stores
  let caller : Frame := { frame with position := frame.position + emission.bindings.length }
  let landing : UInt64 → Frame := fun address =>
    ⟨caller.position + 1, frame.locals.setIfInBounds next (.ofWord address)⟩
  have known : next < frame.locals.size := tracks.size ▸ free.lt
  refine ⟨_, caller, { context with regs }, landing, glides, ⟨agree, tracks.world, rfl⟩, ?_, ?_⟩
  · intro call
    rw [step_at calling call]
    simp only [perform]
    refine bind_congr fun arrival => ?_
    have sets : ({ caller with position := caller.position + 1 } : Frame).set next (.ofWord arrival.1) =
        .ok (landing arrival.1) := if_pos known
    exact assign_ok sets arrival.2
  · intro address after
    obtain ⟨loads, comparing⟩ := calling.cons.2.append
    rw [List.length_map] at comparing
    have size : (landing address).locals.size = emission.locals.size := by simpa [landing] using tracks.size
    obtain ⟨loaded, toLoaded, atLoaded, tracksLoaded, keptLoaded⟩ :=
      glide_reload args sound size loads after address
    have nextLoaded : loaded.get next = .ok (.ofWord address) := by
      unfold Frame.get
      rw [keptLoaded next free]
      simp [landing, known]
    have behind := comparing
    rw [show caller.position + 1 + emission.bindings.length = loaded.position from atLoaded.symm] at behind
    have way : if address = back then emission.Arrives function args loaded after back _
        else Ends function args loaded after address _ :=
      arrives_behind tracksLoaded sound sites nextLoaded freeToo freeThree apart apartToo goes behind
    split at way
    · next same =>
      subst same
      rw [if_pos rfl]
      exact way.after toLoaded rfl
    · next other =>
      rw [if_neg other]
      exact way.after toLoaded rfl

end Emission
end Dynarec
