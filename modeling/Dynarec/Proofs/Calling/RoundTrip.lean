import Dynarec.Calling.Samples
import Dynarec.Engine.GuestCall
import Dynarec.Proofs.Calling.Layout
import Dynarec.Proofs.Engine.Attempts
import Dynarec.Proofs.Engine.Lifecycle

/-!
Calls from the host through guest space to a host function. The function receives the values that were passed, the
caller gets what it yields, and of the registers only those that carry arguments, the result and the way back change.
-/
namespace Dynarec
open Effect Calling

/-- A host function that does nothing but yield a result. -/
def Calling.HostFunction.ofPure (name : String) (signature : Signature) (apply : List Value → Option Value) :
    HostFunction :=
  ⟨name, signature, fun values world => .ok (apply values, world)⟩

namespace Calling

theorem Value.resultRegister_ne_link (type : ValueType) : Value.resultRegister type ≠ .link := by
  cases type <;> decide

theorem Value.raw_store_other (result : Option Value) (regs : RegisterFile) {register : Register}
    (apart : ∀ value, result = some value → Value.resultRegister value.type ≠ register) :
    (Value.store result regs).raw register = regs.raw register := by
  cases result with
  | none => rfl
  | some value => exact regs.raw_write_other value.toBits (apart value rfl)

theorem Value.read_store_link (result : Option Value) (regs : RegisterFile) :
    (Value.store result regs).read .link = regs.read .link := by
  cases result with
  | none => rfl
  | some value => exact regs.read_write_other value.toBits (resultRegister_ne_link value.type)

theorem Value.load_store (result : Option Value) (regs : RegisterFile) :
    Value.load (result.map Value.type) (Value.store result regs) = result := by
  cases result with
  | none => rfl
  | some value =>
    have kept : RegisterFile.truncate (Value.resultRegister value.type) value.toBits = value.toBits :=
      value.truncate_toBits rfl
    simp only [Option.map_some, Value.load, Value.store]
    rw [RegisterFile.read_write_same, kept, Value.ofBits_toBits]

end Calling

namespace GuestFunction

variable {address : UInt64} {signature : Signature}

theorem ofSignature_ok (address : UInt64) (few : signature.params.length ≤ maxArguments) : ∃ layout,
    Layout.ofClasses signature.classes = .ok layout ∧
      ofSignature address signature = .ok ⟨address, signature, layout⟩ ∧
        Layout.Assigned [] signature.classes layout.registers := by
  obtain ⟨layout, placed, assigned⟩ := Layout.ofClasses_ok signature.classes (by simpa [Signature.classes] using few)
  refine ⟨layout, placed, ?_, assigned⟩
  unfold ofSignature
  rw [placed]

variable {guest : GuestFunction} (assigned : Layout.Assigned [] guest.signature.classes guest.layout.registers)

include assigned in
theorem read_enter {values : List Value} (typed : values.map Value.type = guest.signature.params) (regs : RegisterFile) :
    guest.layout.read guest.signature.params (guest.enter values regs) = values := by
  have classes : guest.layout.registers.map Register.cls = values.map fun value => value.type.cls := by
    rw [assigned.classes, Signature.classes, ← typed]
    simp
  have whole := Layout.read_writeAll values guest.layout.registers classes assigned.distinct regs
  rw [typed] at whole
  refine Eq.trans (List.map_congr_left fun pair member => ?_) whole
  obtain ⟨type, register⟩ := pair
  have apart : Register.link ≠ register := fun same => assigned.link (same ▸ (List.of_mem_zip member).2)
  unfold enter Layout.write
  dsimp only
  rw [RegisterFile.read_write_other _ _ apart]

theorem read_enter_link (guest : GuestFunction) (values : List Value) (regs : RegisterFile) :
    (guest.enter values regs).read .link = 0 := by
  unfold enter
  rw [RegisterFile.read_write_same]
  rfl

theorem raw_enter_other (guest : GuestFunction) (values : List Value) (regs : RegisterFile) {register : Register}
    (unlike : register ≠ .link) (outside : register ∉ guest.layout.registers) :
    (guest.enter values regs).raw register = regs.raw register := by
  unfold enter Layout.write
  rw [RegisterFile.raw_write_other _ _ (Ne.symm unlike),
    RegisterFile.raw_writeAll_other _ (mt Layout.mem_of_mem_keys outside)]

end GuestFunction

theorem Machine.run_thunk (machine : Machine) (fuel : Nat) {subroutine : Subroutine} {layout : Layout}
    {function : HostFunction} (code : subroutine.code = .thunk layout function) (regs : RegisterFile) :
    machine.run (fuel + 1) subroutine regs = match function.enter layout regs machine.world with
      | .ok (next, regs, world) => .ok (next, regs, { machine with world })
      | .error halt => .error halt := by
  obtain ⟨cache, world⟩ := machine
  unfold Machine.run Interpreter.invoke Subroutine.activate
  rw [code]
  dsimp only
  rw [Interpreter.exec]
  dsimp only
  cases function.enter layout regs world <;> rfl

theorem Calling.HostFunction.enter_ofPure (name : String) (signature : Signature)
    (apply : List Value → Option Value) (layout : Layout) (regs : RegisterFile) (world : World) :
    (ofPure name signature apply).enter layout regs world =
      .ok ((regs.read .link).low, Value.store (apply (layout.read signature.params regs)) regs, world) := by
  unfold enter ofPure
  dsimp only
  rw [← Value.read_store_link (apply (layout.read signature.params regs)) regs]
  rfl

/-- Where host code is, a dispatch that no subscriber refuses runs it as it is. -/
theorem Engine.Fit.runs_host {engine : Engine} (fit : engine.Fit) {address : UInt64} {thunk : Subroutine}
    (there : engine.cache.get? address = some thunk) (stage : thunk.promotion.stage = .tier1)
    (heard : engine.refusal? address = none) (limit fuel : Nat) (cpu : Cpu) :
    ∃ found, found.world.memory = engine.world.memory ∧ Session.Executes fuel address thunk found cpu
      ((Session.dispatch (Session.rivals limit) fuel address).run ⟨engine, cpu⟩) := by
  have undue : thunk.checkPromotion.1 = false := by
    unfold Subroutine.checkPromotion Promotion.check
    rw [stage]
  have kept : thunk.checkPromotion.2 = thunk := Subroutine.checkPromotion_of_stage (by simp [stage])
  have dispatches := fit.dispatches limit fuel address cpu
  generalize (Session.dispatch (Session.rivals limit) fuel address).run ⟨engine, cpu⟩ = outcome at dispatches
  -- the thunk is there and is never due: no other end than finding it is possible
  cases dispatches with
  | unheard refusal _ => cases heard.symm.trans refusal
  | unfound _ told resolves =>
    cases resolves with
    | untranslated absent => cases ((told.known address).symm.trans absent).symm.trans there
    | unrebuilt _ here due =>
      obtain rfl := Option.some.inj (((told.known address).symm.trans here).symm.trans there)
      cases undue.symm.trans due
  | runs _ told resolves _ executes =>
    cases resolves with
    | translated absent => cases ((told.known address).symm.trans absent).symm.trans there
    | found _ here =>
      obtain rfl := Option.some.inj (((told.known address).symm.trans here).symm.trans there)
      rw [kept] at executes
      refine ⟨_, ?_, executes⟩
      rcases told.world with same | stopped
      · exact congrArg World.memory same
      · exact (congrArg World.memory stopped).trans rfl
    | rebuilt here due =>
      obtain rfl := Option.some.inj (((told.known address).symm.trans here).symm.trans there)
      cases undue.symm.trans due

namespace GuestFunction

theorem run_call {guest : GuestFunction} {fuel : Nat} {values : List Value} {engine : Engine} {cpu : Cpu}
    {next : UInt64} {after : Session} (ran : (Session.execute fuel guest.address).run
      ⟨engine, { cpu with regs := guest.enter values cpu.regs }⟩ = (.ok next, after)) :
    (guest.call fuel values).run ⟨engine, cpu⟩ = (.ok (Value.load guest.signature.result after.cpu.regs), after) := by
  unfold call
  rw [run_bind, run_modify]
  dsimp only
  rw [run_bind]
  have discarded : (discard (Session.execute fuel guest.address)).run
      ⟨engine, { cpu with regs := guest.enter values cpu.regs }⟩ = (.ok (), after) := by
    change ((fun _ => ()) <$> Session.execute fuel guest.address).run _ = _
    rw [map_eq_pure_bind, run_bind, ran]
    rfl
  rw [discarded]
  rfl

theorem call_ofPure {engine : Engine} (fit : engine.Fit) {guest : GuestFunction} {name : String}
    {apply : List Value → Option Value}
    (there : engine.cache.get? guest.address = some (Subroutine.host guest.address name
      (guest.layout.registers ++ [.link]) (.thunk guest.layout (.ofPure name guest.signature apply))))
    (heard : engine.refusal? guest.address = none)
    (assigned : Layout.Assigned [] guest.signature.classes guest.layout.registers) {values : List Value}
    (typed : values.map Value.type = guest.signature.params) (cpu : Cpu) (fuel : Nat) :
    ∃ left, (guest.call (fuel + 2) values).run ⟨engine, cpu⟩ =
        (.ok (Value.load guest.signature.result left.cpu.regs), left) ∧
      left.cpu = { cpu with regs := Value.store (apply values) (guest.enter values cpu.regs) } ∧
        left.engine.world.memory = engine.world.memory := by
  obtain ⟨found, memory, _, executed⟩ := fit.runs_host there rfl heard (fuel + 2) (fuel + 1)
    { cpu with regs := guest.enter values cpu.regs }
  dsimp only at executed
  rw [found.machine.run_thunk fuel rfl, HostFunction.enter_ofPure, read_enter assigned typed, read_enter_link] at executed
  have ran : (Session.execute (fuel + 2) guest.address).run ⟨engine, { cpu with regs := guest.enter values cpu.regs }⟩ =
      (.ok 0, ((Session.dispatch (Session.rivals (fuel + 2)) (fuel + 1) guest.address).run
        ⟨engine, { cpu with regs := guest.enter values cpu.regs }⟩).2) := by
    unfold Session.execute
    rw [Session.loop_succ, executed]
    rfl
  refine ⟨_, run_call ran, ?_, ?_⟩
  · rw [executed]
  · rw [executed]
    exact memory

end GuestFunction

namespace Engine

variable {config : Config} {program : Guest.Program} {liveIn : Guest.Graph → LiveIn} {world : World} {registered : List UInt64}
  {before : Engine}

/-- Wherever a host function of at most eight arguments is registered, a guest function of its signature there passes
the arguments on to it and yields its result. -/
theorem Course.round_trips (course : Course (Engine.start config program liveIn world) registered before)
    (address : UInt64) (name : String) {signature : Signature} (few : signature.params.length ≤ maxArguments)
    (apply : List Value → Option Value) :
    ∃ after guest, before.registerHost address (.ofPure name signature apply) = .ok after ∧
      GuestFunction.ofSignature address signature = .ok guest ∧
        ∀ {more : List UInt64} {engine : Engine}, Course after more engine → address ∉ more →
          engine.refusal? address = none → ∀ (values : List Value) (cpu : Cpu),
            values.map Value.type = signature.params → (apply values).map Value.type = signature.result →
              guest.layout.read signature.params (guest.enter values cpu.regs) = values ∧
                ∀ fuel, ∃ left, (guest.call (fuel + 2) values).run ⟨engine, cpu⟩ = (.ok (apply values), left) ∧
                  left.engine.world.memory = engine.world.memory ∧ left.cpu.mode = cpu.mode ∧
                    left.cpu.regs.read .link = 0 ∧
                      ∀ register, register ∉ guest.layout.registers → register ≠ .link →
                        (∀ type, signature.result = some type → register ≠ Value.resultRegister type) →
                          left.cpu.regs.raw register = cpu.regs.raw register := by
  obtain ⟨layout, placed, bound, assigned⟩ := GuestFunction.ofSignature_ok address few
  let guest : GuestFunction := ⟨address, signature, layout⟩
  let thunk := Subroutine.host address name (layout.registers ++ [.link])
    (.thunk layout (HostFunction.ofPure name signature apply))
  have made : Subroutine.thunk address (HostFunction.ofPure name signature apply) = .ok thunk := by
    unfold Subroutine.thunk
    change (Layout.ofClasses signature.classes >>= _) = _
    rw [placed]
    rfl
  obtain ⟨after, registers⟩ : ∃ after, before.registerHost address (.ofPure name signature apply) = .ok after := by
    unfold registerHost
    rw [made]
    exact ⟨_, rfl⟩
  refine ⟨after, guest, registers, bound, ?_⟩
  intro more engine later kept heard values cpu typed returned
  obtain ⟨entries, shown, setup, sane, _⟩ := course.lasts Cache.shows_empty rfl Entries.sane_empty
  obtain ⟨_, same, shownAfter, setupAfter, _⟩ := registerHost_entries shown registers
  cases made.symm.trans same
  have single : after.rivals = none := congrArg (·.2.2.2) (setupAfter.trans setup)
  obtain ⟨next, shownNow, setupNow, _, lasts⟩ := later.lasts shownAfter single (sane.host made)
  have start : (Engine.start config program liveIn world).Fit :=
    ⟨rfl, config.normalized_threshold_pos, _, Cache.shows_empty⟩
  have fit : engine.Fit := start.of_setup (setupNow.trans (setupAfter.trans setup)) ⟨next, shownNow⟩
  have there : engine.cache.get? guest.address = some (Subroutine.host guest.address name
      (guest.layout.registers ++ [.link]) (.thunk guest.layout (.ofPure name guest.signature apply))) := by
    rw [shownNow.entries]
    exact lasts.hosts address thunk (entries.put_self address thunk) rfl kept
  refine ⟨GuestFunction.read_enter assigned typed cpu.regs, fun fuel => ?_⟩
  obtain ⟨left, ran, cpuNow, memory⟩ := GuestFunction.call_ofPure fit there heard assigned typed cpu fuel
  refine ⟨left, ?_, memory, by rw [cpuNow], ?_, ?_⟩
  · have loaded := Value.load_store (apply values) (guest.enter values cpu.regs)
    rw [returned] at loaded
    rw [ran, cpuNow]
    exact congrArg (fun result => (Except.ok result, left)) loaded
  · rw [cpuNow, Value.read_store_link, GuestFunction.read_enter_link]
  · intro register outside unlike resultless
    rw [cpuNow, Value.raw_store_other, GuestFunction.raw_enter_other guest values cpu.regs unlike outside]
    intro value yields
    refine Ne.symm (resultless value.type ?_)
    rw [← returned, yields]
    rfl

/-- A small negative number, a fraction and a truth value go in, and the number comes back wider. -/
theorem round_trips_mixed : ∃ engine guest left,
    GuestFunction.ofSignature 0 ⟨[.i8, .f64, .bool], some .i16⟩ = .ok guest ∧
      guest.layout.registers = [.int 0, .vec 0, .int 1] ∧
        (guest.call 2 [.i8 (-3), .f64 0x3fe0000000000000, .bool true]).run ⟨engine, {}⟩ =
          (.ok (some (.i16 (-3))), left) ∧ left.cpu.regs.read .link = 0 := by
  let signature : Signature := ⟨[.i8, .f64, .bool], some .i16⟩
  let apply : List Value → Option Value := fun values =>
    values.head?.map fun value => .i16 value.toBits.low.toInt64.toInt16
  have few : signature.params.length ≤ maxArguments := by decide
  obtain ⟨after, guest, registers, bound, calls⟩ :=
    (Course.start : Course (Engine.start {} {} (fun _ => {}) {}) [] _).round_trips 0 "widen" few apply
  have heard : after.refusal? 0 = none := by
    cases registers
    rfl
  obtain ⟨_, runs⟩ := calls .start List.not_mem_nil heard [.i8 (-3), .f64 0x3fe0000000000000, .bool true] {} rfl rfl
  obtain ⟨left, ran, _, _, link, _⟩ := runs 0
  refine ⟨after, guest, left, bound, ?_, ran, link⟩
  cases bound
  rfl

end Engine
end Dynarec
