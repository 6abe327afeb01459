import Dynarec.Proofs.Compilation.Prologue
import Dynarec.Proofs.Emission.Body
import Dynarec.Proofs.Emission.CallSites

/-!
Arguments as they are passed and as they are taken. A subroutine puts the words of its parameters one behind the other;
the prologue of its code takes them up where they are, whatever registers the body uses besides.
-/
namespace Dynarec
open Ir Interpreter

theorem Ir.LocalKind.words_of (register : Register) : (LocalKind.of register).words = register.words := by
  unfold LocalKind.of Register.words
  cases register.cls <;> rfl

/-- Distinct registers are no more than the bytes of a packed register file. -/
theorem Register.length_le_of_nodup {registers : List Register} (distinct : registers.Nodup) :
    registers.length ≤ 800 := by
  have apart : (registers.map offset).Nodup := distinct.map fun _ _ same => offset_injective same
  have within : registers.map offset ⊆ List.range 800 := by
    intro position member
    obtain ⟨⟨cls, index⟩, _, rfl⟩ := List.mem_map.mp member
    rw [List.mem_range]
    cases cls <;> simp only [offset] <;> omega
  simpa using (List.subperm_of_subset apart within).length_le

/-- The argument words that an operation takes, as many as its local's kind has. -/
def Ir.Function.taken (function : Function) : Op → List Nat
  | .loadArg dst first => function.locals[dst]?.elim [] fun kind => List.range' first kind.words
  | _ => []

/-- No other argument words matter to a load. -/
theorem Interpreter.argument_congr {function : Function} {left right : List UInt64} {dst : Local} {first : Nat}
    (same : ∀ word ∈ function.taken (.loadArg dst first), left.getD word 0 = right.getD word 0) :
    argument function left dst first = argument function right dst first := by
  unfold argument
  cases held : function.locals[dst]? with
  | none => rfl
  | some kind =>
    simp only [Function.taken, held, Option.elim_some] at same
    cases kind with
    | i64 => simp only [same first (by simp [LocalKind.words])]
    | v128 => simp only [same first (by simp [LocalKind.words]), same (first + 1) (by simp [LocalKind.words])]

namespace Emission

variable {emission : Emission} {word : Nat} {registers : List Register} {loads : List Op}

theorem Takes.length_eq (takes : emission.Takes word registers loads) : loads.length = registers.length := by
  induction registers generalizing word loads with
  | nil =>
    obtain rfl : loads = [] := takes
    rfl
  | cons register rest ih =>
    obtain ⟨slot, later, _, rfl, others⟩ := takes
    simp [ih others]

/-- The words are taken in order, each once. -/
theorem Takes.tile (takes : emission.Takes word registers loads) (sound : emission.Allotted) {function : Function}
    (sameLocals : function.locals = emission.locals) :
    loads.flatMap function.taken = List.range' word (registers.map Register.words).sum := by
  induction registers generalizing word loads with
  | nil =>
    obtain rfl : loads = [] := takes
    rfl
  | cons register rest ih =>
    obtain ⟨slot, later, ⟨binding, member, rfl, rfl⟩, rfl, others⟩ := takes
    have own : function.taken (.loadArg binding.slot word) = List.range' word binding.register.words := by
      simp [Function.taken, sameLocals, sound.kinds binding member, LocalKind.words_of]
    rw [List.flatMap_cons, own, ih others, List.map_cons, List.sum_cons, List.range'_append_1]

theorem isParam_param {register : Register} (given : ∀ binding ∈ emission.bindings, binding.isParam = true) :
    ∀ binding ∈ (emission.param register).bindings, binding.isParam = true := by
  unfold param bind
  cases emission.bindings.find? (·.register == register) with
  | some binding => exact given
  | none => simpa [Emission.emit, temp, or_imp, forall_and] using given

theorem isParam_start (name : String) (tier : Tier) (graph : Guest.Graph) (linkable : UInt64 → Bool)
    (params : List Register) :
    ∀ binding ∈ (start name tier graph linkable params).bindings, binding.isParam = true := by
  have each (registers : List Register) {emission : Emission}
      (given : ∀ binding ∈ emission.bindings, binding.isParam = true) :
      ∀ binding ∈ (registers.foldl param emission).bindings, binding.isParam = true := by
    induction registers generalizing emission with
    | nil => exact given
    | cons register rest ih => exact ih (isParam_param given)
  refine each params ?_
  rw [announce_all]
  simp

/-- The registers that the prologue takes from the register file. -/
def loaded (emission : Emission) : List Binding := emission.bindings.filter (·.register ∉ emission.params)

/-- Where the body starts in the finished code. -/
def entry (emission : Emission) : Nat := emission.params.length + emission.loaded.length

/-- The code takes the arguments as the subroutine passes them, and enters its body with every register in a local of its
own. -/
structure Admits (emission : Emission) (subroutine : Subroutine) (context : Context) : Prop where
  passed : (subroutine.arguments context.regs).length = emission.finish.function.argWords
  prologue : ∃ loads code, emission.ops.toList = loads ++ .preload :: code ∧
    emission.finish.function.ops.toList =
      loads ++ emission.loaded.map Expansion.load ++ Expansion.expand emission.bindings code ∧
    emission.Takes 0 emission.params loads ∧
      loads.flatMap emission.finish.function.taken = List.range emission.finish.function.argWords
  enters : ∃ frame, Glide emission.finish.function (subroutine.arguments context.regs) emission.entry
      (.start emission.finish.function) context frame context ∧ frame.position = emission.entry ∧
    (∀ cache fuel, invoke cache fuel subroutine context = exec cache (fuel - emission.entry)
      (.compiled emission.finish.function (subroutine.arguments context.regs) frame) context) ∧
    ∀ binding ∈ emission.bindings, frame.locals[binding.slot]? = some (context.regs.read binding.register)
  apart : (emission.bindings.map Binding.register).Nodup ∧ (emission.bindings.map Binding.slot).Nodup

section Bodies
variable {name : String} {tier : Tier} {graph : Guest.Graph} {linkable : UInt64 → Bool} {params : List Register}
  (body : (start name tier graph linkable params).Grows emission)
include body

theorem Grows.keeps_start : Extends (start name tier graph linkable params) emission ∧ emission.Allotted ∧
    emission.params = params ∧ emission.argWords = (params.map Register.words).sum := by
  obtain ⟨loads, prologue, _⟩ := adds_start name tier graph linkable params
  obtain ⟨grown, sound, words⟩ := body.keeps prologue.allotted
  have started := edges_start name tier graph linkable params
  simp only [edges, Prod.mk.injEq] at started
  exact ⟨grown, sound, grown.params.trans prologue.params, words.trans started.2.2.2.2⟩

theorem Grows.isParam_iff {binding : Binding} (member : binding ∈ emission.bindings) :
    binding.isParam = true ↔ binding.register ∈ emission.params := by
  obtain ⟨loads, prologue, takes⟩ := adds_start name tier graph linkable params
  obtain ⟨grown, sound, same, _⟩ := body.keeps_start
  have whole := prologue.toExtends.trans grown
  constructor
  · obtain ⟨fresh, bindings, given⟩ := whole.bindings
    rw [bindings] at member
    rw [same]
    exact (given binding member).2
  · intro given
    -- the prologue has bound the register as a parameter, and none is bound twice
    rw [same] at given
    obtain ⟨_, slot, _, _, own, inside, register, _⟩ := takes.taken given
    obtain rfl := sound.unique member (grown.mem inside) (.inr register.symm)
    exact isParam_start name tier graph linkable params _ inside

theorem Grows.filter_isParam : emission.bindings.filter (!·.isParam) = emission.loaded := by
  refine List.filter_congr fun binding member => ?_
  have param := body.isParam_iff member
  cases isParam : binding.isParam <;> simp [isParam] at param <;> simp [param]

/-- Behind the prologue stands the expanded body. -/
theorem Grows.prologue : ∃ loads code, emission.ops.toList = loads ++ .preload :: code ∧
    emission.finish.function.ops.toList =
      loads ++ emission.loaded.map Expansion.load ++ Expansion.expand emission.bindings code ∧
    emission.Takes 0 emission.params loads := by
  obtain ⟨loads, prologue, takes⟩ := adds_start name tier graph linkable params
  obtain ⟨grown, _, same, _⟩ := body.keeps_start
  obtain ⟨code, shape⟩ := grown.ops
  have taken : emission.Takes 0 emission.params loads := by
    rw [same]
    exact takes.mono grown
  have front : (start name tier graph linkable params).ops.toList = loads ++ [.preload] := by
    rw [prologue.appended]
    rfl
  have split : emission.ops.toList = loads ++ .preload :: code := by
    rw [← shape, front, List.append_assoc]
    rfl
  refine ⟨loads, code, split, ?_, taken⟩
  change Expansion.expand emission.bindings emission.ops.toList = _
  have pieces : loads ++ .preload :: code = loads ++ ([.preload] ++ code) := rfl
  rw [split, pieces, Expansion.expand_append, Expansion.expand_append, takes.unexpanded, List.append_assoc]
  simp [Expansion.expand, Expansion.expandOp, body.filter_isParam]

theorem Grows.admits (distinct : params.Nodup) {subroutine : Subroutine}
    (code : subroutine.code = .compiled emission.finish.function) (passes : subroutine.params = params)
    (context : Context) : emission.Admits subroutine context := by
  obtain ⟨_, sound, same, words⟩ := body.keeps_start
  obtain ⟨loads, rest, split, shape, takes⟩ := body.prologue
  have arguments : subroutine.arguments context.regs = emission.params.flatMap context.regs.words := by
    rw [Subroutine.arguments, passes, same]
  have count : emission.entry = (loads ++ emission.loaded.map Expansion.load).length := by
    simp [entry, takes.length_eq]
  -- the second word of a vector is found by a sum of 32 bits, which distinct registers never fill
  have small : (emission.params.flatMap context.regs.words).length < 2 ^ 32 := by
    have most := context.regs.length_words_le emission.params
    have few := Register.length_le_of_nodup distinct
    rw [same] at most ⊢
    omega
  have preload : Expansion.expand emission.bindings [.preload] = emission.loaded.map Expansion.load := by
    simp [Expansion.expand, Expansion.expandOp, body.filter_isParam]
  have holds : emission.finish.function.Holds 0 (loads ++ Expansion.expand emission.bindings [.preload]) := by
    rw [preload]
    exact ⟨_, shape.symm⟩
  obtain ⟨frame, glides, position, tracks⟩ := glide_prologue sound rfl
    (fun binding member => (body.isParam_iff member).mp) context small takes holds 0
  rw [preload, ← count, ← arguments] at glides
  rw [preload, ← count] at position
  refine ⟨?_, ⟨loads, rest, split, shape, takes, ?_⟩, ⟨frame, glides, position, ?_, tracks.held⟩,
    sound.registers, sound.slots⟩
  · change _ = emission.argWords
    simp [arguments, words, same, List.length_flatMap, RegisterFile.length_words]
  · rw [takes.tile sound rfl, same, ← words, List.range_eq_range']
    rfl
  · intro cache fuel
    rw [← glides.exec cache fuel]
    unfold invoke Subroutine.activate
    rw [code]

end Bodies

/-- Code for distinct parameters takes the arguments as they are passed and enters its body with every register, parameter
or not, in a local of its own: whatever the body is, what a graph is emitted as among others, and whichever registers it
asks for, which are then in the locals it was given. -/
theorem start_admits (name : String) (tier : Tier) (graph : Guest.Graph) (linkable : UInt64 → Bool)
    {params : List Register} (distinct : params.Nodup) :
    (∀ emitted, Emitted.ofGraph name tier graph linkable params = .ok emitted →
      ∃ emission, (start name tier graph linkable params).Grows emission ∧ emitted = emission.finish) ∧
    ∀ emission, (start name tier graph linkable params).Grows emission →
      emission.params = params ∧
      (∀ middle register, (start name tier graph linkable params).Grows middle →
        (middle.register register).2.Grows emission → emission.Binds register (middle.register register).1) ∧
      ∀ subroutine : Subroutine, subroutine.code = .compiled emission.finish.function → subroutine.params = params →
        ∀ context, emission.Admits subroutine context := by
  refine ⟨fun emitted => Emitted.grows_ofGraph, fun emission body => ⟨body.keeps_start.2.2.1, ?_, ?_⟩⟩
  · intro middle register early late
    obtain ⟨_, prologue, _⟩ := adds_start name tier graph linkable params
    exact early.binds late prologue.allotted
  · intro subroutine code passes context
    exact body.admits distinct code passes context

/-- Three parameters, and a body that returns to what `x7` holds. -/
def passing : Emission :=
  let started := start "Sub" .tier0 { blocks := [] } (fun _ => false) [.int 3, .vec 1, .zero]
  (started.register (.int 7)).2.ret (started.register (.int 7)).1

theorem start_admits_passing : [Register.int 3, .vec 1, .zero].Nodup ∧
    ∀ regs : RegisterFile, ([Register.int 3, .vec 1, .zero].flatMap regs.words).length = 4 ∧
      ∃ frame, Glide passing.finish.function ([Register.int 3, .vec 1, .zero].flatMap regs.words) 4
        (.start passing.finish.function) { regs } frame { regs } ∧ frame.locals[1]? = some (regs.read (.vec 1)) ∧
          frame.locals[2]? = some (regs.read .zero) ∧ frame.locals[3]? = some (regs.read (.int 7)) := by
  have distinct : [Register.int 3, .vec 1, .zero].Nodup := by decide
  refine ⟨distinct, fun regs => ?_⟩
  obtain ⟨_, admits⟩ := start_admits "Sub" .tier0 { blocks := [] } (fun _ => false) distinct
  have body : (start "Sub" .tier0 { blocks := [] } (fun _ => false) [.int 3, .vec 1, .zero]).Grows passing :=
    (Grows.register (.int 7) .refl).trans (grows_ret _ _)
  obtain ⟨_, _, runs⟩ := admits passing body
  obtain ⟨passed, _, ⟨frame, glides, _, _, held⟩, _⟩ :=
    runs (.ofFunction 0x1000 .tier0 passing.finish.function) rfl rfl { regs }
  exact ⟨passed, frame, glides, held ⟨.vec 1, 1, true⟩ (by decide), held ⟨.zero, 2, true⟩ (by decide),
    held ⟨.int 7, 3, false⟩ (by decide)⟩

end Emission
end Dynarec
