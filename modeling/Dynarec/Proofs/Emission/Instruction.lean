import Dynarec.Emission.Instruction
import Dynarec.Proofs.Effect
import Dynarec.Proofs.Emission.Pieces

/-!
The code of each form of instruction, in the locals that hold its registers. Every instruction whose form names
an address has code, if it names one.
-/
namespace Dynarec
namespace Emission
open Ir

/-- The operations `added` are code of an instruction. -/
def CodeOf (emission : Emission) (instruction : Guest.Instruction) (added : List Op) : Prop :=
  let x := instruction.x
  let v := instruction.v
  let binds := emission.Binds
  match instruction.form with
  | .movz => ∃ dst, binds (x 0) dst ∧ added = [.const dst (instruction.operand 1)]
  | .add => ∃ lhs rhs dst, binds (x 1) lhs ∧ binds (x 2) rhs ∧ binds (x 0) dst ∧
      added = [.binary .add dst lhs rhs]
  | .addImm => ∃ lhs dst, binds (x 1) lhs ∧ binds (x 0) dst ∧
      added = [.binaryImm .add dst lhs (instruction.operand 2)]
  | .sub => ∃ lhs rhs dst, binds (x 1) lhs ∧ binds (x 2) rhs ∧ binds (x 0) dst ∧
      added = [.binary .sub dst lhs rhs]
  | .subImm => ∃ lhs dst, binds (x 1) lhs ∧ binds (x 0) dst ∧
      added = [.binaryImm .sub dst lhs (instruction.operand 2)]
  | .cmpImm => ∃ lhs rhs dst, binds (x 0) lhs ∧ emission.Scratch rhs ∧ binds .zero dst ∧
      added = [.const rhs (instruction.operand 1), .compare .eq dst lhs rhs]
  | .b => ∃ target, instruction.target = some target ∧ emission.Continues target added
  | .bEq => ∃ flag target, instruction.target = some target ∧ binds .zero flag ∧
      emission.ContinuesIf flag target added
  | .cbnz => ∃ value target, instruction.target = some target ∧ binds (x 0) value ∧
      emission.ContinuesIf value target added
  | .bl => ∃ link target rest, instruction.target = some target ∧ binds .link link ∧
      added = .const link instruction.next :: rest ∧
      (if emission.tier = .tier1 ∧ emission.linkable target then
        emission.CallsInPlace target instruction.next rest
      else emission.Continues target rest)
  | .ret => ∃ next, binds .link next ∧ added = [.spill, .ret next]
  | .ldr => ∃ address dst, binds (x 1) address ∧ binds (x 0) dst ∧ added = [.load .w64 dst address]
  | .str => ∃ address src, binds (x 1) address ∧ binds (x 0) src ∧ added = [.store .w64 address src]
  | .cas => ∃ address expected desired dst, binds (x 1) address ∧ binds (x 2) expected ∧
      binds (x 3) desired ∧ binds (x 0) dst ∧ added = [.cas32 dst address expected desired]
  | .nop => added = []
  | .insPair => ∃ low high dst, binds (x 1) low ∧ binds (x 2) high ∧ binds (v 0) dst ∧
      added = [.vectorPack dst low high]
  | .eorV => ∃ lhs rhs dst, binds (v 1) lhs ∧ binds (v 2) rhs ∧ binds (v 0) dst ∧
      added = [.vector .xor dst lhs rhs]
  | .umovLo => ∃ src scratch dst, binds (v 1) src ∧ emission.Scratch scratch ∧ binds (x 0) dst ∧
      added = [.vectorExtract scratch src false, .move dst scratch]
  | .bloat => ∃ slot, binds (.int 0) slot ∧
      added = List.replicate (instruction.operand 0).toNat (.move slot slot)

end Emission

namespace Emit
open Ir Emission Effect

/-- A piece of emission yields a value and adds operations. -/
def Emits {α : Type} (piece : Emit α) (before : Emission) (value : α) (after : Emission) (added : List Op) : Prop :=
  piece.run before = (.ok value, after) ∧ before.Adds after added

theorem Emits.bind {α β : Type} {first : Emit α} {next : α → Emit β} {before middle after : Emission} {value : α}
    {result : β} {front back : List Op} (left : Emits first before value middle front)
    (right : Emits (next value) middle result after back) :
    Emits (first >>= next) before result after (front ++ back) :=
  ⟨by rw [run_bind, left.1]; exact right.1, left.2.trans right.2⟩

section Steps
variable {emission : Emission} (sound : emission.Allotted)
include sound

theorem emits_use (register : Register) :
    ∃ slot after, Emits (use register) emission slot after [] ∧ after.Binds register slot := by
  obtain ⟨adds, bound⟩ := adds_register sound register
  exact ⟨_, _, ⟨rfl, adds⟩, bound⟩

theorem emits_put (op : Op) (fit : ∀ slot ∈ op.locals, slot < emission.locals.size) (plain : op.placed? = none)
    (still : op.target? = none) : Emits (put op) emission () (emission.emit op) [op] :=
  ⟨rfl, adds_emit sound op ⟨fit, by simp [still]⟩ plain⟩

theorem emits_temp : ∃ slot after, Emits (temp .i64) emission slot after [] ∧ after.Scratch slot :=
  ⟨_, _, ⟨rfl, adds_temp sound .i64⟩, scratch_temp sound⟩

theorem emits_constant (value : UInt64) :
    ∃ slot after, Emits (constant value) emission slot after [.const slot value] ∧ after.Scratch slot := by
  obtain ⟨adds, free⟩ := adds_constant sound value
  exact ⟨_, _, ⟨rfl, adds⟩, free⟩

theorem emits_target {instruction : Guest.Instruction} {target : UInt64}
    (named : instruction.target = some target) : Emits (Emit.target instruction) emission target emission [] := by
  refine ⟨?_, .refl sound⟩
  simp only [Emit.target, named]
  rfl

theorem emits_pair (known : List Local) (exist : ∀ slot ∈ known, slot < emission.locals.size) (one two : Register)
    (op : Local → Local → Op) (uses : ∀ a b, (op a b).locals ⊆ a :: b :: known)
    (plain : ∀ a b, (op a b).placed? = none) (still : ∀ a b, (op a b).target? = none) :
    ∃ after a b, Emits (do let a ← use one; let b ← use two; put (op a b)) emission () after [op a b] ∧
      after.Binds one a ∧ after.Binds two b := by
  obtain ⟨a, first, takes, left⟩ := emits_use sound one
  obtain ⟨b, second, takesToo, right⟩ := emits_use takes.2.allotted two
  have grown := takes.2.trans takesToo.2
  have leftKept := left.mono takesToo.2.toExtends
  have fit : ∀ slot ∈ (op a b).locals, slot < second.locals.size := by
    intro slot member
    rcases List.mem_cons.mp (uses a b member) with rfl | later
    · exact leftKept.lt grown.allotted
    · rcases List.mem_cons.mp later with rfl | old
      · exact right.lt grown.allotted
      · exact (exist slot old).trans_le grown.size_le
  have puts := emits_put grown.allotted (op a b) fit (plain a b) (still a b)
  exact ⟨_, a, b, takes.bind (takesToo.bind puts), leftKept.mono puts.2.toExtends, right.mono puts.2.toExtends⟩

theorem emits_triple (known : List Local) (exist : ∀ slot ∈ known, slot < emission.locals.size)
    (one two three : Register) (op : Local → Local → Local → Op)
    (uses : ∀ a b c, (op a b c).locals ⊆ a :: b :: c :: known) (plain : ∀ a b c, (op a b c).placed? = none)
    (still : ∀ a b c, (op a b c).target? = none) :
    ∃ after a b c, Emits (do let a ← use one; let b ← use two; let c ← use three; put (op a b c)) emission ()
        after [op a b c] ∧ after.Binds one a ∧ after.Binds two b ∧ after.Binds three c := by
  obtain ⟨a, first, takes, left⟩ := emits_use sound one
  have exist' : ∀ slot ∈ a :: known, slot < first.locals.size := by
    intro slot member
    rcases List.mem_cons.mp member with rfl | old
    · exact left.lt takes.2.allotted
    · exact (exist slot old).trans_le takes.2.size_le
  have uses' : ∀ b c, (op a b c).locals ⊆ b :: c :: a :: known := by
    intro b c slot member
    have named := uses a b c member
    simp only [List.mem_cons] at named ⊢
    tauto
  obtain ⟨after, b, c, rest, middle, right⟩ :=
    emits_pair takes.2.allotted (a :: known) exist' two three (op a) uses' (plain a) (still a)
  exact ⟨after, a, b, c, takes.bind rest, left.mono rest.2.toExtends, middle, right⟩

theorem emits_instruction {instruction : Guest.Instruction} (named : instruction.Named) :
    ∃ after added, Emits (Emit.instruction instruction) emission () after added ∧
      after.CodeOf instruction added := by
  have nothing : ∀ slot ∈ ([] : List Local), slot < emission.locals.size := by simp
  unfold Emit.instruction CodeOf
  cases form : instruction.form with
  | movz =>
    obtain ⟨dst, first, takes, bound⟩ := emits_use sound (instruction.x 0)
    have puts := emits_put takes.2.allotted (.const dst (instruction.operand 1))
      (by simpa [Op.locals] using bound.lt takes.2.allotted) rfl rfl
    exact ⟨_, _, takes.bind puts, dst, bound.mono puts.2.toExtends, rfl⟩
  | add =>
    obtain ⟨after, lhs, rhs, dst, emits, binds⟩ := emits_triple sound [] nothing (instruction.x 1)
      (instruction.x 2) (instruction.x 0) (fun lhs rhs dst => .binary .add dst lhs rhs) (by simp [Op.locals])
      (fun _ _ _ => rfl) (fun _ _ _ => rfl)
    exact ⟨after, _, emits, lhs, rhs, dst, binds.1, binds.2.1, binds.2.2, rfl⟩
  | addImm =>
    obtain ⟨after, lhs, dst, emits, binds⟩ := emits_pair sound [] nothing (instruction.x 1)
      (instruction.x 0) (fun lhs dst => .binaryImm .add dst lhs (instruction.operand 2)) (by simp [Op.locals])
      (fun _ _ => rfl) (fun _ _ => rfl)
    exact ⟨after, _, emits, lhs, dst, binds.1, binds.2, rfl⟩
  | sub =>
    obtain ⟨after, lhs, rhs, dst, emits, binds⟩ := emits_triple sound [] nothing (instruction.x 1)
      (instruction.x 2) (instruction.x 0) (fun lhs rhs dst => .binary .sub dst lhs rhs) (by simp [Op.locals])
      (fun _ _ _ => rfl) (fun _ _ _ => rfl)
    exact ⟨after, _, emits, lhs, rhs, dst, binds.1, binds.2.1, binds.2.2, rfl⟩
  | subImm =>
    obtain ⟨after, lhs, dst, emits, binds⟩ := emits_pair sound [] nothing (instruction.x 1)
      (instruction.x 0) (fun lhs dst => .binaryImm .sub dst lhs (instruction.operand 2)) (by simp [Op.locals])
      (fun _ _ => rfl) (fun _ _ => rfl)
    exact ⟨after, _, emits, lhs, dst, binds.1, binds.2, rfl⟩
  | cmpImm =>
    obtain ⟨lhs, first, takes, left⟩ := emits_use sound (instruction.x 0)
    obtain ⟨rhs, second, holds, right⟩ := emits_constant takes.2.allotted (instruction.operand 1)
    obtain ⟨dst, third, gives, result⟩ := emits_use holds.2.allotted .zero
    have leftKept := left.mono (holds.2.trans gives.2).toExtends
    have rightKept := right.mono gives.2.toExtends
    have allotted := gives.2.allotted
    have puts := emits_put allotted (.compare .eq dst lhs rhs)
      (by simpa [Op.locals] using ⟨result.lt allotted, leftKept.lt allotted, rightKept.lt⟩) rfl rfl
    exact ⟨_, _, takes.bind (holds.bind (gives.bind puts)), lhs, rhs, dst, leftKept.mono puts.2.toExtends,
      rightKept.mono puts.2.toExtends, result.mono puts.2.toExtends, rfl⟩
  | b =>
    obtain ⟨target, isTarget⟩ := Option.isSome_iff_exists.mp (named (by rw [form]; rfl))
    obtain ⟨added, adds, continues, _⟩ := adds_branch sound target
    exact ⟨_, _, (emits_target sound isTarget).bind ⟨rfl, adds⟩, target, isTarget, continues⟩
  | bEq =>
    obtain ⟨target, isTarget⟩ := Option.isSome_iff_exists.mp (named (by rw [form]; rfl))
    obtain ⟨flag, first, takes, bound⟩ := emits_use sound .zero
    obtain ⟨added, adds, continues⟩ := adds_branchIf takes.2.allotted (bound.lt takes.2.allotted) target
    exact ⟨_, _, takes.bind ((emits_target takes.2.allotted isTarget).bind ⟨rfl, adds⟩), flag, target, isTarget,
      bound.mono adds.toExtends, continues⟩
  | cbnz =>
    obtain ⟨target, isTarget⟩ := Option.isSome_iff_exists.mp (named (by rw [form]; rfl))
    obtain ⟨value, first, takes, bound⟩ := emits_use sound (instruction.x 0)
    obtain ⟨added, adds, continues⟩ := adds_branchIf takes.2.allotted (bound.lt takes.2.allotted) target
    exact ⟨_, _, takes.bind ((emits_target takes.2.allotted isTarget).bind ⟨rfl, adds⟩), value, target, isTarget,
      bound.mono adds.toExtends, continues⟩
  | bl =>
    obtain ⟨target, isTarget⟩ := Option.isSome_iff_exists.mp (named (by rw [form]; rfl))
    obtain ⟨link, first, takes, bound⟩ := emits_use sound .link
    have puts := emits_put takes.2.allotted (.const link instruction.next)
      (by simpa [Op.locals] using bound.lt takes.2.allotted) rfl rfl
    have ready := takes.2.trans puts.2
    obtain ⟨rest, adds, goes⟩ := adds_call ready.allotted target instruction.next
    rw [← adds.tier, ← adds.linkable] at goes
    exact ⟨_, _, takes.bind (puts.bind ((emits_target ready.allotted isTarget).bind ⟨rfl, adds⟩)), link, target,
      rest, isTarget, bound.mono (puts.2.trans adds).toExtends, rfl, goes⟩
  | ret =>
    obtain ⟨next, adds, bound⟩ := adds_retToLink sound
    exact ⟨_, _, ⟨rfl, adds⟩, next, bound, rfl⟩
  | ldr =>
    obtain ⟨after, address, dst, emits, binds⟩ := emits_pair sound [] nothing (instruction.x 1)
      (instruction.x 0) (fun address dst => .load .w64 dst address) (by simp [Op.locals])
      (fun _ _ => rfl) (fun _ _ => rfl)
    exact ⟨after, _, emits, address, dst, binds.1, binds.2, rfl⟩
  | str =>
    obtain ⟨after, address, src, emits, binds⟩ := emits_pair sound [] nothing (instruction.x 1)
      (instruction.x 0) (fun address src => .store .w64 address src) (by simp [Op.locals])
      (fun _ _ => rfl) (fun _ _ => rfl)
    exact ⟨after, _, emits, address, src, binds.1, binds.2, rfl⟩
  | cas =>
    obtain ⟨address, first, takes, bound⟩ := emits_use sound (instruction.x 1)
    obtain ⟨after, expected, desired, dst, emits, binds⟩ := emits_triple takes.2.allotted [address]
      (by simpa using bound.lt takes.2.allotted) (instruction.x 2) (instruction.x 3) (instruction.x 0)
      (fun expected desired dst => .cas32 dst address expected desired) (by simp [Op.locals])
      (fun _ _ _ => rfl) (fun _ _ _ => rfl)
    exact ⟨after, _, takes.bind emits, address, expected, desired, dst, bound.mono emits.2.toExtends, binds.1,
      binds.2.1, binds.2.2, rfl⟩
  | nop => exact ⟨_, _, ⟨rfl, .refl sound⟩, rfl⟩
  | insPair =>
    obtain ⟨after, low, high, dst, emits, binds⟩ := emits_triple sound [] nothing (instruction.x 1)
      (instruction.x 2) (instruction.v 0) (fun low high dst => .vectorPack dst low high) (by simp [Op.locals])
      (fun _ _ _ => rfl) (fun _ _ _ => rfl)
    exact ⟨after, _, emits, low, high, dst, binds.1, binds.2.1, binds.2.2, rfl⟩
  | eorV =>
    obtain ⟨after, lhs, rhs, dst, emits, binds⟩ := emits_triple sound [] nothing (instruction.v 1)
      (instruction.v 2) (instruction.v 0) (fun lhs rhs dst => .vector .xor dst lhs rhs) (by simp [Op.locals])
      (fun _ _ _ => rfl) (fun _ _ _ => rfl)
    exact ⟨after, _, emits, lhs, rhs, dst, binds.1, binds.2.1, binds.2.2, rfl⟩
  | umovLo =>
    obtain ⟨src, first, takes, bound⟩ := emits_use sound (instruction.v 1)
    obtain ⟨scratch, second, holds, free⟩ := emits_temp takes.2.allotted
    have boundKept := bound.mono holds.2.toExtends
    have extracts := emits_put holds.2.allotted (.vectorExtract scratch src false)
      (by simpa [Op.locals] using ⟨free.lt, boundKept.lt holds.2.allotted⟩) rfl rfl
    obtain ⟨dst, third, gives, result⟩ := emits_use extracts.2.allotted (instruction.x 0)
    have freeKept := free.mono (extracts.2.trans gives.2).toExtends
    have moves := emits_put gives.2.allotted (.move dst scratch)
      (by simpa [Op.locals] using ⟨result.lt gives.2.allotted, freeKept.lt⟩) rfl rfl
    exact ⟨_, _, takes.bind (holds.bind (extracts.bind (gives.bind moves))), src, scratch, dst,
      boundKept.mono ((extracts.2.trans gives.2).trans moves.2).toExtends, freeKept.mono moves.2.toExtends,
      result.mono moves.2.toExtends, rfl⟩
  | bloat =>
    obtain ⟨slot, first, takes, bound⟩ := emits_use sound (.int 0)
    have moves := adds_moves takes.2.allotted slot (bound.lt takes.2.allotted) (instruction.operand 0).toNat
    exact ⟨_, _, takes.bind ⟨rfl, moves⟩, slot, bound.mono moves.toExtends, rfl⟩

end Steps
end Emit
end Dynarec
