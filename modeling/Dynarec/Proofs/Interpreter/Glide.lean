import Dynarec.Proofs.Interpreter.Agreement

/-!
Stretches of code that make no calls. What such code comes to does not depend on the cache or the bound: it only
uses up steps, and the rest of the run goes on from where it leaves.
-/
namespace Dynarec

/-- The operations `segment` stand at `position`. -/
def Ir.Function.Holds (function : Ir.Function) (position : Nat) (segment : List Ir.Op) : Prop :=
  segment <+: function.ops.toList.drop position

namespace Ir.Function

theorem Holds.append {function : Function} {position : Nat} {front back : List Op}
    (holds : function.Holds position (front ++ back)) :
    function.Holds position front ∧ function.Holds (position + front.length) back := by
  obtain ⟨rest, shape⟩ := holds
  refine ⟨⟨back ++ rest, by rw [← shape, List.append_assoc]⟩, rest, ?_⟩
  rw [← List.drop_drop, ← shape, List.append_assoc, List.drop_left]

theorem Holds.cons {function : Function} {position : Nat} {op : Op} {rest : List Op}
    (holds : function.Holds position (op :: rest)) :
    function.ops[position]? = some op ∧ function.Holds (position + 1) rest := by
  obtain ⟨tail, shape⟩ := holds
  have first : function.ops.toList[position]? = some op := by
    have head := congrArg List.head? shape
    rw [List.head?_drop] at head
    exact head.symm
  exact ⟨by rwa [Array.getElem?_toList] at first, (Holds.append ⟨tail, shape⟩ : function.Holds position [op] ∧ _).2⟩

/-- What stands behind the operations before it. -/
theorem holds_of_eq {function : Function} {front segment back : List Op}
    (shape : function.ops.toList = front ++ segment ++ back) : function.Holds front.length segment := by
  refine ⟨back, ?_⟩
  rw [shape, List.append_assoc, List.drop_left]

end Ir.Function

namespace Interpreter

/-- In that many steps, none of them a call, the code comes from one frame and context to another. -/
inductive Glide (function : Ir.Function) (args : List UInt64) : Nat → Frame → Context → Frame → Context → Prop
  | refl (frame : Frame) (context : Context) : Glide function args 0 frame context frame context
  | step {count : Nat} {first second last : Frame} {before between after : Context} :
      (∀ call, Interpreter.step call function args first before = .ok (.next second between)) →
        Glide function args count second between last after →
          Glide function args (count + 1) first before last after

variable {function : Ir.Function} {args : List UInt64}

theorem Glide.trans {early late : Nat} {first second third : Frame} {before between after : Context}
    (left : Glide function args early first before second between)
    (right : Glide function args late second between third after) :
    Glide function args (early + late) first before third after := by
  induction left with
  | refl => simpa using right
  | step moves _ ih =>
    rw [Nat.succ_add]
    exact .step moves (ih right)

/-- The rest of a run has the steps that are left. -/
theorem Glide.exec {count : Nat} {first last : Frame} {before after : Context}
    (glide : Glide function args count first before last after) (cache : Cache) (fuel : Nat) :
    exec cache fuel (.compiled function args first) before =
      exec cache (fuel - count) (.compiled function args last) after := by
  induction glide generalizing fuel with
  | refl => rfl
  | step moves _ ih =>
    cases fuel with
    | zero => simp [Interpreter.exec]
    | succ fuel =>
      rw [Interpreter.exec, moves, Nat.add_sub_add_right]
      exact ih fuel

/-- A step carries out the operation at its position. -/
theorem step_at {frame : Frame} {op : Ir.Op} {rest : List Ir.Op}
    (holds : function.Holds frame.position (op :: rest)) (call : UInt64 → Context → Outcome (UInt64 × Context))
    (context : Context) : step call function args frame context =
      perform call function args { frame with position := frame.position + 1 } context op := by
  unfold step
  rw [holds.cons.1]

theorem glide_op {frame last : Frame} {before after : Context} {op : Ir.Op} {rest : List Ir.Op}
    (holds : function.Holds frame.position (op :: rest))
    (performs : ∀ call, perform call function args { frame with position := frame.position + 1 } before op =
      .ok (.next last after)) : Glide function args 1 frame before last after :=
  .step (fun call => (step_at holds call before).trans (performs call)) (.refl last after)

theorem assign_ok {frame after : Frame} {dst : Ir.Local} {wide : Wide} (set : frame.set dst wide = .ok after)
    (context : Context) : assign frame context dst wide = .ok (.next after context) := by
  unfold assign
  rw [set]
  rfl

theorem storeRegister_ok {frame : Frame} {src : Ir.Local} {wide : Wide} (held : frame.get src = .ok wide)
    (call : UInt64 → Context → Outcome (UInt64 × Context)) (context : Context) (register : Register) :
    perform call function args frame context (.storeRegister register src) =
      .ok (.next frame (context.write register wide)) := by
  simp only [perform, held]
  rfl

theorem word_of_get {frame : Frame} {slot : Ir.Local} {wide : Wide} (held : frame.get slot = .ok wide)
    (position : Nat) : ({ frame with position } : Frame).word slot = .ok wide.low := by
  have same : ({ frame with position } : Frame).get slot = .ok wide := held
  unfold Frame.word
  rw [same]
  rfl

theorem glide_jump {frame : Frame} {label : Ir.Label} {rest : List Ir.Op}
    (holds : function.Holds frame.position (.jump label :: rest)) {position : Nat}
    (placed : function.placement? label = some position) (context : Context) :
    Glide function args 1 frame context { frame with position } context := by
  refine glide_op holds fun call => ?_
  simp only [perform, Frame.goto, placed]
  rfl

theorem glide_place {frame : Frame} {label : Ir.Label} {rest : List Ir.Op}
    (holds : function.Holds frame.position (.place label :: rest)) (context : Context) :
    Glide function args 1 frame context { frame with position := frame.position + 1 } context :=
  glide_op holds fun call => by simp only [perform]

theorem glide_taken {frame : Frame} {cond : Ir.Local} {label : Ir.Label} {rest : List Ir.Op}
    (holds : function.Holds frame.position (.branchIf cond label :: rest)) {wide : Wide}
    (held : frame.get cond = .ok wide) (taken : wide.low ≠ 0) {position : Nat}
    (placed : function.placement? label = some position) (context : Context) :
    Glide function args 1 frame context { frame with position } context := by
  refine glide_op holds fun call => ?_
  simp only [perform, word_of_get held, Frame.goto, placed]
  exact if_pos taken

theorem glide_untaken {frame : Frame} {cond : Ir.Local} {label : Ir.Label} {rest : List Ir.Op}
    (holds : function.Holds frame.position (.branchIf cond label :: rest)) {wide : Wide}
    (held : frame.get cond = .ok wide) (untaken : wide.low = 0) (context : Context) :
    Glide function args 1 frame context { frame with position := frame.position + 1 } context := by
  refine glide_op holds fun call => ?_
  simp only [perform, word_of_get held]
  exact if_neg (not_not_intro untaken)

end Interpreter
end Dynarec
