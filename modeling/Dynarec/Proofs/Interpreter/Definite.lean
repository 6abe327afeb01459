import Dynarec.Proofs.Interpreter.Agreement
import Dynarec.Proofs.Interpreter.Locals
import Dynarec.Proofs.Ir.Placement

/-!
Runs do not depend on what code does not know. Two frames that differ in locals not yet written, and argument lists that
differ behind the parameters, lead through the same registers, worlds and calls to the same end.
-/
namespace Dynarec
open Ir Outcome

/-- The frames stand at the same place, and what is known of their locals is the same. -/
structure Frame.Matches (known : Set Local) (left right : Frame) : Prop where
  position : left.position = right.position
  size : left.locals.size = right.locals.size
  locals : ∀ slot ∈ known, left.locals[slot]? = right.locals[slot]?

/-- The frames match, with everything else the same. -/
inductive Step.Matches (known : Set Local) : Step → Step → Prop
  | next {left right : Frame} (context : Context) : left.Matches known right →
      Step.Matches known (.next left context) (.next right context)
  | done (next : UInt64) (context : Context) : Step.Matches known (.done next context) (.done next context)

namespace Frame.Matches

variable {known fewer : Set Local} {left right : Frame}

theorem mono (frames : left.Matches known right) (fewerKnown : fewer ⊆ known) : left.Matches fewer right :=
  ⟨frames.position, frames.size, fun slot member => frames.locals slot (fewerKnown member)⟩

theorem get (frames : left.Matches known right) {slot : Local} (member : slot ∈ known) :
    left.get slot = right.get slot := by
  unfold Frame.get
  rw [frames.locals slot member]

theorem word (frames : left.Matches known right) {slot : Local} (member : slot ∈ known) :
    left.word slot = right.word slot := by
  unfold Frame.word
  rw [frames.get member]

theorem set (frames : left.Matches known right) (slot : Local) (wide : Wide) :
    Agree (Frame.Matches (known ∪ {slot})) (left.set slot wide) (right.set slot wide) := by
  unfold Frame.set
  rw [frames.size]
  split
  · refine .ok ⟨frames.position, by simpa using frames.size, ?_⟩
    intro other member
    rw [Array.getElem?_setIfInBounds, Array.getElem?_setIfInBounds, frames.size]
    split
    · rfl
    · next apart => exact frames.locals other (member.resolve_right (Ne.symm apart))
  · exact .error _

theorem goto (frames : left.Matches known right) (function : Function) (label : Label) :
    Agree (Frame.Matches known) (left.goto function label) (right.goto function label) := by
  unfold Frame.goto
  split
  · exact .ok ⟨rfl, frames.size, frames.locals⟩
  · exact .error _

end Frame.Matches

namespace Interpreter

variable {call : UInt64 → Context → Outcome (UInt64 × Context)} {function : Function} {args argsToo : List UInt64}
  {known base : Set Local} {left right : Frame}

theorem assign_matches (frames : left.Matches known right) (context : Context) (dst : Local) (wide : Wide) :
    Agree (Step.Matches (known ∪ {dst})) (assign left context dst wide) (assign right context dst wide) :=
  (frames.set dst wide).bind fun _ _ same => .ok (.next context same)

/-- Parameters are taken from the argument words they have. -/
theorem argument_eq (typed : function.WellTyped)
    (given : ∀ word < function.argWords, args.getD word 0 = argsToo.getD word 0) {dst : Local} {word : Nat}
    (takes : function.Typed (.loadArg dst word)) :
    argument function args dst word = argument function argsToo dst word := by
  obtain ⟨kind, has, carries⟩ := takes
  have room := typed.words ▸ carries.le
  unfold argument
  rw [has]
  cases kind with
  | i64 =>
    dsimp only [LocalKind.words] at room ⊢
    rw [given word (by omega)]
  | v128 =>
    dsimp only [LocalKind.words] at room ⊢
    rw [given word (by omega), given (word + 1) (by omega)]

theorem perform_matches (typed : function.WellTyped)
    (given : ∀ word < function.argWords, args.getD word 0 = argsToo.getD word 0) {op : Op} (own : function.Typed op)
    (frames : left.Matches known right) (reads : ∀ slot ∈ op.reads, slot ∈ known) (context : Context) :
    Agree (Step.Matches (known ∪ {slot | slot ∈ op.dst?})) (perform call function args left context op)
      (perform call function argsToo right context op) := by
  have words : ∀ slot ∈ op.reads, left.word slot = right.word slot := fun slot member => frames.word (reads slot member)
  have gets : ∀ slot ∈ op.reads, left.get slot = right.get slot := fun slot member => frames.get (reads slot member)
  have still : op.dst? = none → left.Matches (known ∪ {slot | slot ∈ op.dst?}) right := by
    intro none
    simpa [none] using frames
  have writes : ∀ dst, op.dst? = some dst → ∀ context wide,
      Agree (Step.Matches (known ∪ {slot | slot ∈ op.dst?})) (assign left context dst wide)
        (assign right context dst wide) := by
    intro dst here context wide
    have single : ({slot | slot ∈ op.dst?} : Set Local) = {dst} := by
      ext slot
      simp [here, eq_comm]
    rw [single]
    exact assign_matches frames context dst wide
  cases op <;> simp only [Op.reads, Op.dst?, Op.locals, List.tail_cons, List.mem_cons, List.not_mem_nil, or_false,
    forall_eq_or_imp, forall_eq] at words gets
  case loadArg dst word =>
    simp only [perform, argument_eq typed given own]
    exact .bind_same _ fun _ => writes dst rfl _ _
  case const dst value => exact writes dst rfl _ _
  case loadRegister dst register => exact writes dst rfl _ _
  case move dst src =>
    simp only [perform, gets]
    exact .bind_same _ fun _ => writes dst rfl _ _
  case unary op dst src =>
    simp only [perform, words]
    exact .bind_same _ fun _ => writes dst rfl _ _
  case binaryImm op dst lhs imm =>
    simp only [perform, words]
    exact .bind_same _ fun _ => writes dst rfl _ _
  case binary op dst lhs rhs =>
    simp only [perform, words]
    exact .bind_same _ fun _ => .bind_same _ fun _ => writes dst rfl _ _
  case compare cond dst lhs rhs =>
    simp only [perform, words]
    exact .bind_same _ fun _ => .bind_same _ fun _ => writes dst rfl _ _
  case select dst cond yes no =>
    simp only [perform, words.1]
    refine .bind_same _ fun word => ?_
    have picked : left.word (if word ≠ 0 then yes else no) = right.word (if word ≠ 0 then yes else no) := by
      split
      · exact words.2.1
      · exact words.2.2
    rw [picked]
    exact .bind_same _ fun _ => writes dst rfl _ _
  case vector op dst lhs rhs =>
    simp only [perform, gets]
    exact .bind_same _ fun _ => .bind_same _ fun _ => writes dst rfl _ _
  case vectorPack dst low high =>
    simp only [perform, words]
    exact .bind_same _ fun _ => .bind_same _ fun _ => writes dst rfl _ _
  case vectorExtract dst src high =>
    simp only [perform, gets]
    exact .bind_same _ fun _ => writes dst rfl _ _
  case storeRegister register src =>
    simp only [perform, gets]
    exact .bind_same _ fun _ => .ok (.next _ (still rfl))
  case load width dst address =>
    simp only [perform, words]
    exact .bind_same _ fun _ => .bind_same _ fun _ => writes dst rfl _ _
  case loadVector dst address =>
    simp only [perform, words]
    exact .bind_same _ fun _ => .bind_same _ fun _ => writes dst rfl _ _
  case store width address src =>
    simp only [perform, words]
    exact .bind_same _ fun _ => .bind_same _ fun _ => .ok (.next _ (still rfl))
  case storeVector address src =>
    simp only [perform, words.1, gets.2]
    exact .bind_same _ fun _ => .bind_same _ fun _ => .ok (.next _ (still rfl))
  case cas32 dst address expected desired =>
    simp only [perform, words]
    exact .bind_same _ fun _ => .bind_same _ fun _ => .bind_same _ fun _ => writes dst rfl _ _
  case call dst target => exact .bind_same _ fun _ => writes dst rfl _ _
  case jump label => exact ((still rfl).goto function label).bind fun _ _ same => .ok (.next _ same)
  case branchIf cond label =>
    simp only [perform, words]
    refine .bind_same _ fun word => ?_
    split
    · exact ((still rfl).goto function label).bind fun _ _ same => .ok (.next _ same)
    · exact .ok (.next _ (still rfl))
  case ret slot =>
    simp only [perform, words]
    exact .bind_same _ fun word => .ok (.done word _)
  case place | preload | spill | reload => exact .ok (.next _ (still rfl))

/-- Both stand where the code reads only what is the same in both. -/
def Stands (base : Set Local) (function : Function) (left right : Frame) : Prop :=
  ∃ known, left.Matches known right ∧ Assigned base known (function.ops.toList.drop left.position)

/-- Both go on standing so, or end alike. -/
inductive Level (base : Set Local) (function : Function) : Step → Step → Prop
  | next {left right : Frame} (context : Context) : Stands base function left right →
      Level base function (.next left context) (.next right context)
  | done (next : UInt64) (context : Context) : Level base function (.done next context) (.done next context)

/-- Wherever a jump leads, the locals that are known at every label are enough. -/
theorem assigned_placement {known : Set Local} (assigned : Assigned base known function.ops.toList) {label : Label}
    {position : Nat} (placed : function.placement? label = some position) :
    Assigned base base (function.ops.toList.drop position) := by
  obtain ⟨bound, here⟩ := Array.getElem?_eq_some_iff.mp (Function.place_of_placement placed)
  have split : function.ops.toList.drop position = .place label :: function.ops.toList.drop (position + 1) := by
    rw [← here]
    exact List.drop_eq_getElem_cons (by simpa using bound)
  have parts : function.ops.toList =
      function.ops.toList.take position ++ .place label :: function.ops.toList.drop (position + 1) := by
    rw [← split, List.take_append_drop]
  rw [split]
  exact assigned.at_label parts

theorem step_level (typed : function.WellTyped)
    (given : ∀ word < function.argWords, args.getD word 0 = argsToo.getD word 0)
    (assigned : Assigned base ∅ function.ops.toList) (stands : Stands base function left right) (context : Context) :
    Agree (Level base function) (step call function args left context) (step call function argsToo right context) := by
  obtain ⟨known, frames, behind⟩ := stands
  have sameOp : function.ops[right.position]? = function.ops[left.position]? := by rw [frames.position]
  unfold step
  rw [sameOp]
  cases here : function.ops[left.position]? with
  | none => exact .ok (.done 0 context)
  | some op =>
    obtain ⟨bound, rfl⟩ := Array.getElem?_eq_some_iff.mp here
    have split : function.ops.toList.drop left.position =
        function.ops[left.position] :: function.ops.toList.drop (left.position + 1) :=
      List.drop_eq_getElem_cons (by simpa using bound)
    generalize function.ops[left.position] = op at split here ⊢
    rw [split] at behind
    obtain ⟨ready, later⟩ := behind
    have own : function.Typed op := typed.ops op (List.mem_of_getElem? (by rwa [Array.getElem?_toList]))
    have stepped : Frame.Matches known { left with position := left.position + 1 }
        { right with position := right.position + 1 } := ⟨congrArg (· + 1) frames.position, frames.size, frames.locals⟩
    have same : Agree (Step.Matches (known ∪ {slot | slot ∈ op.dst?}))
        (perform call function args { left with position := left.position + 1 } context op)
        (perform call function argsToo { right with position := right.position + 1 } context op) :=
      perform_matches typed given own stepped ready.reads context
    have moves : ∀ next after,
        perform call function args { left with position := left.position + 1 } context op = .ok (.next next after) →
          Goes call function op { left with position := left.position + 1 } next context after :=
      fun _ _ => goes_perform
    dsimp only
    generalize perform call function args { left with position := left.position + 1 } context op = first at same moves ⊢
    generalize perform call function argsToo { right with position := right.position + 1 } context op = second at same ⊢
    cases same with
    | error halt => exact .error halt
    | ok same =>
      cases same with
      | done next context => exact .ok (.done next context)
      | @next next _ after frames =>
        refine .ok (.next after ?_)
        rcases (moves next after rfl).position with straight | ⟨label, target, placed⟩
        · exact ⟨op.learns base known, frames.mono ready.learns_subset, by rwa [straight]⟩
        · exact ⟨base, frames.mono ((ready.meets (op.meets_of_target target)).trans Set.subset_union_left),
            assigned_placement assigned placed⟩

/-- The calls in place that code makes, each with the context it is made in. -/
def linkedCalls (cache : Cache) (function : Function) (args : List UInt64) :
    Nat → Frame → Context → List (UInt64 × Context)
  | 0, _, _ => []
  | fuel + 1, frame, context =>
    let calls :=
      match function.ops[frame.position]? with
      | some (.call _ target) => [(target, context)]
      | _ => []
    match step (link cache (exec cache fuel)) function args frame context with
    | .ok (.next frame context) => calls ++ linkedCalls cache function args fuel frame context
    | _ => calls

/-- Runs that stand level come to the same, through the same calls. -/
theorem run_level (typed : function.WellTyped)
    (given : ∀ word < function.argWords, args.getD word 0 = argsToo.getD word 0)
    (assigned : Assigned base ∅ function.ops.toList) (stands : Stands base function left right) (cache : Cache)
    (fuel : Nat) (context : Context) :
    exec cache fuel (.compiled function args left) context =
        exec cache fuel (.compiled function argsToo right) context ∧
      linkedCalls cache function args fuel left context = linkedCalls cache function argsToo fuel right context := by
  induction fuel generalizing left right context with
  | zero => exact ⟨rfl, rfl⟩
  | succ fuel ih =>
    have level : Agree (Level base function) (step (link cache (exec cache fuel)) function args left context)
        (step (link cache (exec cache fuel)) function argsToo right context) :=
      step_level typed given assigned stands context
    have position : left.position = right.position := by
      obtain ⟨known, frames, _⟩ := stands
      exact frames.position
    simp only [exec, linkedCalls, position]
    generalize step (link cache (exec cache fuel)) function args left context = first at level ⊢
    generalize step (link cache (exec cache fuel)) function argsToo right context = second at level ⊢
    cases level with
    | error halt => exact ⟨rfl, rfl⟩
    | ok level =>
      cases level with
      | done next context => exact ⟨rfl, rfl⟩
      | next after stands =>
        obtain ⟨same, calls⟩ := ih stands after
        exact ⟨same, congrArg _ calls⟩

/-- What a function comes to does not depend on what its locals hold at first, nor on arguments behind its own. -/
def Determined (function : Function) : Prop :=
  ∀ (cache : Cache) (fuel : Nat) (context : Context) (locals localsToo : Array Wide) (args argsToo : List UInt64),
    locals.size = function.locals.size → localsToo.size = function.locals.size →
      (∀ word < function.argWords, args.getD word 0 = argsToo.getD word 0) →
        exec cache fuel (.compiled function args ⟨0, locals⟩) context =
            exec cache fuel (.compiled function argsToo ⟨0, localsToo⟩) context ∧
          linkedCalls cache function args fuel ⟨0, locals⟩ context =
            linkedCalls cache function argsToo fuel ⟨0, localsToo⟩ context

/-- Typed code that reads no local before it is written is determined. -/
theorem determined_of_assigned (typed : function.WellTyped) (assigned : Assigned base ∅ function.ops.toList) :
    Determined function := by
  intro cache fuel context locals localsToo args argsToo size sizeToo given
  have frames : Frame.Matches ∅ ⟨0, locals⟩ ⟨0, localsToo⟩ := ⟨rfl, size.trans sizeToo.symm, by simp⟩
  exact run_level typed given assigned ⟨∅, frames, by simpa using assigned⟩ cache fuel context

end Interpreter
end Dynarec
