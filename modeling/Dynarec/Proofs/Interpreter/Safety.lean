import Dynarec.Proofs.Interpreter.Locals
import Dynarec.Proofs.Ir.Placement

/-!
Validated code runs safely. Wherever it gets, it stands at an operation whose locals are all in its frame; a jump leads
to the one position of its label; nothing stops it but a read that passes the top of memory or what stops a call in
place; and it comes to its end only by a return.
-/
namespace Dynarec
namespace Ir.Op

/-- Whether an operation reads memory. -/
def loads : Op → Bool
  | .load _ _ _ | .loadVector _ _ => true
  | _ => false

end Ir.Op

namespace Ir.Function

/-- Argument words can be numbered with 32 bits, also the second one of a vector. -/
def SlotsFit (function : Function) : Prop :=
  ∀ dst slot, .loadArg dst slot ∈ function.ops.toList → slot < 0xffffffff

end Ir.Function

namespace Interpreter
open Ir

variable {call : UInt64 → Context → Outcome (UInt64 × Context)} {function : Function} {args : List UInt64}
  {op : Op} {frame next : Frame} {context after : Context} {slot : Local} {label : Label}

/-- The label at which an operation goes on, if it does not go on behind itself. -/
def jumpsTo? (frame : Frame) : Op → Option Label
  | .jump label => some label
  | .branchIf cond label => if frame.word cond = .ok 0 then none else some label
  | _ => none

/-- What an operation comes to in a frame that has its locals and already stands behind it. -/
inductive Carried (call : UInt64 → Context → Outcome (UInt64 × Context)) (function : Function) (op : Op)
    (frame : Frame) (context : Context) : Outcome Step → Prop
  | behind {next : Frame} (after : Context) : jumpsTo? frame op = none → op.isTerminator = false →
      next.locals.size = frame.locals.size → next.position = frame.position →
        Carried call function op frame context (.ok (.next next after))
  | jump {label : Label} {position : Nat} : jumpsTo? frame op = some label →
      function.placement? label = some position →
        Carried call function op frame context (.ok (.next { frame with position } context))
  | ret {slot : Local} {word : UInt64} : op = .ret slot → frame.word slot = .ok word →
      Carried call function op frame context (.ok (.done word context))
  | overflow : op.loads = true → Carried call function op frame context (.error .overflow)
  | called {dst : Local} {target : UInt64} {halt : Halt} : op = .call dst target →
      call target context = .error halt → Carried call function op frame context (.error halt)

theorem Carried.get {rest : Wide → Outcome Step} (bound : slot < frame.locals.size)
    (follows : ∀ wide, Carried call function op frame context (rest wide)) :
    Carried call function op frame context (frame.get slot >>= rest) := by
  have found : frame.get slot = .ok frame.locals[slot] := by
    simp only [Frame.get, Array.getElem?_eq_getElem bound]
  rw [found]
  exact follows _

theorem Carried.word {rest : UInt64 → Outcome Step} (bound : slot < frame.locals.size)
    (follows : ∀ word, frame.word slot = .ok word → Carried call function op frame context (rest word)) :
    Carried call function op frame context (frame.word slot >>= rest) := by
  have found : frame.word slot = .ok frame.locals[slot].low := by
    simp only [Frame.word, Frame.get, Array.getElem?_eq_getElem bound]
    rfl
  rw [found]
  exact follows _ found

theorem Carried.assign (bound : slot < frame.locals.size) (straight : jumpsTo? frame op = none)
    (goesOn : op.isTerminator = false) (after : Context) (wide : Wide) :
    Carried call function op frame context (assign frame after slot wide) := by
  unfold Interpreter.assign Frame.set
  rw [if_pos bound]
  exact .behind after straight goesOn (by simp) rfl

theorem Carried.goto (placed : ∃ position, function.placement? label = some position)
    (jumps : jumpsTo? frame op = some label) :
    Carried call function op frame context (do return .next (← frame.goto function label) context) := by
  obtain ⟨position, placed⟩ := placed
  simp only [Frame.goto, placed]
  exact .jump jumps placed

theorem load_ok_or_overflow (context : Context) (address : UInt64) (size : Nat) :
    (∃ word after, context.load address size = .ok (word, after)) ∨ context.load address size = .error .overflow := by
  obtain ⟨regs, world, depth⟩ := context
  unfold Context.load
  dsimp only
  split
  · exact .inl ⟨_, _, rfl⟩
  · exact .inr rfl

theorem Carried.load {address : UInt64} {size : Nat} {rest : Nat × Context → Outcome Step} (loads : op.loads = true)
    (follows : ∀ word after, Carried call function op frame context (rest (word, after))) :
    Carried call function op frame context (context.load address size >>= rest) := by
  obtain ⟨word, after, found⟩ | stops := load_ok_or_overflow context address size
  · rw [found]
    exact follows word after
  · rw [stops]
    exact .overflow loads

theorem argument_defined (args : List UInt64) (bound : slot < function.locals.size) {word : Nat}
    (fits : word < 0xffffffff) : ∃ wide, argument function args slot word = .ok wide := by
  unfold argument
  rw [Array.getElem?_eq_getElem bound]
  cases function.locals[slot] with
  | i64 => exact ⟨_, rfl⟩
  | v128 => exact ⟨_, if_pos (by omega)⟩

/-- An operation whose locals are in the frame and whose label is placed is carried out. -/
theorem carried (size : frame.locals.size = function.locals.size) (knows : function.Knows op)
    (placed : ∀ label < function.labels, ∃ position, function.placement? label = some position)
    (fits : ∀ dst word, op = .loadArg dst word → word < 0xffffffff) :
    Carried call function op frame context (perform call function args frame context op) := by
  have bounds : ∀ slot ∈ op.locals, slot < frame.locals.size := by
    rw [size]
    exact knows.locals
  have targets := knows.targets
  cases op <;> simp only [Op.locals, List.mem_cons, List.not_mem_nil, or_false, forall_eq_or_imp, forall_eq] at bounds
  case loadArg dst word =>
    obtain ⟨wide, given⟩ := argument_defined args (size ▸ bounds) (fits dst word rfl)
    simp only [perform, given]
    exact .assign bounds rfl rfl _ _
  case const dst value => exact .assign bounds rfl rfl _ _
  case loadRegister dst register => exact .assign bounds rfl rfl _ _
  case move dst src => exact .get bounds.2 fun _ => .assign bounds.1 rfl rfl _ _
  case unary op dst src => exact .word bounds.2 fun _ _ => .assign bounds.1 rfl rfl _ _
  case binaryImm op dst lhs imm => exact .word bounds.2 fun _ _ => .assign bounds.1 rfl rfl _ _
  case vectorExtract dst src high => exact .get bounds.2 fun _ => .assign bounds.1 rfl rfl _ _
  case binary op dst lhs rhs =>
    exact .word bounds.2.1 fun _ _ => .word bounds.2.2 fun _ _ => .assign bounds.1 rfl rfl _ _
  case compare cond dst lhs rhs =>
    exact .word bounds.2.1 fun _ _ => .word bounds.2.2 fun _ _ => .assign bounds.1 rfl rfl _ _
  case vectorPack dst low high =>
    exact .word bounds.2.1 fun _ _ => .word bounds.2.2 fun _ _ => .assign bounds.1 rfl rfl _ _
  case vector op dst lhs rhs =>
    exact .get bounds.2.1 fun _ => .get bounds.2.2 fun _ => .assign bounds.1 rfl rfl _ _
  case select dst cond yes no =>
    obtain ⟨dstBound, condBound, yesBound, noBound⟩ := bounds
    refine .word condBound fun word _ => ?_
    have picked : (if word ≠ 0 then yes else no) < frame.locals.size := by split <;> assumption
    exact .word picked fun _ _ => .assign dstBound rfl rfl _ _
  case storeRegister register src => exact .get bounds fun _ => .behind _ rfl rfl rfl rfl
  case load width dst address =>
    exact .word bounds.2 fun _ _ => .load rfl fun _ _ => .assign bounds.1 rfl rfl _ _
  case loadVector dst address =>
    exact .word bounds.2 fun _ _ => .load rfl fun _ _ => .assign bounds.1 rfl rfl _ _
  case store width address src =>
    exact .word bounds.1 fun _ _ => .word bounds.2 fun _ _ => .behind _ rfl rfl rfl rfl
  case storeVector address src =>
    exact .word bounds.1 fun _ _ => .get bounds.2 fun _ => .behind _ rfl rfl rfl rfl
  case cas32 dst address expected desired =>
    obtain ⟨dstBound, addressBound, expectedBound, desiredBound⟩ := bounds
    exact .word addressBound fun _ _ => .word expectedBound fun _ _ => .word desiredBound fun _ _ =>
      .assign dstBound rfl rfl _ _
  case place label => exact .behind _ rfl rfl rfl rfl
  case jump label => exact .goto (placed label (targets label rfl)) rfl
  case branchIf cond label =>
    refine .word bounds fun word held => ?_
    by_cases taken : word = 0
    · rw [if_neg (not_not_intro taken)]
      exact .behind _ (by simp [jumpsTo?, held, taken]) rfl rfl rfl
    · rw [if_pos taken]
      exact .goto (placed label (targets label rfl)) (by simp [jumpsTo?, held, taken])
  case call dst target =>
    cases called : call target context with
    | error halt =>
      simp only [perform, called]
      exact .called rfl called
    | ok found =>
      simp only [perform, called]
      exact .assign bounds rfl rfl _ _
  case ret slot => exact .word bounds fun _ held => .ret rfl held
  case preload => exact absurd knows.expanded (by decide)
  case spill => exact absurd knows.expanded (by decide)
  case reload => exact absurd knows.expanded (by decide)

/-- Where validated code stands: inside the function, with all its locals. -/
structure Standing (function : Function) (frame : Frame) : Prop where
  size : frame.locals.size = function.locals.size
  inside : frame.position < function.ops.size

theorem standing_start (wellFormed : function.WellFormed) : Standing function (.start function) := by
  refine ⟨by simp [Frame.start], ?_⟩
  by_contra empty
  have none : function.ops = #[] := Array.size_eq_zero_iff.mp (by simpa [Frame.start] using empty)
  simpa [none] using wellFormed.closed

theorem behind_inside (wellFormed : function.WellFormed) {position : Nat}
    (here : function.ops[position]? = some op) (goesOn : op.isTerminator = false) :
    position + 1 < function.ops.size := by
  obtain ⟨bound, same⟩ := Array.getElem?_eq_some_iff.mp here
  by_contra last
  have back : function.ops.back? = some op := by
    rw [Array.back?_eq_getElem?, ← here]
    congr 1
    omega
  have closed := wellFormed.closed
  rw [back, Option.any_some, goesOn] at closed
  cases closed

theorem carried_step (call : UInt64 → Context → Outcome (UInt64 × Context)) (args : List UInt64) (context : Context)
    (wellFormed : function.WellFormed) (fits : function.SlotsFit) (standing : Standing function frame)
    (here : function.ops[frame.position]? = some op) :
    Carried call function op { frame with position := frame.position + 1 } context
      (step call function args frame context) := by
  have member : op ∈ function.ops.toList := Function.mem_ops_iff.mpr ⟨frame.position, here⟩
  unfold step
  rw [here]
  refine carried standing.size (wellFormed.knows op member) ?_ ?_
  · intro label known
    obtain ⟨position, placed, _⟩ := wellFormed.placement known
    exact ⟨position, placed⟩
  · rintro dst word rfl
    exact fits dst word member

theorem Standing.step (wellFormed : function.WellFormed) (fits : function.SlotsFit) (standing : Standing function frame)
    (moves : step call function args frame context = .ok (.next next after)) : Standing function next := by
  have here := Array.getElem?_eq_getElem standing.inside
  have carried := carried_step call args context wellFormed fits standing here
  rw [moves] at carried
  cases carried with
  | behind _ _ goesOn size position =>
    refine ⟨size.trans standing.size, ?_⟩
    rw [position]
    exact behind_inside wellFormed here goesOn
  | jump _ placed =>
    exact ⟨standing.size, (Array.getElem?_eq_some_iff.mp (Function.place_of_placement placed)).1⟩

theorem Visits.standing {cache : Cache} {start : Context} (wellFormed : function.WellFormed) (fits : function.SlotsFit)
    (visits : Visits cache function args (.start function) start frame context) : Standing function frame := by
  induction visits with
  | start => exact standing_start wellFormed
  | step _ moves ih => exact ih.step wellFormed fits moves

/-- A run that has a result came to a return and has its local's word. -/
theorem exec_returns {cache : Cache} {first : Frame} {start : Context} (wellFormed : function.WellFormed)
    (fits : function.SlotsFit) (fuel : Nat) {word : UInt64} (standing : Standing function frame)
    (visits : Visits cache function args first start frame context)
    (ends : exec cache fuel (.compiled function args frame) context = .ok (word, after)) :
    ∃ last slot, Visits cache function args first start last after ∧
      function.ops[last.position]? = some (.ret slot) ∧ last.word slot = .ok word := by
  induction fuel generalizing frame context with
  | zero => cases ends
  | succ fuel ih =>
    rw [exec] at ends
    split at ends
    · next moves => exact ih (standing.step wellFormed fits moves) (visits.step moves) ends
    · next left stops =>
      cases ends
      have here := Array.getElem?_eq_getElem standing.inside
      have carried := carried_step (link cache (exec cache fuel)) args context wellFormed fits standing here
      rw [stops] at carried
      cases carried with
      | ret returns held =>
        rw [returns] at here
        exact ⟨frame, _, visits, here, held⟩
    · cases ends

/-- What holds where code stands at an operation: its locals are in the frame and its label is placed once; the code goes
on at the place of that label or behind the operation; it ends at a return alone; and nothing else stops it than a read
that passes the top of memory, or what stops the code it calls. -/
structure Safe (function : Function) (args : List UInt64) (frame : Frame) (context : Context) (op : Op) : Prop where
  here : function.ops[frame.position]? = some op
  locals : ∀ slot ∈ op.locals, slot < frame.locals.size
  labels : ∀ label ∈ op.target?, label < function.labels ∧ ∃! position : Nat, function.ops[position]? = some (.place label)
  goes : ∀ call next after, step call function args frame context = .ok (.next next after) →
    match jumpsTo? frame op with
    | some label => function.ops[next.position]? = some (.place label)
    | none => next.position = frame.position + 1
  ends : ∀ call word after, step call function args frame context = .ok (.done word after) →
    ∃ slot, op = .ret slot ∧ frame.word slot = .ok word
  stops : ∀ call halt, step call function args frame context = .error halt →
    (halt = .overflow ∧ op.loads = true) ∨ ∃ dst target, op = .call dst target ∧ call target context = .error halt

theorem safe_of_standing (wellFormed : function.WellFormed) (fits : function.SlotsFit)
    (standing : Standing function frame) (args : List UInt64) (context : Context) :
    ∃ op, Safe function args frame context op := by
  obtain ⟨op, here⟩ : ∃ op, function.ops[frame.position]? = some op := ⟨_, Array.getElem?_eq_getElem standing.inside⟩
  have knows : function.Knows op := wellFormed.knows op (Function.mem_ops_iff.mpr ⟨frame.position, here⟩)
  have same : jumpsTo? { frame with position := frame.position + 1 } op = jumpsTo? frame op := by
    cases op <;> rfl
  have carried := fun call => carried_step call args context wellFormed fits standing here
  refine ⟨op, here, standing.size ▸ knows.locals, ?_, ?_, ?_, ?_⟩
  · intro label target
    obtain ⟨position, _, place, only⟩ := wellFormed.placement (knows.targets label target)
    exact ⟨knows.targets label target, position, place, only⟩
  · intro call next after moves
    have reached := carried call
    rw [moves] at reached
    cases reached with
    | behind _ straight _ _ position =>
      rw [← same, straight]
      exact position
    | jump jumps placed =>
      rw [← same, jumps]
      exact Function.place_of_placement placed
  · intro call word after moves
    have reached := carried call
    rw [moves] at reached
    cases reached with
    | ret returns held => exact ⟨_, returns, held⟩
  · intro call halt moves
    have reached := carried call
    rw [moves] at reached
    cases reached with
    | overflow loads => exact .inl ⟨rfl, loads⟩
    | called calls failed => exact .inr ⟨_, _, calls, failed⟩

/-- The check passes exactly the functions without placeholders that name their own locals and labels, place each label
once and end in a jump or a return. Such a function is safe wherever it gets, and comes to a result by a return alone. -/
theorem validate_runs (function : Function) :
    (function.validate = .ok () ↔
      (∀ op ∈ function.ops.toList, op ≠ .preload ∧ op ≠ .spill ∧ op ≠ .reload) ∧
      (∀ op ∈ function.ops.toList, ∀ slot ∈ op.locals, slot < function.locals.size) ∧
      (∀ op ∈ function.ops.toList, ∀ label,
        op = .place label ∨ op = .jump label ∨ (∃ cond, op = .branchIf cond label) → label < function.labels) ∧
      (∀ label < function.labels, ∃! position : Nat, function.ops[position]? = some (.place label)) ∧
      ((∃ label, function.ops.back? = some (.jump label)) ∨ ∃ next, function.ops.back? = some (.ret next))) ∧
    (function.validate = .ok () → function.SlotsFit → ∀ (cache : Cache) (args : List UInt64) (start : Context),
      (∀ frame context, Visits cache function args (.start function) start frame context →
        ∃ op, Safe function args frame context op) ∧
      ∀ fuel word after, exec cache fuel (.compiled function args (.start function)) start = .ok (word, after) →
        ∃ last slot, Visits cache function args (.start function) start last after ∧
          function.ops[last.position]? = some (.ret slot) ∧ last.word slot = .ok word) := by
  refine ⟨Function.validate_iff_placed, fun valid fits cache args start => ?_⟩
  have wellFormed : function.WellFormed := (Function.validate_iff function).mp valid
  constructor
  · intro frame context visits
    exact safe_of_standing wellFormed fits (visits.standing wellFormed fits) args context
  · intro fuel word after ends
    exact exec_returns wellFormed fits fuel (standing_start wellFormed) .start ends

/-- Counts its argument down to zero and returns a constant. -/
def countsDown : Function where
  name := "count"
  params := [.ofNat .integer 0]
  argWords := 1
  locals := #[.i64, .i64]
  labels := 1
  ops := #[.loadArg 0 0, .place 0, .binaryImm .sub 0 0 1, .branchIf 0 0, .const 1 0x40, .ret 1]

theorem validate_runs_counting : countsDown.validate = .ok () ∧ countsDown.SlotsFit ∧
    exec {} 20 (.compiled countsDown [3] (.start countsDown)) {} = .ok (0x40, {}) ∧
      ∃ last slot, Visits {} countsDown [3] (.start countsDown) {} last {} ∧
        countsDown.ops[last.position]? = some (.ret slot) ∧ last.word slot = .ok 0x40 := by
  have valid : countsDown.validate = .ok () := by decide
  have fits : countsDown.SlotsFit := by
    intro dst slot member
    simp [countsDown] at member
    omega
  have ran : exec {} 20 (.compiled countsDown [3] (.start countsDown)) {} = .ok (0x40, {}) := by cbv
  exact ⟨valid, fits, ran, ((validate_runs countsDown).2 valid fits {} [3] {}).2 20 0x40 {} ran⟩

end Interpreter
end Dynarec
