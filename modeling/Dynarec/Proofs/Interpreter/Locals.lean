import Dynarec.Interpreter
import Dynarec.Proofs.Ir.Assignment
import Dynarec.Proofs.Ir.Typing
import Dynarec.Proofs.Effect
import Dynarec.Proofs.Memory.Access

/-!
What one operation does to the locals, to the registers and to where the code stands. In a typed function, locals for
words hold words throughout.
-/
namespace Dynarec
namespace Wide

theorem toNat_ofWord_lt (word : UInt64) : (ofWord word).toNat < 0x10000000000000000 := by
  rw [toNat_ofWord]
  exact word.toNat_lt

theorem toNat_bit_lt (holds : Prop) [Decidable holds] : (if holds then 1 else 0 : Wide).toNat < 0x10000000000000000 := by
  split <;> decide

end Wide

/-- A register kept in a word has no more bits than a word. -/
theorem RegisterFile.toNat_read_lt (file : RegisterFile) {register : Register}
    (narrow : Ir.LocalKind.of register = .i64) : (file.read register).toNat < 0x10000000000000000 := by
  obtain ⟨cls, index⟩ := register
  cases cls with
  | vector => cases narrow
  | integer => exact Wide.toNat_ofWord_lt _
  | flag =>
    refine (Nat.mod_le _ _).trans_lt ?_
    omega

/-- The locals for words hold words. -/
def Ir.Function.Narrow (function : Ir.Function) (locals : Array Wide) : Prop :=
  ∀ slot wide, function.Has .i64 slot → locals[slot]? = some wide → wide.toNat < 0x10000000000000000

namespace Interpreter
open Effect

/-- What there is behind an operation: the code goes on behind it or at its label, one local may be written, and
registers change by what is stored in one of them or by what is called. -/
structure Goes (call : UInt64 → Context → Outcome (UInt64 × Context)) (function : Ir.Function) (op : Ir.Op)
    (frame next : Frame) (context after : Context) : Prop where
  position : next.position = frame.position ∨
    ∃ label ∈ op.target?, function.placement? label = some next.position
  locals : next.locals = frame.locals ∨ ∃ dst wide, next.locals = frame.locals.setIfInBounds dst wide ∧
    (function.Typed op → function.Narrow frame.locals → function.Has .i64 dst → wide.toNat < 0x10000000000000000)
  regs : after.regs = context.regs ∨ (∃ register wide, after.regs = context.regs.write register wide) ∨
    ∃ target word middle, call target context = .ok (word, middle) ∧ after.regs = middle.regs

/-- What an operation comes to: the code goes on, or it ends and leaves everything as it is. -/
inductive Performs (call : UInt64 → Context → Outcome (UInt64 × Context)) (function : Ir.Function) (op : Ir.Op)
    (frame : Frame) (context : Context) : Step → Prop
  | next {next : Frame} {after : Context} : Goes call function op frame next context after →
      Performs call function op frame context (.next next after)
  | done (word : UInt64) : Performs call function op frame context (.done word context)

variable {call : UInt64 → Context → Outcome (UInt64 × Context)} {function : Ir.Function} {args : List UInt64}
  {op : Ir.Op} {frame next : Frame} {context middle after : Context} {result : Step}

theorem load_keeps {address : UInt64} {size word : Nat} (ok : context.load address size = .ok (word, after)) :
    word < 256 ^ size ∧ after.regs = context.regs := by
  obtain ⟨regs, world, depth⟩ := context
  unfold Context.load at ok
  dsimp only at ok
  split at ok
  · next found reads =>
    cases ok
    have bound : (world.memory.readNat address size).1 = .ok word := congrArg Prod.fst reads
    exact ⟨Memory.readNat_lt bound, rfl⟩
  · cases ok

theorem assign_next {dst : Ir.Local} {wide : Wide} (ok : assign frame middle dst wide = .ok result) :
    result = .next { frame with locals := frame.locals.setIfInBounds dst wide } middle := by
  obtain ⟨set, found, same⟩ := of_bind ok
  cases same
  unfold Frame.set at found
  split at found
  · cases found
    rfl
  · cases found

theorem Performs.writes {dst : Ir.Local} {wide : Wide} (ok : assign frame middle dst wide = .ok result)
    (fits : function.Typed op → function.Narrow frame.locals → function.Has .i64 dst →
      wide.toNat < 0x10000000000000000) (regs : middle.regs = context.regs) :
    Performs call function op frame context result := by
  rw [assign_next ok]
  exact .next ⟨.inl rfl, .inr ⟨dst, wide, rfl, fits⟩, .inl regs⟩

theorem Performs.writesWord {dst : Ir.Local} {word : UInt64}
    (ok : assign frame context dst (.ofWord word) = .ok result) : Performs call function op frame context result :=
  .writes ok (fun _ _ _ => Wide.toNat_ofWord_lt word) rfl

theorem Performs.jumps {label : Ir.Label} (found : frame.goto function label = .ok next)
    (target : op.target? = some label) : Performs call function op frame context (.next next context) := by
  unfold Frame.goto at found
  split at found
  · next position placed =>
    cases found
    exact .next ⟨.inr ⟨label, target, placed⟩, .inl rfl, .inl rfl⟩
  · cases found

theorem performs (ok : perform call function args frame context op = .ok result) :
    Performs call function op frame context result := by
  cases op with
  | loadArg dst word =>
    obtain ⟨wide, given, ok⟩ := of_bind ok
    refine .writes ok (fun _ _ has => ?_) rfl
    unfold argument at given
    rw [has] at given
    cases given
    exact Wide.toNat_ofWord_lt _
  | const dst value => exact .writesWord ok
  | move dst src =>
    obtain ⟨wide, found, ok⟩ := of_bind ok
    refine .writes ok (fun typed narrow has => ?_) rfl
    obtain ⟨kind, own, other⟩ := typed
    obtain rfl := own.eq has
    unfold Frame.get at found
    split at found
    · next held =>
      cases found
      exact narrow src wide other held
    · cases found
  | unary op dst src =>
    obtain ⟨_, _, ok⟩ := of_bind ok
    exact .writesWord ok
  | binaryImm op dst lhs imm =>
    obtain ⟨_, _, ok⟩ := of_bind ok
    exact .writesWord ok
  | binary op dst lhs rhs =>
    obtain ⟨_, _, ok⟩ := of_bind ok
    obtain ⟨_, _, ok⟩ := of_bind ok
    exact .writesWord ok
  | compare cond dst lhs rhs =>
    obtain ⟨_, _, ok⟩ := of_bind ok
    obtain ⟨_, _, ok⟩ := of_bind ok
    exact .writes ok (fun _ _ _ => Wide.toNat_bit_lt _) rfl
  | select dst cond yes no =>
    obtain ⟨_, _, ok⟩ := of_bind ok
    obtain ⟨_, _, ok⟩ := of_bind ok
    exact .writesWord ok
  | vector op dst lhs rhs =>
    obtain ⟨_, _, ok⟩ := of_bind ok
    obtain ⟨_, _, ok⟩ := of_bind ok
    exact .writes ok (fun typed _ has => by cases typed.1.eq has) rfl
  | vectorPack dst low high =>
    obtain ⟨_, _, ok⟩ := of_bind ok
    obtain ⟨_, _, ok⟩ := of_bind ok
    exact .writes ok (fun typed _ has => by cases typed.1.eq has) rfl
  | vectorExtract dst src high =>
    obtain ⟨_, _, ok⟩ := of_bind ok
    exact .writesWord ok
  | loadRegister dst register =>
    refine .writes ok (fun typed _ has => ?_) rfl
    exact context.regs.toNat_read_lt (typed.eq has)
  | storeRegister register src =>
    obtain ⟨wide, _, ok⟩ := of_bind ok
    cases ok
    exact .next ⟨.inl rfl, .inl rfl, .inr (.inl ⟨register, wide, rfl⟩)⟩
  | load width dst address =>
    obtain ⟨_, _, ok⟩ := of_bind ok
    obtain ⟨⟨word, loaded⟩, found, ok⟩ := of_bind ok
    obtain ⟨small, regs⟩ := load_keeps found
    refine .writes ok (fun _ _ _ => ?_) regs
    have most : 256 ^ width.bytes ≤ 0x10000000000000000 := by cases width <;> decide
    rw [BitVec.toNat_ofNat]
    exact (Nat.mod_le _ _).trans_lt (small.trans_le most)
  | store width address src =>
    obtain ⟨_, _, ok⟩ := of_bind ok
    obtain ⟨_, _, ok⟩ := of_bind ok
    cases ok
    exact .next ⟨.inl rfl, .inl rfl, .inl rfl⟩
  | loadVector dst address =>
    obtain ⟨_, _, ok⟩ := of_bind ok
    obtain ⟨⟨word, loaded⟩, found, ok⟩ := of_bind ok
    exact .writes ok (fun typed _ has => by cases typed.1.eq has) (load_keeps found).2
  | storeVector address src =>
    obtain ⟨_, _, ok⟩ := of_bind ok
    obtain ⟨_, _, ok⟩ := of_bind ok
    cases ok
    exact .next ⟨.inl rfl, .inl rfl, .inl rfl⟩
  | cas32 dst address expected desired =>
    obtain ⟨_, _, ok⟩ := of_bind ok
    obtain ⟨_, _, ok⟩ := of_bind ok
    obtain ⟨_, _, ok⟩ := of_bind ok
    exact .writes ok (fun _ _ _ => Wide.toNat_bit_lt _) rfl
  | place _ | preload | spill | reload =>
    cases ok
    exact .next ⟨.inl rfl, .inl rfl, .inl rfl⟩
  | jump label =>
    obtain ⟨reached, found, ok⟩ := of_bind ok
    cases ok
    exact .jumps found rfl
  | branchIf cond label =>
    obtain ⟨word, _, ok⟩ := of_bind ok
    split at ok
    · obtain ⟨reached, found, ok⟩ := of_bind ok
      cases ok
      exact .jumps found rfl
    · cases ok
      exact .next ⟨.inl rfl, .inl rfl, .inl rfl⟩
  | call dst target =>
    obtain ⟨⟨word, middle⟩, called, ok⟩ := of_bind ok
    rw [assign_next ok]
    exact .next ⟨.inl rfl, .inr ⟨dst, _, rfl, fun _ _ _ => Wide.toNat_ofWord_lt word⟩,
      .inr (.inr ⟨target, word, _, called, rfl⟩)⟩
  | ret slot =>
    obtain ⟨word, _, ok⟩ := of_bind ok
    cases ok
    exact .done word

theorem goes_perform (ok : perform call function args frame context op = .ok (.next next after)) :
    Goes call function op frame next context after := by
  cases performs ok with
  | next goes => exact goes

/-- Code that ends leaves everything as it is. -/
theorem step_done {word : UInt64} (ok : step call function args frame context = .ok (.done word after)) :
    after = context := by
  unfold step at ok
  split at ok
  · cases ok
    rfl
  · cases performs ok with
    | done => rfl

theorem goes_step (ok : step call function args frame context = .ok (.next next after)) :
    ∃ op, function.ops[frame.position]? = some op ∧
      Goes call function op { frame with position := frame.position + 1 } next context after := by
  unfold step at ok
  split at ok
  · cases ok
  · next op here => exact ⟨op, here, goes_perform ok⟩

theorem narrow_step (typed : ∀ op ∈ function.ops.toList, function.Typed op)
    (ok : step call function args frame context = .ok (.next next after)) (narrow : function.Narrow frame.locals) :
    function.Narrow next.locals := by
  obtain ⟨op, here, goes⟩ := goes_step ok
  have member : op ∈ function.ops.toList := List.mem_of_getElem? (by rwa [Array.getElem?_toList])
  obtain same | ⟨dst, wide, written, fits⟩ := goes.locals
  · rwa [same]
  · rw [written]
    intro slot held has there
    rw [Array.getElem?_setIfInBounds] at there
    split at there
    · next same =>
      subst same
      split at there
      · cases there
        exact fits (typed op member) narrow has
      · cases there
    · exact narrow slot held has there

/-- Where code gets by its own steps, the calls in place among them. -/
inductive Visits (cache : Cache) (function : Ir.Function) (args : List UInt64) (first : Frame) (start : Context) :
    Frame → Context → Prop
  | start : Visits cache function args first start first start
  | step {fuel : Nat} {frame next : Frame} {context after : Context} :
      Visits cache function args first start frame context →
        step (link cache (exec cache fuel)) function args frame context = .ok (.next next after) →
          Visits cache function args first start next after

/-- In a typed function the locals for words hold words throughout, if they did at first. -/
theorem Visits.narrow {cache : Cache} {first : Frame} {start : Context}
    (visits : Visits cache function args first start frame context)
    (typed : ∀ op ∈ function.ops.toList, function.Typed op) (narrow : function.Narrow first.locals) :
    function.Narrow frame.locals := by
  induction visits with
  | start => exact narrow
  | step _ moves ih => exact narrow_step typed moves ih

theorem narrow_start (function : Ir.Function) : function.Narrow (Frame.start function).locals := by
  intro slot wide _ held
  obtain ⟨_, rfl⟩ := Array.getElem?_eq_some_iff.mp held
  simp [Frame.start]

end Interpreter
end Dynarec
