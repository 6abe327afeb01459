import Dynarec.Proofs.Interpreter.Locals

/-!
How deep linked calls nest. Code leaves the depth that it was given, on every path and whatever it calls, so that the
depth counts the calls in place that are underway: it never falls below that of the code that was run first, and never
passes the limit. At the limit, and where there is no code, a linked call gives its target back and does nothing else.
-/
namespace Dynarec

/-- The target of the linked call that code is about to make. -/
def Activation.callee? : Activation → Option UInt64
  | .compiled function _ frame =>
    match function.ops[frame.position]? with
    | some (.call _ target) => some target
    | _ => none
  | .probe (.call target) _ => some target
  | _ => none

namespace Interpreter
open Effect

/-- The code that a linked call runs and the context it runs in, if it runs any. -/
def entered? (cache : Cache) (target : UInt64) (context : Context) : Option (Activation × Context) :=
  if maxLinkDepth ≤ context.depth then none
  else (cache.get? target).map fun callee =>
    (callee.activate context.regs, { context with depth := context.depth + 1 })

/-- Code that a run comes to, by its own steps or by linked calls, with the context it runs in; the level counts the
linked calls it is nested in. -/
inductive Nests (cache : Cache) (first : Activation) (start : Context) : Nat → Activation → Context → Prop
  | start : Nests cache first start 0 first start
  | step {level fuel : Nat} {function : Ir.Function} {args : List UInt64} {frame next : Frame}
      {context after : Context} :
      Nests cache first start level (.compiled function args frame) context →
        step (link cache (exec cache fuel)) function args frame context = .ok (.next next after) →
          Nests cache first start level (.compiled function args next) after
  | enter {level : Nat} {code callee : Activation} {context inner : Context} {target : UInt64} :
      Nests cache first start level code context → code.callee? = some target →
        entered? cache target context = some (callee, inner) → Nests cache first start (level + 1) callee inner

/-- Calls that leave the depth as it is. -/
def CallsBalanced (call : UInt64 → Context → Outcome (UInt64 × Context)) : Prop :=
  ∀ target context word after, call target context = .ok (word, after) → after.depth = context.depth

variable {cache : Cache} {call : UInt64 → Context → Outcome (UInt64 × Context)} {function : Ir.Function}
  {args : List UInt64} {frame next : Frame} {context after inner : Context} {callee : Activation} {target : UInt64}

theorem entered?_eq_none :
    entered? cache target context = none ↔ maxLinkDepth ≤ context.depth ∨ cache.get? target = none := by
  unfold entered?
  split <;> simp [*]

theorem entered?_eq_some (enters : entered? cache target context = some (callee, inner)) :
    context.depth < maxLinkDepth ∧ ∃ subroutine, cache.get? target = some subroutine ∧
      callee = subroutine.activate context.regs ∧ inner = { context with depth := context.depth + 1 } := by
  unfold entered? at enters
  split at enters
  · cases enters
  · next shallow =>
    obtain ⟨subroutine, there, same⟩ := Option.map_eq_some_iff.mp enters
    cases same
    exact ⟨Nat.lt_of_not_le shallow, subroutine, there, rfl, rfl⟩

theorem link_enters (run : Activation → Context → Outcome (UInt64 × Context))
    (enters : entered? cache target context = some (callee, inner)) :
    link cache run target context = do
      let (word, after) ← run callee inner
      return (word, { after with depth := after.depth - 1 }) := by
  obtain ⟨shallow, subroutine, there, rfl, rfl⟩ := entered?_eq_some enters
  unfold link
  simp only [if_neg (Nat.not_le.mpr shallow), there]

theorem link_passes (run : Activation → Context → Outcome (UInt64 × Context))
    (passes : entered? cache target context = none) :
    ∃ after, link cache run target context = .ok (target, after) ∧ after.regs = context.regs ∧
      after.world.memory = context.world.memory ∧ after.depth = context.depth := by
  by_cases deep : maxLinkDepth ≤ context.depth
  · exact ⟨_, link_at_limit cache run target deep, rfl, rfl, rfl⟩
  · have unknown := (entered?_eq_none.mp passes).resolve_left deep
    exact ⟨context, link_unknown run (by omega) unknown, rfl, rfl, rfl⟩

theorem entered_depth (enters : entered? cache target context = some (callee, inner)) :
    inner.depth = context.depth + 1 ∧ context.depth < maxLinkDepth := by
  obtain ⟨shallow, _, _, _, rfl⟩ := entered?_eq_some enters
  exact ⟨rfl, shallow⟩

theorem load_depth {address : UInt64} {size word : Nat} (ok : context.load address size = .ok (word, after)) :
    after.depth = context.depth := by
  unfold Context.load at ok
  dsimp only at ok
  split at ok
  · cases ok
    rfl
  · cases ok

theorem assign_context {dst : Ir.Local} {wide : Wide} (ok : assign frame context dst wide = .ok (.next next after)) :
    after = context := by
  cases assign_next ok
  rfl

theorem perform_depth (calls : CallsBalanced call) {op : Ir.Op}
    (ok : perform call function args frame context op = .ok (.next next after)) : after.depth = context.depth := by
  cases op with
  | const dst value => rw [assign_context ok]
  | loadRegister dst register => rw [assign_context ok]
  | loadArg dst word =>
    obtain ⟨_, _, ok⟩ := of_bind ok
    rw [assign_context ok]
  | move dst src | unary op dst src | binaryImm op dst lhs imm | vectorExtract dst src high =>
    obtain ⟨_, _, ok⟩ := of_bind ok
    rw [assign_context ok]
  | binary op dst lhs rhs | compare cond dst lhs rhs | vector op dst lhs rhs =>
    obtain ⟨_, _, ok⟩ := of_bind ok
    obtain ⟨_, _, ok⟩ := of_bind ok
    rw [assign_context ok]
  | select dst cond yes no | vectorPack dst low high =>
    obtain ⟨_, _, ok⟩ := of_bind ok
    obtain ⟨_, _, ok⟩ := of_bind ok
    rw [assign_context ok]
  | storeRegister register src =>
    obtain ⟨_, _, ok⟩ := of_bind ok
    cases ok
    rfl
  | load width dst address =>
    obtain ⟨_, _, ok⟩ := of_bind ok
    obtain ⟨⟨_, loaded⟩, found, ok⟩ := of_bind ok
    rw [assign_context ok, load_depth found]
  | loadVector dst address =>
    obtain ⟨_, _, ok⟩ := of_bind ok
    obtain ⟨⟨_, loaded⟩, found, ok⟩ := of_bind ok
    rw [assign_context ok, load_depth found]
  | store width address src | storeVector address src =>
    obtain ⟨_, _, ok⟩ := of_bind ok
    obtain ⟨_, _, ok⟩ := of_bind ok
    cases ok
    rfl
  | cas32 dst address expected desired =>
    obtain ⟨_, _, ok⟩ := of_bind ok
    obtain ⟨_, _, ok⟩ := of_bind ok
    obtain ⟨_, _, ok⟩ := of_bind ok
    rw [assign_context ok]
  | place label | preload | spill | reload =>
    cases ok
    rfl
  | jump label =>
    obtain ⟨_, _, ok⟩ := of_bind ok
    cases ok
    rfl
  | branchIf cond label =>
    obtain ⟨_, _, ok⟩ := of_bind ok
    split at ok
    · obtain ⟨_, _, ok⟩ := of_bind ok
      cases ok
      rfl
    · cases ok
      rfl
  | call dst target =>
    obtain ⟨⟨word, middle⟩, called, ok⟩ := of_bind ok
    rw [assign_context ok]
    exact calls target context word middle called
  | ret slot =>
    obtain ⟨_, _, ok⟩ := of_bind ok
    cases ok

theorem step_depth (calls : CallsBalanced call)
    (ok : step call function args frame context = .ok (.next next after)) : after.depth = context.depth := by
  unfold step at ok
  split at ok
  · cases ok
  · exact perform_depth calls ok

theorem link_balanced {run : Activation → Context → Outcome (UInt64 × Context)}
    (runs : ∀ activation context word after, run activation context = .ok (word, after) →
      after.depth = context.depth) : CallsBalanced (link cache run) := by
  intro target context word after ok
  cases enters : entered? cache target context with
  | none =>
    obtain ⟨passed, linked, _, _, depth⟩ := link_passes run enters
    rw [linked] at ok
    cases ok
    exact depth
  | some found =>
    obtain ⟨callee, inner⟩ := found
    rw [link_enters run enters] at ok
    obtain ⟨⟨_, left⟩, ran, ok⟩ := of_bind ok
    cases ok
    have same : left.depth = inner.depth := runs callee inner _ left ran
    have deeper := (entered_depth enters).1
    change left.depth - 1 = context.depth
    omega

theorem answer_depth (calls : CallsBalanced call) {probe : Probe} {word : UInt64}
    (ok : answer cache call args context probe = .ok (word, after)) : after.depth = context.depth := by
  cases probe with
  | call target => exact calls target context word after ok
  | load address =>
    obtain ⟨⟨_, loaded⟩, found, ok⟩ := of_bind ok
    cases ok
    exact load_depth found
  | increment index =>
    obtain ⟨_, _, ok⟩ := of_bind ok
    obtain ⟨_, _, ok⟩ := of_bind ok
    cases ok
    rfl
  | const value | arg index | args | depth | known address =>
    cases ok
    rfl

theorem exec_depth (fuel : Nat) (activation : Activation) {word : UInt64}
    (ok : exec cache fuel activation context = .ok (word, after)) : after.depth = context.depth := by
  -- on the bound: the code that a step calls in place has a smaller one, and so has the code behind the step
  induction fuel generalizing activation context word after with
  | zero => cases ok
  | succ fuel ih =>
    have calls : CallsBalanced (link cache (exec cache fuel)) :=
      link_balanced fun activation _ _ _ ok => ih activation ok
    cases activation with
    | compiled function args frame =>
      rw [exec] at ok
      split at ok
      · next stepped => exact (ih _ ok).trans (step_depth calls stepped)
      · next stepped =>
        cases ok
        rw [step_done stepped]
      · cases ok
    | thunk layout host =>
      obtain ⟨⟨_, _, _⟩, _, ok⟩ := of_bind ok
      cases ok
      rfl
    | probe probe args => exact answer_depth calls ok

theorem calls_balanced (cache : Cache) (fuel : Nat) : CallsBalanced (link cache (exec cache fuel)) :=
  link_balanced fun activation _ _ _ ok => exec_depth fuel activation ok

theorem Nests.depth {first code : Activation} {start : Context} {level : Nat}
    (nests : Nests cache first start level code context) : context.depth = start.depth + level := by
  induction nests with
  | start => rfl
  | @step _ fuel _ _ _ _ _ _ _ moves ih => rw [step_depth (calls_balanced cache fuel) moves, ih]
  | enter _ _ enters ih => rw [(entered_depth enters).1, ih, Nat.add_assoc]

theorem Nests.limited {first code : Activation} {start : Context} {level : Nat}
    (nests : Nests cache first start level code context) (shallow : start.depth ≤ maxLinkDepth) :
    context.depth ≤ maxLinkDepth := by
  induction nests with
  | start => exact shallow
  | @step _ fuel _ _ _ _ _ _ _ moves ih => rwa [step_depth (calls_balanced cache fuel) moves]
  | enter _ _ enters _ =>
    obtain ⟨deeper, room⟩ := entered_depth enters
    omega

/-- All code that an invocation comes to runs between the depth of the invocation and the limit, as deep as the linked
calls it is nested in, so that those are bounded; what returns leaves the depth that it was given; and a linked call at
the limit, or to an address without code, does nothing but give its target back. -/
theorem nesting_bounded (cache : Cache) (subroutine : Subroutine) (context : Context)
    (shallow : context.depth ≤ maxLinkDepth) :
    (∀ level code inner, Nests cache (subroutine.activate context.regs) context level code inner →
      inner.depth = context.depth + level ∧ context.depth ≤ inner.depth ∧ inner.depth ≤ maxLinkDepth ∧
        level ≤ maxLinkDepth - context.depth) ∧
    (∀ fuel word after, invoke cache fuel subroutine context = .ok (word, after) → after.depth = context.depth) ∧
    (∀ target fuel here callee inner word after, entered? cache target here = some (callee, inner) →
      exec cache fuel callee inner = .ok (word, after) →
        Interpreter.call cache fuel target here = .ok (word, { after with depth := here.depth })) ∧
    ∀ target fuel here, maxLinkDepth ≤ here.depth ∨ cache.get? target = none →
      ∃ after, Interpreter.call cache fuel target here = .ok (target, after) ∧ after.regs = here.regs ∧
        after.world.memory = here.world.memory ∧ after.depth = here.depth := by
  refine ⟨fun level code inner nests => ?_, fun fuel word after ok => exec_depth fuel _ ok, ?_, ?_⟩
  · have depth := nests.depth
    have limited := nests.limited shallow
    exact ⟨depth, by omega, limited, by omega⟩
  · intro target fuel here callee inner word after enters ran
    have back := exec_depth fuel callee ran
    have below := (entered_depth enters).1
    have depth : after.depth - 1 = here.depth := by omega
    rw [Interpreter.call, link_enters _ enters, ran, ← depth]
    rfl
  · intro target fuel here refused
    exact link_passes _ (entered?_eq_none.mpr refused)

/-- Calls an address and goes on where that gets. -/
def callsOn (entry target : UInt64) : Subroutine :=
  .ofFunction entry .tier1
    { name := "on", params := [], argWords := 0, locals := #[.i64], labels := 0, ops := #[.call 0 target, .ret 0] }

/-- Two subroutines that call each other. -/
def inTurns : Cache :=
  let (first, cache) := ({} : Cache).add (callsOn 0x1000 0x2000)
  let (second, cache) := (cache.publish 0x1000 first 4).2.add (callsOn 0x2000 0x1000)
  (cache.publish 0x2000 second 4).2

theorem nesting_bounded_in_turns :
    62 ≤ maxLinkDepth ∧
      (∃ code, Nests inTurns ((callsOn 0x1000 0x2000).activate {}) { depth := 62 } 2 code { depth := 64 } ∧
        2 ≤ maxLinkDepth - 62) ∧
      (∃ after, invoke inTurns 20 (callsOn 0x1000 0x2000) { depth := 62 } = .ok (0x2000, after) ∧ after.depth = 62) ∧
      ∃ after, Interpreter.call inTurns 20 0x2000 { depth := 64 } = .ok (0x2000, after) ∧ after.regs = {} ∧
        after.world.memory = {} ∧ after.depth = 64 := by
  obtain ⟨nested, returns, _, refused⟩ :=
    nesting_bounded inTurns (callsOn 0x1000 0x2000) { depth := 62 } (by decide)
  have once : Nests inTurns ((callsOn 0x1000 0x2000).activate {}) { depth := 62 } 1
      ((callsOn 0x2000 0x1000).activate {}) { depth := 63 } := .enter .start rfl (by cbv)
  have twice : Nests inTurns ((callsOn 0x1000 0x2000).activate {}) { depth := 62 } 2
      ((callsOn 0x1000 0x2000).activate {}) { depth := 64 } := .enter once rfl (by cbv)
  have ran : invoke inTurns 20 (callsOn 0x1000 0x2000) { depth := 62 } =
      .ok (0x2000, ({ depth := 62 } : Context).note (.linkDepth 0x2000 64)) := by cbv
  exact ⟨by decide, ⟨_, twice, (nested 2 _ _ twice).2.2.2⟩, ⟨_, ran, returns 20 _ _ ran⟩,
    refused 0x2000 20 { depth := 64 } (.inl (by decide))⟩

end Interpreter
end Dynarec
