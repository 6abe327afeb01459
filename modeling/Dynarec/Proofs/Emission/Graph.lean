import Dynarec.Proofs.Emission.Instruction

/-!
The code of blocks: for each its label, the code of its instructions, and the way on where control falls out.
-/
namespace Dynarec
namespace Emission
open Ir

theorem CodeOf.mono {before after : Emission} {instruction : Guest.Instruction} {added : List Op}
    (code : before.CodeOf instruction added) (grown : Extends before after) : after.CodeOf instruction added := by
  have binds : ∀ register slot, before.Binds register slot → after.Binds register slot :=
    fun _ _ bound => bound.mono grown
  have scratch : ∀ slot, before.Scratch slot → after.Scratch slot := fun _ free => free.mono grown
  have continues : ∀ target code, before.Continues target code → after.Continues target code :=
    fun _ _ goes => goes.mono grown
  have continuesIf : ∀ cond target code, before.ContinuesIf cond target code → after.ContinuesIf cond target code :=
    fun _ _ _ goes => goes.mono grown
  have calls : ∀ target back code, before.CallsInPlace target back code → after.CallsInPlace target back code :=
    fun _ _ _ goes => goes.mono grown
  unfold CodeOf at code ⊢
  rw [grown.tier, grown.linkable]
  cases form : instruction.form <;> simp only [form] at code ⊢ <;> grind

theorem CodeOf.plain {emission : Emission} {instruction : Guest.Instruction} {added : List Op}
    (code : emission.CodeOf instruction added) (sequential : instruction.endsBlock = false) :
    ∀ op ∈ added, op.isTerminator = false := by
  unfold CodeOf at code
  unfold Guest.Instruction.endsBlock at sequential
  cases form : instruction.form <;> simp only [form] at code sequential
  all_goals first
    | exact absurd sequential (by decide)
    | grind [Op.isTerminator]

/-- Operations that stand in a prologue alone. -/
def Entering : Op → Prop
  | .preload | .loadArg _ _ => True
  | _ => False

theorem Continues.inner {emission : Emission} {target : UInt64} {added : List Op}
    (goes : emission.Continues target added) : ∀ op ∈ added, ¬ Entering op := by
  rcases goes with ⟨label, _, rfl⟩ | ⟨_, next, _, rfl⟩ <;> simp [Entering]

theorem ContinuesIf.inner {emission : Emission} {cond : Local} {target : UInt64} {added : List Op}
    (goes : emission.ContinuesIf cond target added) : ∀ op ∈ added, ¬ Entering op := by
  rcases goes with ⟨label, _, rfl⟩ | ⟨_, nought, untaken, next, skip, _, _, _, rfl⟩ <;> simp [Entering]

/-- No instruction takes an argument or loads the registers anew. -/
theorem CodeOf.inner {emission : Emission} {instruction : Guest.Instruction} {added : List Op}
    (code : emission.CodeOf instruction added) : ∀ op ∈ added, ¬ Entering op := by
  unfold CodeOf at code
  cases form : instruction.form <;> simp only [form] at code
  case b =>
    obtain ⟨target, _, goes⟩ := code
    exact goes.inner
  case bEq =>
    obtain ⟨flag, target, _, _, goes⟩ := code
    exact goes.inner
  case cbnz =>
    obtain ⟨value, target, _, _, goes⟩ := code
    exact goes.inner
  case bl =>
    obtain ⟨link, target, rest, _, _, rfl, goes⟩ := code
    refine List.forall_mem_cons.mpr ⟨id, ?_⟩
    split at goes
    · obtain ⟨_, _, _, _, behind, _, _, _, _, _, goes, rfl⟩ := goes
      exact List.forall_mem_append.mpr ⟨by simp [Entering], goes.inner⟩
    · exact goes.inner
  all_goals grind [Entering]

theorem Continues.last {emission : Emission} {target : UInt64} {added : List Op}
    (goes : emission.Continues target added) : added.getLast?.map Op.isTerminator = some true := by
  rcases goes with ⟨label, _, rfl⟩ | ⟨_, next, _, rfl⟩ <;> rfl

theorem ContinuesIf.last {emission : Emission} {cond : Local} {target : UInt64} {added : List Op}
    (goes : emission.ContinuesIf cond target added) : added.getLast?.map Op.isTerminator = some false := by
  rcases goes with ⟨label, _, rfl⟩ | ⟨_, nought, untaken, next, skip, _, _, _, rfl⟩ <;> rfl

theorem CallsInPlace.last {emission : Emission} {target back : UInt64} {added : List Op}
    (calls : emission.CallsInPlace target back added) : added.getLast?.map Op.isTerminator = some true := by
  obtain ⟨_, _, _, _, rest, _, _, _, _, _, goes, rfl⟩ := calls
  have last := goes.last
  rw [List.getLast?_append]
  cases ending : rest.getLast? with
  | none => simp [ending] at last
  | some op => simpa [ending] using last

theorem CodeOf.last {emission : Emission} {instruction : Guest.Instruction} {added : List Op}
    (code : emission.CodeOf instruction added) (ends : instruction.endsBlock = true) :
    added.getLast?.map Op.isTerminator = some (!instruction.fallsOut) := by
  unfold CodeOf at code
  unfold Guest.Instruction.endsBlock at ends
  unfold Guest.Instruction.fallsOut
  cases form : instruction.form <;> simp only [form] at code ends ⊢
  case b =>
    obtain ⟨target, _, goes⟩ := code
    exact goes.last
  case bEq =>
    obtain ⟨flag, target, _, _, goes⟩ := code
    exact goes.last
  case cbnz =>
    obtain ⟨value, target, _, _, goes⟩ := code
    exact goes.last
  case bl =>
    obtain ⟨link, target, rest, _, _, rfl, goes⟩ := code
    have last : rest.getLast?.map Op.isTerminator = some true := by
      split at goes
      · exact goes.last
      · exact goes.last
    obtain ⟨op, ending, closed⟩ := Option.map_eq_some_iff.mp last
    rw [List.getLast?_cons, ending]
    exact congrArg some closed
  case ret =>
    obtain ⟨next, _, rfl⟩ := code
    rfl
  all_goals exact absurd ends (by decide)

/-- The operations `added` are code of a block. -/
def BlockCode (emission : Emission) (block : Guest.Block) (added : List Op) : Prop :=
  ∃ label front last bodies final rest, emission.blockLabel? block.address = some label ∧
    block.instructions = front ++ [last] ∧ List.Forall₂ emission.CodeOf front bodies ∧
      emission.CodeOf last final ∧ added = .place label :: (bodies.flatten ++ (final ++ rest)) ∧
        ((last.fallsOut = true ∧ emission.Continues block.last rest) ∨ (last.fallsOut = false ∧ rest = []))

/-- The operations `added` are code of a block wherever its instructions transfer control: behind them the code goes
on at what follows the block, unless it has ended. -/
def BlockShape (emission : Emission) (block : Guest.Block) (added : List Op) : Prop :=
  ∃ label bodies rest, emission.blockLabel? block.address = some label ∧
    List.Forall₂ emission.CodeOf block.instructions bodies ∧ added = .place label :: (bodies.flatten ++ rest) ∧
      if (Op.place label :: bodies.flatten).getLast?.any Op.isTerminator = true then rest = []
      else emission.Continues block.last rest

theorem BlockShape.mono {before after : Emission} {block : Guest.Block} {added : List Op}
    (shape : before.BlockShape block added) (grown : Extends before after) : after.BlockShape block added := by
  obtain ⟨label, bodies, rest, found, body, code, way⟩ := shape
  refine ⟨label, bodies, rest, ?_, body.imp fun _ _ code => code.mono grown, code, ?_⟩
  · simpa [blockLabel?, grown.blockLabels] using found
  · split at way
    · rwa [if_pos ‹_›]
    · rw [if_neg ‹_›]
      exact way.mono grown

/-- Control never falls out of the code of a block. -/
theorem BlockShape.last {emission : Emission} {block : Guest.Block} {added : List Op}
    (shape : emission.BlockShape block added) : added.getLast?.any Op.isTerminator = true := by
  obtain ⟨label, bodies, rest, _, _, rfl, way⟩ := shape
  split at way
  · next ended =>
    subst way
    rwa [List.append_nil]
  · obtain ⟨op, found, terminator⟩ := Option.map_eq_some_iff.mp way.last
    rw [← List.cons_append, List.getLast?_append, found]
    exact terminator

theorem BlockShape.inner {emission : Emission} {block : Guest.Block} {added : List Op}
    (shape : emission.BlockShape block added) : ∀ op ∈ added, ¬ Entering op := by
  obtain ⟨label, bodies, rest, _, body, rfl, way⟩ := shape
  have inside : ∀ op ∈ bodies.flatten, ¬ Entering op := by
    clear way
    generalize block.instructions = instructions at body
    induction body with
    | nil => simp
    | cons code _ ih => exact List.forall_mem_append.mpr ⟨code.inner, ih⟩
  have last : ∀ op ∈ rest, ¬ Entering op := by
    split at way
    · simp [way]
    · exact way.inner
  exact List.forall_mem_cons.mpr ⟨id, List.forall_mem_append.mpr ⟨inside, last⟩⟩

theorem plain_of_sequential {emission : Emission} {instructions : List Guest.Instruction} {bodies : List (List Op)}
    (body : List.Forall₂ emission.CodeOf instructions bodies)
    (sequential : ∀ instruction ∈ instructions, instruction.endsBlock = false) :
    ∀ op ∈ bodies.flatten, op.isTerminator = false := by
  induction body with
  | nil => simp
  | cons code _ ih =>
    intro op member
    rw [List.flatten_cons] at member
    rcases List.mem_append.mp member with inside | later
    · exact code.plain (sequential _ (by simp)) op inside
    · exact ih (fun instruction inside => sequential instruction (by simp [inside])) op later

/-- Behind the code of straight instructions control goes on where the last of them lets it. -/
theorem terminator_last {emission : Emission} {last : Guest.Instruction} {before final : List Op}
    (nonempty : before ≠ []) (plain : ∀ op ∈ before, op.isTerminator = false) (code : emission.CodeOf last final) :
    (before ++ final).getLast?.any Op.isTerminator = !last.fallsOut := by
  by_cases ends : last.endsBlock = true
  · obtain ⟨op, ending, closed⟩ := Option.map_eq_some_iff.mp (code.last ends)
    rw [List.getLast?_append, ending]
    exact closed
  · have sequential : last.endsBlock = false := by simpa using ends
    have falls : last.fallsOut = true := by
      unfold Guest.Instruction.endsBlock Guest.Flow.endsBlock at sequential
      unfold Guest.Instruction.fallsOut
      cases flow : last.form.flow <;> simp_all
    have all : ∀ op ∈ before ++ final, op.isTerminator = false := by
      intro op member
      rcases List.mem_append.mp member with early | late
      · exact plain op early
      · exact code.plain sequential op late
    obtain ⟨op, ending⟩ : ∃ op, (before ++ final).getLast? = some op :=
      ⟨_, List.getLast?_eq_some_getLast (by simp [nonempty])⟩
    rw [ending, falls]
    exact all op (List.mem_of_getLast? ending)

/-- Where the last instruction alone transfers control, it decides whether control falls out. -/
theorem BlockShape.code {emission : Emission} {block : Guest.Block} {added : List Op}
    (shape : emission.BlockShape block added) (straight : block.Straight) : emission.BlockCode block added := by
  obtain ⟨label, bodies, rest, found, body, rfl, way⟩ := shape
  obtain ⟨front, last, split⟩ : ∃ front last, block.instructions = front ++ [last] :=
    ⟨_, _, (List.dropLast_append_getLast straight.nonempty).symm⟩
  have sequential : ∀ instruction ∈ front, instruction.endsBlock = false := by
    simpa [split] using straight.sequential
  rw [split] at body
  obtain ⟨early, final, rfl, bodyCode, finalCode⟩ : ∃ early final, bodies = early ++ [final] ∧
      List.Forall₂ emission.CodeOf front early ∧ emission.CodeOf last final := by
    have behind := (List.forall₂_drop_append bodies front [last] body.flip).flip
    obtain ⟨final, others, code, none, same⟩ := List.forall₂_cons_left_iff.mp behind
    obtain rfl := List.forall₂_nil_left_iff.mp none
    refine ⟨bodies.take front.length, final, ?_, (List.forall₂_take_append bodies front [last] body.flip).flip, code⟩
    rw [← same, List.take_append_drop]
  have plain : ∀ op ∈ Op.place label :: early.flatten, op.isTerminator = false := by
    intro op member
    rcases List.mem_cons.mp member with rfl | inside
    · rfl
    · exact plain_of_sequential bodyCode sequential op inside
  have ending := terminator_last (by simp) plain finalCode
  have joined : (early ++ [final]).flatten = early.flatten ++ final := by simp
  rw [joined, ← List.cons_append, ending] at way
  refine ⟨label, front, last, early, final, rest, found, split, bodyCode, finalCode, by simp, ?_⟩
  cases falls : last.fallsOut with
  | true => exact .inl ⟨rfl, by simpa [falls] using way⟩
  | false => exact .inr ⟨rfl, by simpa [falls] using way⟩

/-- Emission of instructions one after the other, with the operations that each of them has appended. -/
inductive Appends : Emission → List Guest.Instruction → List (List Op) → Emission → Prop
  | nil {emission : Emission} : Appends emission [] [] emission
  | cons {before middle after : Emission} {instruction : Guest.Instruction} {rest : List Guest.Instruction}
      {body : List Op} {bodies : List (List Op)} :
      (Emit.instruction instruction).run (before.beginSpan instruction) = (.ok (), middle) →
        middle.ops.toList = before.ops.toList ++ body → Appends middle.endSpan rest bodies after →
          Appends before (instruction :: rest) (body :: bodies) after

/-- What is emitted for a block: its label, the code of its instructions, and the way on behind them. -/
structure Portion where
  label : Label
  bodies : List (List Op)
  exit : List Op

def Portion.code (portion : Portion) : List Op := .place portion.label :: (portion.bodies.flatten ++ portion.exit)

/-- Emission of a block, with what was emitted for it. -/
inductive Fills (before : Emission) (block : Guest.Block) (portion : Portion) (after : Emission) : Prop
  | mk {filled : Emission} : before.blockLabel? block.address = some portion.label →
      Appends (before.emit (.place portion.label)) block.instructions portion.bodies filled →
        after = (if filled.isTerminated then filled else filled.branch block.last) →
          after.ops.toList = filled.ops.toList ++ portion.exit → Fills before block portion after

/-- Emission of blocks one after the other, with what was emitted for each of them. -/
inductive Composes : Emission → List Guest.Block → List Portion → Emission → Prop
  | nil {emission : Emission} : Composes emission [] [] emission
  | cons {before middle after : Emission} {block : Guest.Block} {blocks : List Guest.Block} {portion : Portion}
      {portions : List Portion} : Fills before block portion middle → Composes middle blocks portions after →
        Composes before (block :: blocks) (portion :: portions) after

/-- The way on behind a block: none, or code that goes on at what follows the block. -/
def Exits (emission : Emission) (block : Guest.Block) (portion : Portion) : Prop :=
  portion.exit = [] ∨ emission.Continues block.last portion.exit

theorem Exits.mono {before after : Emission} {block : Guest.Block} {portion : Portion}
    (exits : before.Exits block portion) (grown : Extends before after) : after.Exits block portion :=
  exits.imp_right fun goes => goes.mono grown

@[simp] theorem ops_endSpan (emission : Emission) : emission.endSpan.ops = emission.ops := by
  unfold endSpan
  split <;> rfl

/-- `after` is `before` with code added that places the labels `given` beside those it has made. -/
structure Places (before after : Emission) (added : List Op) (given : List Label) : Prop
    extends Extends before after where
  appended : after.ops.toList = before.ops.toList ++ added
  fits : ∀ op ∈ added, after.Fits op
  placed : (added.filterMap Op.placed?).Perm
    (given ++ List.range' before.labels (after.labels - before.labels))
  allotted : after.Allotted

theorem Adds.places {before after : Emission} {added : List Op} (adds : Adds before after added) :
    Places before after added [] :=
  { adds.toExtends with
    appended := adds.appended
    fits := adds.fits
    placed := by rw [adds.placed, List.nil_append]
    allotted := adds.allotted }

theorem Places.trans {first second third : Emission} {front back : List Op} {early late : List Label}
    (left : Places first second front early) (right : Places second third back late) :
    Places first third (front ++ back) (early ++ late) := by
  have middle := left.labels
  have last := right.labels
  refine
    { left.toExtends.trans right.toExtends with
      appended := by rw [right.appended, left.appended, List.append_assoc]
      fits := ?_
      placed := ?_
      allotted := right.allotted }
  · intro op member
    rcases List.mem_append.mp member with inside | inside
    · exact (left.fits op inside).mono right.toExtends
    · exact right.fits op inside
  · have seam : first.labels + (second.labels - first.labels) = second.labels := by omega
    have total : third.labels - first.labels =
        second.labels - first.labels + (third.labels - second.labels) := by omega
    rw [List.filterMap_append, total, List.range'_append_1.symm, seam]
    refine (left.placed.append right.placed).trans ?_
    rw [List.append_assoc, List.append_assoc]
    refine List.Perm.append_left early ?_
    rw [← List.append_assoc, ← List.append_assoc]
    exact List.Perm.append_right _ List.perm_append_comm

theorem places_place {emission : Emission} (sound : emission.Allotted) (label : Label) :
    Places emission (emission.emit (.place label)) [.place label] [label] where
  tier := rfl
  name := rfl
  params := rfl
  linkable := rfl
  blockLabels := rfl
  ops := by simp [emit]
  locals := List.prefix_rfl
  labels := Nat.le_refl _
  bindings := ⟨[], by simp [emit]⟩
  appended := by simp [emit]
  fits := by simp [Fits, Op.locals, Op.target?]
  placed := by simp [Op.placed?, emit]
  allotted := ⟨sound.kinds, sound.registers, sound.slots, sound.targets⟩

end Emission

namespace Emit
open Ir Emission Effect

theorem emits_spanned {emission : Emission} (sound : emission.Allotted) {instruction : Guest.Instruction}
    (named : instruction.Named) :
    ∃ middle added, (Emit.instruction instruction).run (emission.beginSpan instruction) = (.ok (), middle) ∧
      Emits (spanned instruction) emission () middle.endSpan added ∧ middle.endSpan.CodeOf instruction added := by
  have opens := adds_aside sound emission.argWords emission.callees emission.linked emission.spans
    (some ⟨instruction.form.key, instruction.address, emission.ops.size⟩)
  obtain ⟨middle, added, emits, code⟩ := emits_instruction opens.allotted named
  have closes : Adds middle (endSpan middle) [] := by
    unfold endSpan
    split
    · exact .refl emits.2.allotted
    · exact adds_aside emits.2.allotted middle.argWords middle.callees middle.linked _ none
  have whole : Emits (spanned instruction) emission () (endSpan middle) ([] ++ (added ++ [])) :=
    Emits.bind ⟨rfl, opens⟩ (emits.bind ⟨rfl, closes⟩)
  exact ⟨middle, added, emits.1, by simpa using whole, code.mono closes.toExtends⟩

theorem emits_body {emission : Emission} (sound : emission.Allotted) {instructions : List Guest.Instruction}
    (named : ∀ instruction ∈ instructions, instruction.Named) :
    ∃ after bodies, Emits (instructions.forM spanned) emission () after bodies.flatten ∧
      List.Forall₂ after.CodeOf instructions bodies ∧ Appends emission instructions bodies after := by
  induction instructions generalizing emission with
  | nil => exact ⟨emission, [], ⟨rfl, .refl sound⟩, .nil, .nil⟩
  | cons instruction rest ih =>
    obtain ⟨middle, added, ran, emits, code⟩ := emits_spanned sound (named instruction (by simp))
    obtain ⟨after, bodies, later, codes, appends⟩ :=
      ih emits.2.allotted fun other member => named other (by simp [member])
    have appended := emits.2.appended
    rw [ops_endSpan] at appended
    refine ⟨after, added :: bodies, ?_, .cons (code.mono later.2.toExtends) codes, .cons ran appended appends⟩
    exact emits.bind later

/-- Where control falls out of a block the code goes on at what follows it. -/
theorem adds_onward {emission : Emission} (sound : emission.Allotted) (target : UInt64) :
    ∃ rest, Adds emission (if emission.isTerminated then emission else emission.branch target) rest ∧
      if emission.isTerminated = true then rest = []
      else (if emission.isTerminated then emission else emission.branch target).Continues target rest := by
  split
  · exact ⟨[], .refl sound, rfl⟩
  · obtain ⟨rest, adds, goes, _⟩ := adds_branch sound target
    exact ⟨rest, adds, goes⟩

theorem emits_block {emission : Emission} (sound : emission.Allotted) {block : Guest.Block}
    (named : ∀ instruction ∈ block.instructions, instruction.Named) {label : Label}
    (found : emission.blockLabel? block.address = some label) :
    ∃ after portion, (Emit.block block).run emission = (.ok (), after) ∧ Places emission after portion.code [label] ∧
      after.BlockShape block portion.code ∧ Fills emission block portion after ∧ after.Exits block portion := by
  have marks := places_place sound label
  obtain ⟨middle, bodies, body, bodyCode, appends⟩ := emits_body marks.allotted named
  have ops : middle.ops.toList = emission.ops.toList ++ (.place label :: bodies.flatten) := by
    rw [body.2.appended, marks.appended]
    simp
  have terminated : middle.isTerminated = (Op.place label :: bodies.flatten).getLast?.any Op.isTerminator := by
    obtain ⟨op, last⟩ : ∃ op, (Op.place label :: bodies.flatten).getLast? = some op :=
      ⟨_, List.getLast?_eq_some_getLast (by simp)⟩
    rw [isTerminated, ← Array.getLast?_toList, ops, List.getLast?_append, last]
    rfl
  obtain ⟨rest, adds, way⟩ := adds_onward body.2.allotted block.last
  have fills : Fills emission block ⟨label, bodies, rest⟩ _ := .mk found appends rfl adds.appended
  have exits : Exits (if middle.isTerminated then middle else middle.branch block.last) block
      ⟨label, bodies, rest⟩ := by
    by_cases ended : middle.isTerminated = true
    · exact .inl (by rwa [if_pos ended] at way)
    · exact .inr (by rwa [if_neg ended] at way)
  rw [terminated] at adds way fills exits
  have grown := marks.trans (body.2.places.trans adds.places)
  refine ⟨_, ⟨label, bodies, rest⟩, ?_, grown, ⟨label, bodies, rest, ?_, ?_, rfl, way⟩, fills, exits⟩
  · rw [Emit.block, run_bind, run_modify]
    simp only [found]
    rw [run_bind, body.1]
    dsimp only
    rw [run_modify, terminated]
  · simpa [blockLabel?, grown.blockLabels] using found
  · exact bodyCode.imp fun _ _ code => code.mono adds.toExtends

theorem emits_blocks {emission : Emission} (sound : emission.Allotted) {blocks : List Guest.Block}
    (named : ∀ block ∈ blocks, ∀ instruction ∈ block.instructions, instruction.Named) (labelOf : UInt64 → Label)
    (found : ∀ block ∈ blocks, emission.blockLabel? block.address = some (labelOf block.address)) :
    ∃ after portions, (blocks.forM Emit.block).run emission = (.ok (), after) ∧
      Places emission after (portions.map Portion.code).flatten (blocks.map fun block => labelOf block.address) ∧
        List.Forall₂ after.BlockShape blocks (portions.map Portion.code) ∧ Composes emission blocks portions after ∧
          List.Forall₂ after.Exits blocks portions := by
  induction blocks generalizing emission with
  | nil => exact ⟨emission, [], rfl, (Adds.refl sound).places, .nil, .nil, .nil⟩
  | cons block blocks ih =>
    obtain ⟨middle, portion, ran, places, code, fills, exits⟩ :=
      emits_block sound (named block (by simp)) (found block (by simp))
    have kept : ∀ other ∈ blocks, middle.blockLabel? other.address = some (labelOf other.address) := by
      intro other member
      simpa [blockLabel?, places.blockLabels] using found other (by simp [member])
    obtain ⟨after, portions, later, rest, others, composes, ways⟩ :=
      ih places.allotted (fun other member => named other (by simp [member])) kept
    refine ⟨after, portion :: portions, ?_, places.trans rest, .cons (code.mono rest.toExtends) others,
      .cons fills composes, .cons (exits.mono rest.toExtends) ways⟩
    change (Emit.block block >>= fun _ => blocks.forM Emit.block).run emission = _
    rw [run_bind, ran]
    exact later

end Emit

end Dynarec
