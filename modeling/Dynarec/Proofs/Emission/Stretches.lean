import Dynarec.Proofs.Emission.Growth

/-!
Code as a row of stretches, each the code of one instruction or of none. The spans of such a row follow each other, hold
exactly the code of the instructions, and leave out all else; expansion takes the row to the row of what its stretches
expand to, and its spans to the spans of that.
-/
namespace Dynarec
open Ir

/-- Operations that stand together, with the instruction they are code of, if they are code of one. -/
structure Stretch where
  owner : Option Guest.Instruction
  ops : List Op

def Span.holds (span : Span) (position : Nat) : Bool := span.start ≤ position && position < span.stop

/-- The operations in none of the spans, where the first operation stands at `start`. -/
def uncovered (spans : List Span) (start : Nat) (ops : List Op) : List Op :=
  ((ops.zipIdx start).filter fun entry => !spans.any (·.holds entry.2)).map Prod.fst

namespace Stretch

def code (row : List Stretch) : List Op := row.flatMap Stretch.ops

/-- The spans of the instructions, where the first stretch begins at `start`. -/
def spans : Nat → List Stretch → List Span
  | _, [] => []
  | start, ⟨none, ops⟩ :: rest => spans (start + ops.length) rest
  | start, ⟨some instruction, ops⟩ :: rest =>
    ⟨instruction.form.key, instruction.address, start, start + ops.length⟩ :: spans (start + ops.length) rest

def owners (row : List Stretch) : List Guest.Instruction := row.filterMap Stretch.owner

/-- The code of each instruction. -/
def bodies (row : List Stretch) : List (List Op) := row.filterMap fun stretch => stretch.owner.map fun _ => stretch.ops

/-- The code of no instruction. -/
def gaps (row : List Stretch) : List Op := row.flatMap fun stretch => stretch.owner.elim stretch.ops fun _ => []

def expand (bindings : List Binding) (stretch : Stretch) : Stretch :=
  { stretch with ops := Expansion.expand bindings stretch.ops }

variable {row : List Stretch} {start : Nat} {span : Span}

@[simp] theorem owners_append (row more : List Stretch) : owners (row ++ more) = owners row ++ owners more :=
  List.filterMap_append

@[simp] theorem bodies_append (row more : List Stretch) : bodies (row ++ more) = bodies row ++ bodies more :=
  List.filterMap_append

@[simp] theorem gaps_append (row more : List Stretch) : gaps (row ++ more) = gaps row ++ gaps more :=
  List.flatMap_append

@[simp] theorem parts_nil : owners [] = [] ∧ bodies [] = [] ∧ gaps [] = [] := ⟨rfl, rfl, rfl⟩

@[simp] theorem owners_cons_none (ops : List Op) (rest : List Stretch) : owners (⟨none, ops⟩ :: rest) = owners rest := rfl

@[simp] theorem bodies_cons_none (ops : List Op) (rest : List Stretch) : bodies (⟨none, ops⟩ :: rest) = bodies rest := rfl

@[simp] theorem gaps_cons_none (ops : List Op) (rest : List Stretch) : gaps (⟨none, ops⟩ :: rest) = ops ++ gaps rest :=
  rfl

theorem spans_append (start : Nat) (row more : List Stretch) :
    spans start (row ++ more) = spans start row ++ spans (start + (code row).length) more := by
  induction row generalizing start with
  | nil => rfl
  | cons stretch rest ih =>
    obtain ⟨_ | instruction, ops⟩ := stretch <;> simp [spans, code, ih, Nat.add_assoc]

theorem map_spans (start : Nat) (row : List Stretch) :
    (spans start row).map (fun span => (span.key, span.address)) =
      (owners row).map fun instruction => (instruction.form.key, instruction.address) := by
  induction row generalizing start with
  | nil => rfl
  | cons stretch rest ih =>
    obtain ⟨_ | instruction, ops⟩ := stretch
    · exact ih (start + ops.length)
    · exact congrArg _ (ih (start + ops.length))

/-- Spans lie within the row. -/
theorem within_of_mem_spans (member : span ∈ spans start row) :
    start ≤ span.start ∧ span.start ≤ span.stop ∧ span.stop ≤ start + (code row).length := by
  induction row generalizing start with
  | nil => cases member
  | cons stretch rest ih =>
    obtain ⟨owner, ops⟩ := stretch
    have total : (code (⟨owner, ops⟩ :: rest)).length = ops.length + (code rest).length := by simp [code]
    have behind : span ∈ spans (start + ops.length) rest →
        start ≤ span.start ∧ span.start ≤ span.stop ∧ span.stop ≤ start + (code (⟨owner, ops⟩ :: rest)).length := by
      intro later
      obtain ⟨early, ordered, late⟩ := ih later
      exact ⟨by omega, ordered, by omega⟩
    cases owner with
    | none => exact behind member
    | some instruction =>
      rcases List.mem_cons.mp member with rfl | later
      · exact ⟨le_rfl, Nat.le_add_right _ _, by dsimp only; omega⟩
      · exact behind later

/-- Each span ends before the next one begins. -/
theorem pairwise_spans (start : Nat) (row : List Stretch) :
    (spans start row).Pairwise fun span next => span.stop ≤ next.start := by
  induction row generalizing start with
  | nil => exact .nil
  | cons stretch rest ih =>
    obtain ⟨_ | instruction, ops⟩ := stretch
    · exact ih _
    · exact .cons (fun next later => (within_of_mem_spans later).1) (ih _)

/-- A span holds the code of its instruction. -/
theorem extract_spans (front : List Op) (row : List Stretch) :
    List.Forall₂ (fun span body => (front ++ code row).extract span.start span.stop = body)
      (spans front.length row) (bodies row) := by
  induction row generalizing front with
  | nil => exact .nil
  | cons stretch rest ih =>
    obtain ⟨owner, ops⟩ := stretch
    have behind := ih (front ++ ops)
    rw [List.append_assoc, List.length_append] at behind
    cases owner with
    | none => exact behind
    | some instruction =>
      refine .cons ?_ behind
      have shape : front ++ code (⟨some instruction, ops⟩ :: rest) = front ++ (ops ++ code rest) := rfl
      rw [shape]
      simp

/-- No span holds the code of no instruction, and spans hold all else. -/
theorem uncovered_code (start : Nat) (row : List Stretch) :
    uncovered (spans start row) start (code row) = gaps row := by
  induction row generalizing start with
  | nil => rfl
  | cons stretch rest ih =>
    obtain ⟨owner, ops⟩ := stretch
    have split : code (⟨owner, ops⟩ :: rest) = ops ++ code rest := rfl
    have first : ∀ entry ∈ ops.zipIdx start, start ≤ entry.2 ∧ entry.2 < start + ops.length := by
      rintro ⟨op, position⟩ member
      exact ⟨List.le_snd_of_mem_zipIdx member, List.snd_lt_add_of_mem_zipIdx member⟩
    have ahead : ∀ entry ∈ ops.zipIdx start, (spans (start + ops.length) rest).any (·.holds entry.2) = false := by
      intro entry member
      refine List.any_eq_false.mpr fun span later => ?_
      have early := (first entry member).2
      have late := (within_of_mem_spans later).1
      simp only [Span.holds, Bool.and_eq_true, decide_eq_true_eq]
      omega
    have others := ih (start + ops.length)
    unfold uncovered at others ⊢
    rw [split, List.zipIdx_append, List.filter_append, List.map_append]
    cases owner with
    | none =>
      have all : (ops.zipIdx start).filter (fun entry => !(spans start (⟨none, ops⟩ :: rest)).any (·.holds entry.2)) =
          ops.zipIdx start := List.filter_eq_self.mpr fun entry member => by
        rw [spans, ahead entry member]
        rfl
      rw [all, spans, others]
      simp [gaps]
    | some instruction =>
      have none : (ops.zipIdx start).filter (fun entry =>
          !(spans start (⟨some instruction, ops⟩ :: rest)).any (·.holds entry.2)) = [] :=
        List.filter_eq_nil_iff.mpr fun entry member => by
          obtain ⟨early, late⟩ := first entry member
          simp [spans, Span.holds, early, late]
      have same : ((code rest).zipIdx (start + ops.length)).filter (fun entry =>
          !(spans start (⟨some instruction, ops⟩ :: rest)).any (·.holds entry.2)) =
            ((code rest).zipIdx (start + ops.length)).filter fun entry =>
              !(spans (start + ops.length) rest).any (·.holds entry.2) := by
        refine List.filter_congr fun entry member => ?_
        have late : start + ops.length ≤ entry.2 := List.le_snd_of_mem_zipIdx member
        simp [spans, Span.holds, Nat.not_lt.mpr late]
      rw [none, same, others]
      simp [gaps]

section Expansion
variable (bindings : List Binding)

theorem code_expand (row : List Stretch) :
    code (row.map (expand bindings)) = Expansion.expand bindings (code row) := by
  induction row with
  | nil => rfl
  | cons stretch rest ih =>
    have split : code (stretch :: rest) = stretch.ops ++ code rest := rfl
    rw [split, Expansion.expand_append, ← ih]
    rfl

theorem bodies_expand (row : List Stretch) :
    bodies (row.map (expand bindings)) = (bodies row).map (Expansion.expand bindings) := by
  unfold bodies
  rw [List.filterMap_map, List.map_filterMap]
  refine List.filterMap_congr fun stretch _ => ?_
  cases owner : stretch.owner <;> simp [expand, owner]

theorem gaps_expand (row : List Stretch) :
    gaps (row.map (expand bindings)) = Expansion.expand bindings (gaps row) := by
  induction row with
  | nil => rfl
  | cons stretch rest ih =>
    obtain ⟨owner, ops⟩ := stretch
    have split : gaps (⟨owner, ops⟩ :: rest) = (owner.elim ops fun _ => []) ++ gaps rest := rfl
    rw [split, Expansion.expand_append, ← ih]
    cases owner <;> rfl

/-- Spans that are carried over to where their ends expand to are the spans of the expanded row. -/
theorem spans_expand (front : List Op) (row : List Stretch) :
    (spans front.length row).map (fun span => { span with
        start := (Expansion.expand bindings ((front ++ code row).take span.start)).length
        stop := (Expansion.expand bindings ((front ++ code row).take span.stop)).length }) =
      spans (Expansion.expand bindings front).length (row.map (expand bindings)) := by
  induction row generalizing front with
  | nil => rfl
  | cons stretch rest ih =>
    obtain ⟨owner, ops⟩ := stretch
    have split : front ++ code (⟨owner, ops⟩ :: rest) = (front ++ ops) ++ code rest := by simp [code]
    have others := ih (front ++ ops)
    rw [List.length_append, Expansion.expand_append, List.length_append] at others
    rw [split]
    cases owner with
    | none => exact others
    | some instruction =>
      have early : ((front ++ ops) ++ code rest).take front.length = front := by simp
      have late : ((front ++ ops) ++ code rest).take (front.length + ops.length) = front ++ ops := by
        rw [← List.length_append, List.take_left]
      rw [spans, List.map_cons, early, late, others, Expansion.expand_append, List.length_append]
      rfl

end Expansion
end Stretch
end Dynarec
