import Dynarec.Proofs.Cache.Entries

/-!
Which host functions a cache holds. Those that may be run are all it holds as long as no other is taken in.
-/
namespace Dynarec

/-- Host code runs a function that may be run. -/
def Subroutine.Admitted (admits : Calling.HostFunction → Prop) (subroutine : Subroutine) : Prop :=
  ∀ layout function, subroutine.code = .thunk layout function → admits function

variable {admits : Calling.HostFunction → Prop}

namespace Subroutine

theorem Admitted.of_code {former subroutine : Subroutine} (admitted : former.Admitted admits)
    (code : subroutine.code = former.code) : subroutine.Admitted admits :=
  fun layout function runs => admitted layout function (code.symm.trans runs)

theorem admitted_compiled {subroutine : Subroutine} {function : Ir.Function} (code : subroutine.code = .compiled function) :
    subroutine.Admitted admits := by
  intro layout host runs
  cases code.symm.trans runs

theorem admitted_thunk {address : UInt64} {function : Calling.HostFunction} {subroutine : Subroutine}
    (made : thunk address function = .ok subroutine) (admitted : admits function) : subroutine.Admitted admits := by
  unfold thunk at made
  intro layout host runs
  cases placed : Calling.Layout.ofClasses function.signature.classes <;> rw [placed] at made <;> cases made
  cases runs
  exact admitted

end Subroutine

namespace Cache

/-- All host code that is held runs functions that may be run. -/
def Admitted (admits : Calling.HostFunction → Prop) (cache : Cache) : Prop :=
  ∀ handle subroutine, cache.subroutine? handle = some subroutine → subroutine.Admitted admits

variable {cache : Cache}

theorem admitted_empty : ({} : Cache).Admitted admits := by
  intro handle subroutine held
  simp [subroutine?] at held

theorem Admitted.of_get? (admitted : cache.Admitted admits) {address : UInt64} {subroutine : Subroutine}
    (published : cache.get? address = some subroutine) : subroutine.Admitted admits := by
  obtain ⟨handle, _, held⟩ := Option.bind_eq_some_iff.mp published
  exact admitted handle subroutine held

theorem Admitted.add (admitted : cache.Admitted admits) {subroutine : Subroutine} (new : subroutine.Admitted admits) :
    (cache.add subroutine).2.Admitted admits := by
  intro handle held there
  unfold Cache.add subroutine? at there
  rw [Array.getElem?_push] at there
  split at there
  · cases there
    exact new
  · exact admitted handle held there

theorem Admitted.publish (admitted : cache.Admitted admits) (address : UInt64) (handle : Handle) (sizeHint : UInt64) :
    (cache.publish address handle sizeHint).2.Admitted admits := admitted

theorem Admitted.publishTier0 (admitted : cache.Admitted admits) (address : UInt64) (handle : Handle) (sizeHint : UInt64) :
    (cache.publishTier0 address handle sizeHint).2.Admitted admits := by
  unfold Cache.publishTier0
  split
  · split
    · exact admitted
    · exact admitted
  · exact admitted

theorem Admitted.modify (admitted : cache.Admitted admits) {handle : Handle} {change : Subroutine → Subroutine}
    (keeps : ∀ subroutine, cache.subroutine? handle = some subroutine → (change subroutine).code = subroutine.code) :
    (cache.modify handle change).Admitted admits := by
  intro other subroutine held
  unfold Cache.modify subroutine? at held
  rw [Array.getElem?_modify] at held
  split at held
  · next here =>
    subst here
    obtain ⟨former, before, rfl⟩ := Option.map_eq_some_iff.mp held
    exact (admitted handle former before).of_code (keeps former before)
  · exact admitted other subroutine held

theorem Admitted.checkPromotion (admitted : cache.Admitted admits) (handle : Handle) :
    (cache.checkPromotion handle).2.Admitted admits := by
  unfold Cache.checkPromotion
  split
  · next subroutine held =>
    refine admitted.modify fun former there => ?_
    cases held.symm.trans there
    rfl
  · exact admitted

theorem Admitted.markCaller {count : Nat} (admitted : cache.Admitted admits) (address caller : UInt64) :
    (Cache.markCaller address (count, cache) caller).2.Admitted admits := by
  unfold Cache.markCaller
  dsimp only
  split
  · split
    · exact admitted
    · exact admitted.modify fun subroutine _ => subroutine.code_markForRejit
  · exact admitted

theorem Admitted.markCallers (admitted : cache.Admitted admits) (address : UInt64) :
    (cache.markCallers address).2.Admitted admits := by
  have general : ∀ (callers : List UInt64) (marked : Nat × Cache), marked.2.Admitted admits →
      (callers.foldl (Cache.markCaller address) marked).2.Admitted admits := by
    intro callers
    induction callers with
    | nil => exact fun _ admitted => admitted
    | cons caller rest ih => exact fun (_, _) admitted => ih _ (admitted.markCaller address caller)
  exact general _ (0, cache) admitted

end Cache
end Dynarec
