import Dynarec.Proofs.Cache.Entries

/-!
Callers that could call an address in place and do not. Marking the callers of an address counts just these, and
what else is done to the cache between two notices leaves them as they are.
-/
namespace Dynarec
namespace Cache

/-- Whether an address has code that goes elsewhere to call `address`. -/
def lags (cache : Cache) (address caller : UInt64) : Bool :=
  caller != address && (cache.get? caller).any fun subroutine => !subroutine.linksTo address

/-- The callers of an address, but for itself, that do not call it in place. -/
def lagging (cache : Cache) (address : UInt64) : List UInt64 := (cache.callersOf address).filter (cache.lags address)

theorem get?_modify (cache : Cache) (handle : Handle) (change : Subroutine → Subroutine) (other : UInt64) :
    (cache.modify handle change).get? other =
      if cache.handle? other = some handle then (cache.get? other).map change else cache.get? other := by
  have handles : (cache.modify handle change).handle? other = cache.handle? other := rfl
  unfold get?
  rw [handles]
  cases there : cache.handle? other with
  | none => simp
  | some found =>
    by_cases same : handle = found
    · simp [same, subroutine?, Cache.modify, Array.getElem?_modify]
    · simp [Ne.symm same, subroutine?, Cache.modify, Array.getElem?_modify, same]

theorem lags_modify (cache : Cache) (handle : Handle) {change : Subroutine → Subroutine} (address caller : UInt64)
    (links : ∀ subroutine, cache.get? caller = some subroutine → cache.handle? caller = some handle →
      (change subroutine).linksTo address = subroutine.linksTo address) :
    (cache.modify handle change).lags address caller = cache.lags address caller := by
  unfold lags
  rw [get?_modify]
  split
  · next here =>
    cases found : cache.get? caller with
    | none => rfl
    | some subroutine => simp [links subroutine found here]
  · rfl

theorem markCaller_eq (cache : Cache) (address caller : UInt64) (count : Nat) :
    markCaller address (count, cache) caller = if cache.lags address caller then
      (count + 1, ((cache.handle? caller).map fun handle => cache.modify handle Subroutine.markForRejit).getD cache)
      else (count, cache) := by
  unfold markCaller lags
  dsimp only
  cases here : cache.handle? caller with
  | none => simp [get?, here]
  | some handle =>
    cases found : cache.get? caller with
    | none => simp
    | some subroutine =>
      by_cases same : caller = address <;> cases links : subroutine.linksTo address <;> simp [same, links]

theorem lags_markCaller (cache : Cache) (address caller other : UInt64) (count : Nat) :
    (markCaller address (count, cache) caller).2.lags address other = cache.lags address other := by
  rw [markCaller_eq]
  split
  · cases cache.handle? caller with
    | none => rfl
    | some handle => exact cache.lags_modify handle address other fun subroutine _ _ => by simp
  · rfl

theorem count_markCallers (cache : Cache) (address : UInt64) :
    (cache.markCallers address).1 = (cache.lagging address).length := by
  have general : ∀ (callers : List UInt64) (count : Nat) (cache : Cache),
      (callers.foldl (markCaller address) (count, cache)).1 =
        count + (callers.filter (cache.lags address)).length := by
    intro callers
    induction callers with
    | nil => simp
    | cons caller rest ih =>
      intro count cache
      have first := markCaller_eq cache address caller count
      -- marking one caller leaves what it links to, so the callers after it lag as they did before
      have same : (markCaller address (count, cache) caller).2.lags address = cache.lags address :=
        funext fun other => cache.lags_markCaller address caller other count
      rw [List.foldl_cons]
      generalize markCaller address (count, cache) caller = marked at first same ⊢
      obtain ⟨more, next⟩ := marked
      rw [ih, same, List.filter_cons]
      split at first
      · next lags =>
        cases first
        rw [if_pos lags, List.length_cons]
        omega
      · next keeps =>
        cases first
        rw [if_neg keeps]
  simpa [markCallers, lagging] using general (cache.callersOf address) 0 cache

theorem callersOf_checkPromotion (cache : Cache) (handle : Handle) :
    (cache.checkPromotion handle).2.callersOf = cache.callersOf := by
  unfold checkPromotion
  split <;> rfl

theorem lagging_checkPromotion (cache : Cache) (handle : Handle) (address : UInt64) :
    (cache.checkPromotion handle).2.lagging address = cache.lagging address := by
  have same : (cache.checkPromotion handle).2.lags address = cache.lags address := by
    funext caller
    unfold checkPromotion
    split
    · next subroutine held =>
      refine cache.lags_modify handle address caller fun found published here => ?_
      unfold get? at published
      rw [here, Option.bind_some, held] at published
      cases published
      rfl
    · rfl
  unfold lagging
  rw [same, callersOf_checkPromotion]

variable {cache : Cache} {entries : Entries}

theorem Shows.lags (shown : cache.Shows entries) (address caller : UInt64) : cache.lags address caller = true ↔
    caller ≠ address ∧ ∃ subroutine, entries caller = some subroutine ∧ subroutine.linksTo address = false := by
  unfold Cache.lags
  rw [shown.entries]
  cases entries caller <;> simp

theorem Shows.mem_lagging (shown : cache.Shows entries) (address caller : UInt64) :
    caller ∈ cache.lagging address ↔ ∃ subroutine, entries caller = some subroutine ∧
      address ∈ subroutine.callees ∧ caller ≠ address ∧ subroutine.linksTo address = false := by
  unfold lagging
  rw [List.mem_filter, mem_callersOf, shown.callers, shown.lags]
  constructor
  · rintro ⟨⟨subroutine, published, calls⟩, apart, found, same, unlinked⟩
    obtain rfl : subroutine = found := Option.some.inj (published.symm.trans same)
    exact ⟨subroutine, published, calls, apart, unlinked⟩
  · rintro ⟨subroutine, published, calls, apart, unlinked⟩
    exact ⟨⟨subroutine, published, calls⟩, apart, subroutine, published, unlinked⟩

theorem nodup_lagging (cache : Cache) (address : UInt64) : (cache.lagging address).Nodup := by
  have distinct : (cache.callersOf address).Nodup := by
    refine Std.TreeSet.distinct_toList.imp fun apart same => ?_
    rw [same] at apart
    exact apart Std.ReflCmp.compare_self
  exact List.Pairwise.filter _ distinct

theorem Shows.length_lagging (shown : cache.Shows entries) {after : Cache} {address : UInt64} {subroutine : Subroutine}
    (put : after.Shows (entries.put address subroutine)) :
    (after.lagging address).length = (cache.lagging address).length := by
  refine List.Perm.length_eq ((List.perm_ext_iff_of_nodup (after.nodup_lagging address)
    (cache.nodup_lagging address)).mpr fun caller => ?_)
  rw [put.mem_lagging, shown.mem_lagging]
  by_cases same : caller = address
  · simp [same]
  · rw [entries.put_other same]

end Cache
end Dynarec
