import Dynarec.Proofs.Cache.Callers
import Mathlib

/-!
Sequences of publications on a new cache. What is published at an address is the last publication there that was
taken, the caller sets tell whose published code calls whom and are dropped when they are empty, and publications at
two addresses may change places.
-/
namespace Dynarec

/-- A subroutine offered to a cache, which yields to tier-1 code there or replaces what is there. -/
structure Publication where
  address : UInt64
  handle : Handle
  sizeHint : UInt64
  yields : Bool
  deriving DecidableEq, Repr

namespace Publication

def slot (publication : Publication) : Slot := ⟨publication.handle, publication.sizeHint⟩

end Publication

namespace Cache

def take (cache : Cache) (publication : Publication) : Cache :=
  if publication.yields then
    (cache.publishTier0 publication.address publication.handle publication.sizeHint).2
  else (cache.publish publication.address publication.handle publication.sizeHint).2

/-- A new cache behind the publications, latest first. -/
def behind (subroutines : Array Subroutine) (history : List Publication) : Cache :=
  history.foldr (fun publication cache => cache.take publication) { subroutines }

def refuses (cache : Cache) (publication : Publication) : Bool :=
  publication.yields && cache.holdsTier1 publication.address

/-- No set of callers is kept empty. -/
def Pruned (callers : Std.TreeMap UInt64 (Std.TreeSet UInt64)) : Prop :=
  ∀ (callee : UInt64) (set : Std.TreeSet UInt64), callers[callee]? = some set → set.isEmpty = false

section Pruning
variable {callers : Std.TreeMap UInt64 (Std.TreeSet UInt64)}

theorem Pruned.insert (pruned : Pruned callers) {callee : UInt64} {set : Std.TreeSet UInt64}
    (filled : set.isEmpty = false) : Pruned (callers.insert callee set) := by
  intro other found there
  rw [Std.TreeMap.getElem?_insert] at there
  split at there
  · cases there
    exact filled
  · exact pruned other found there

theorem Pruned.addCaller (pruned : Pruned callers) (address callee : UInt64) :
    Pruned (addCaller callers address callee) := pruned.insert Std.TreeSet.isEmpty_insert

theorem Pruned.dropCaller (pruned : Pruned callers) (address callee : UInt64) :
    Pruned (dropCaller callers address callee) := by
  unfold Cache.dropCaller
  dsimp only
  split
  · intro other found there
    rw [Std.TreeMap.getElem?_erase] at there
    split at there
    · cases there
    · exact pruned other found there
  · next filled => exact pruned.insert (Bool.eq_false_iff.mpr filled)

theorem Pruned.relink (pruned : Pruned callers) (address : UInt64) (new old : List UInt64) :
    Pruned (relink callers address new old) := by
  have adds : ∀ callees : List UInt64, ∀ callers, Pruned callers →
      Pruned (callees.foldl (Cache.addCaller · address ·) callers) := by
    intro callees
    induction callees with
    | nil => exact fun _ pruned => pruned
    | cons callee rest ih => exact fun _ pruned => ih _ (pruned.addCaller address callee)
  have drops : ∀ callees : List UInt64, ∀ callers, Pruned callers →
      Pruned (callees.foldl (Cache.dropCaller · address ·) callers) := by
    intro callees
    induction callees with
    | nil => exact fun _ pruned => pruned
    | cons callee rest ih => exact fun _ pruned => ih _ (pruned.dropCaller address callee)
  exact drops _ _ (adds _ _ pruned)

end Pruning

/-- The caller sets tell whose published code calls whom. -/
structure Mirrors (cache : Cache) : Prop where
  callers : ∀ callee caller, caller ∈ cache.callers.getD callee ∅ ↔
    ∃ handle, cache.handle? caller = some handle ∧ callee ∈ cache.calleesOf handle
  pruned : Pruned cache.callers

variable {cache : Cache}

theorem slot?_publish (cache : Cache) (address other : UInt64) (handle : Handle) (sizeHint : UInt64) :
    (cache.publish address handle sizeHint).2.slot? other =
      if other = address then some ⟨handle, sizeHint⟩ else cache.slot? other := by
  split
  · next same =>
    rw [same, slot?_publish_self]
  · next apart => exact slot?_publish_other cache handle sizeHint apart

theorem Mirrors.publish (mirrors : cache.Mirrors) (address : UInt64) (handle : Handle) (sizeHint : UInt64) :
    (cache.publish address handle sizeHint).2.Mirrors := by
  refine ⟨?_, mirrors.pruned.relink address _ _⟩
  intro callee caller
  change caller ∈ (relink cache.callers address (cache.calleesOf handle) _).getD callee ∅ ↔
    ∃ resident, ((cache.publish address handle sizeHint).2.slot? caller).map Slot.handle = some resident ∧
      callee ∈ cache.calleesOf resident
  rw [mem_relink, mirrors.callers, slot?_publish]
  by_cases same : caller = address
  · subst same
    cases here : cache.handle? caller with
    | none => simp
    | some resident =>
      simp only [if_true, Option.map_some, Option.some.injEq, Option.getD_some, true_and]
      grind
  · simp [same, handle?]

/-- Only a publication that yields is refused, and only by tier-1 code; it changes nothing. -/
theorem publishTier0_eq (cache : Cache) (address : UInt64) (handle : Handle) (sizeHint : UInt64) :
    (cache.holdsTier1 address = true ∧ ∃ resident, cache.handle? address = some resident ∧
        cache.publishTier0 address handle sizeHint = (.error resident, cache)) ∨
      (cache.holdsTier1 address = false ∧ cache.publishTier0 address handle sizeHint =
        (.ok (cache.publish address handle sizeHint).1, (cache.publish address handle sizeHint).2)) := by
  unfold publishTier0 holdsTier1 get?
  cases here : cache.handle? address with
  | none => exact .inr ⟨rfl, rfl⟩
  | some resident =>
    dsimp only [Option.bind_some]
    split
    · next held => exact .inl ⟨held, resident, rfl, rfl⟩
    · next free => exact .inr ⟨by simpa using free, rfl⟩

theorem take_eq (cache : Cache) (publication : Publication) :
    cache.take publication = if cache.refuses publication then cache
      else (cache.publish publication.address publication.handle publication.sizeHint).2 := by
  unfold take refuses
  cases publication.yields with
  | false => rfl
  | true =>
    rcases cache.publishTier0_eq publication.address publication.handle publication.sizeHint with
      ⟨held, resident, _, kept⟩ | ⟨free, taken⟩
    · simp [held, kept]
    · simp [free, taken]

theorem Mirrors.take (mirrors : cache.Mirrors) (publication : Publication) : (cache.take publication).Mirrors := by
  rw [take_eq]
  split
  · exact mirrors
  · exact mirrors.publish ..

/-- Callers are listed in ascending order, and no empty set is behind an empty list. -/
theorem Mirrors.callersOf (mirrors : cache.Mirrors) (callee : UInt64) :
    (cache.callersOf callee).Pairwise (· < ·) ∧
      (∀ caller, caller ∈ cache.callersOf callee ↔
        ∃ subroutine, cache.get? caller = some subroutine ∧ callee ∈ subroutine.callees) ∧
      (cache.callers.contains callee = true ↔ cache.callersOf callee ≠ []) := by
  refine ⟨?_, ?_, ?_⟩
  · refine Std.TreeSet.ordered_toList.imp ?_
    intro left right before
    exact Std.compare_eq_lt.mp before
  · intro caller
    unfold Cache.callersOf
    rw [Std.TreeSet.mem_toList, mirrors.callers]
    constructor
    · rintro ⟨handle, here, calls⟩
      cases held : cache.subroutine? handle with
      | none => simp [calleesOf, held] at calls
      | some subroutine =>
        refine ⟨subroutine, ?_, by simpa [calleesOf, held] using calls⟩
        simp [get?, here, held]
    · rintro ⟨subroutine, there, calls⟩
      obtain ⟨handle, here, held⟩ := Option.bind_eq_some_iff.mp there
      exact ⟨handle, here, by simpa [calleesOf, held] using calls⟩
  · rw [Std.TreeMap.contains_eq_isSome_getElem?]
    unfold Cache.callersOf
    rw [Std.TreeMap.getD_eq_getD_getElem?]
    cases there : cache.callers[callee]? with
    | none =>
      simp only [Option.isSome_none, Bool.false_eq_true, false_iff]
      exact fun filled => filled rfl
    | some set =>
      have filled := mirrors.pruned callee set there
      simp only [Option.isSome_some, Option.getD_some, true_iff, ne_eq]
      intro none
      rw [Std.TreeSet.isEmpty_eq_false_iff_exists_mem] at filled
      obtain ⟨caller, member⟩ := filled
      rw [← Std.TreeSet.mem_toList, none] at member
      cases member

/-- The addresses with an entry, each once. -/
def residents (cache : Cache) : List UInt64 := cache.slots.keys

/-- Caches that hold the same entries with the same hints, and whose caller sets are the same. -/
structure Same (left right : Cache) : Prop where
  subroutines : left.subroutines = right.subroutines
  slots : ∀ address, left.slot? address = right.slot? address
  callers : ∀ callee, left.callersOf callee = right.callersOf callee
  callees : ∀ callee, left.callers.contains callee = right.callers.contains callee

/-- The entries decide the caller sets. -/
theorem Mirrors.same {left right : Cache} (mirrors : left.Mirrors) (mirrorsToo : right.Mirrors)
    (subroutines : left.subroutines = right.subroutines)
    (slots : ∀ address, left.slot? address = right.slot? address) : left.Same right := by
  have get : left.get? = right.get? := by
    funext address
    unfold get? handle? subroutine?
    rw [slots, subroutines]
  have callers : ∀ callee, left.callersOf callee = right.callersOf callee := by
    intro callee
    obtain ⟨sorted, members, _⟩ := mirrors.callersOf callee
    obtain ⟨sortedToo, membersToo, _⟩ := mirrorsToo.callersOf callee
    refine @List.Perm.eq_of_pairwise _ (· < ·) _ _ ?_ sorted sortedToo ?_
    · intro a b _ _ before behind
      exact absurd behind (UInt64.lt_asymm before)
    · refine (List.perm_ext_iff_of_nodup (sorted.imp UInt64.ne_of_lt) (sortedToo.imp UInt64.ne_of_lt)).mpr ?_
      intro caller
      rw [members, membersToo, get]
  refine ⟨subroutines, slots, callers, ?_⟩
  intro callee
  rw [Bool.eq_iff_iff, (mirrors.callersOf callee).2.2, (mirrorsToo.callersOf callee).2.2, callers]

end Cache
end Dynarec
