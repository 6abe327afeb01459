import Dynarec.Proofs.Cache.Callers
import Mathlib.Logic.Function.Basic

/-!
A cache as it is seen from the addresses: the subroutine published at each. The handles stay inside it, no two
addresses share one, and the caller sets tell exactly whose code calls whom.
-/
namespace Dynarec

/-- What is published at each address. -/
abbrev Entries := UInt64 → Option Subroutine

/-- A caller's code once it could call `address` in place. -/
def Subroutine.notified (address caller : UInt64) (subroutine : Subroutine) : Subroutine :=
  if address ∈ subroutine.callees ∧ caller ≠ address ∧ subroutine.linksTo address = false then
    subroutine.markForRejit
  else subroutine

namespace Entries

def put (entries : Entries) (address : UInt64) (subroutine : Subroutine) : Entries :=
  Function.update entries address (some subroutine)

def contains (entries : Entries) (address : UInt64) : Bool := (entries address).isSome

def holdsTier1 (entries : Entries) (address : UInt64) : Bool := (entries address).any (·.tier == .tier1)

/-- Marks the callers of an address that could now call it in place. -/
def notify (entries : Entries) (address : UInt64) : Entries := fun caller =>
  (entries caller).map (Subroutine.notified address caller)

@[simp] theorem put_self (entries : Entries) (address : UInt64) (subroutine : Subroutine) :
    entries.put address subroutine address = some subroutine := Function.update_self ..

theorem put_other (entries : Entries) {address other : UInt64} (apart : other ≠ address) (subroutine : Subroutine) :
    entries.put address subroutine other = entries other := Function.update_of_ne apart ..

@[simp] theorem put_put (entries : Entries) (address : UInt64) (former subroutine : Subroutine) :
    (entries.put address former).put address subroutine = entries.put address subroutine :=
  Function.update_idem ..

theorem put_published (entries : Entries) {address : UInt64} {subroutine : Subroutine}
    (published : entries address = some subroutine) : entries.put address subroutine = entries := by
  unfold put
  rw [← published]
  exact Function.update_eq_self address entries

theorem holdsTier1_iff (entries : Entries) (address : UInt64) :
    entries.holdsTier1 address = true ↔ ∃ subroutine, entries address = some subroutine ∧ subroutine.tier = .tier1 := by
  unfold holdsTier1
  cases entries address with
  | none => simp
  | some subroutine => simp

end Entries

namespace Cache

structure Shows (cache : Cache) (entries : Entries) : Prop where
  known : ∀ address handle, cache.handle? address = some handle → handle < cache.subroutines.size
  apart : ∀ left right handle, cache.handle? left = some handle → cache.handle? right = some handle → left = right
  callers : ∀ callee caller, caller ∈ cache.callers.getD callee ∅ ↔
    ∃ subroutine, entries caller = some subroutine ∧ callee ∈ subroutine.callees
  entries : ∀ address, cache.get? address = entries address

variable {cache : Cache} {entries : Entries} {address : UInt64} {handle : Handle}

theorem shows_empty : ({} : Cache).Shows fun _ => none := by
  refine ⟨?_, ?_, ?_, ?_⟩
  · intro address handle here
    simp [handle?, slot?] at here
  · intro left right handle here
    simp [handle?, slot?] at here
  · intro callee caller
    simp
  · intro address
    simp [get?, handle?, slot?]

theorem Shows.contains (shown : cache.Shows entries) (address : UInt64) :
    cache.contains address = entries.contains address := by
  have slots : cache.contains address = (cache.handle? address).isSome := by
    unfold Cache.contains handle? slot?
    rw [Option.isSome_map, Std.TreeMap.contains_eq_isSome_getElem?]
  unfold Entries.contains
  rw [slots, ← shown.entries address]
  unfold get?
  cases here : cache.handle? address with
  | none => rfl
  | some handle =>
    have known := shown.known address handle here
    simp [subroutine?, known]

theorem Shows.holdsTier1 (shown : cache.Shows entries) (address : UInt64) :
    cache.holdsTier1 address = entries.holdsTier1 address := by
  unfold Cache.holdsTier1 Entries.holdsTier1
  rw [shown.entries address]

theorem Shows.found (shown : cache.Shows entries) (here : cache.handle? address = some handle) :
    ∃ subroutine, cache.subroutine? handle = some subroutine ∧ entries address = some subroutine := by
  have known := shown.known address handle here
  refine ⟨cache.subroutines[handle], by simp [subroutine?, known], ?_⟩
  rw [← shown.entries address]
  simp [get?, here, subroutine?, known]

theorem Shows.absent (shown : cache.Shows entries) (missing : cache.handle? address = none) :
    entries address = none := by
  rw [← shown.entries address]
  simp [get?, missing]

/-- Code that is taken in shows nowhere yet. -/
theorem Shows.add (shown : cache.Shows entries) (subroutine : Subroutine) :
    (cache.add subroutine).2.Shows entries := by
  refine ⟨?_, shown.apart, shown.callers, ?_⟩
  · intro address handle here
    simp only [Cache.add, Array.size_push]
    exact Nat.lt_succ_of_lt (shown.known address handle here)
  · intro address
    rw [← shown.entries address]
    have same : (cache.add subroutine).2.handle? address = cache.handle? address := rfl
    unfold get?
    rw [same]
    cases here : cache.handle? address with
    | none => rfl
    | some handle =>
      have known := shown.known address handle here
      simp [subroutine?, Cache.add, Array.getElem?_push, Nat.ne_of_lt known]

theorem Shows.unpublished (shown : cache.Shows entries) (subroutine : Subroutine) (address : UInt64) :
    (cache.add subroutine).2.handle? address ≠ some (cache.add subroutine).1 := by
  intro here
  exact Nat.lt_irrefl _ (shown.known address cache.subroutines.size here)

/-- Code changed in place shows at its address alone. -/
theorem Shows.modify (shown : cache.Shows entries) (here : cache.handle? address = some handle)
    {subroutine : Subroutine} (published : entries address = some subroutine) (change : Subroutine → Subroutine)
    (callees : (change subroutine).callees = subroutine.callees) :
    (cache.modify handle change).Shows (entries.put address (change subroutine)) := by
  refine ⟨?_, shown.apart, ?_, ?_⟩
  · intro other otherHandle there
    have known := shown.known other otherHandle there
    simpa [Cache.modify] using known
  · intro callee caller
    refine (shown.callers callee caller).trans ?_
    by_cases same : caller = address
    · subst same
      simp [published, callees]
    · rw [entries.put_other same]
  · intro other
    have handles : (cache.modify handle change).handle? other = cache.handle? other := rfl
    have shows := shown.entries other
    unfold get? at shows ⊢
    rw [handles]
    by_cases same : other = address
    · subst same
      rw [here, published] at shows
      have old : cache.subroutines[handle]? = some subroutine := shows
      simp [here, subroutine?, Cache.modify, Array.getElem?_modify, old]
    · rw [entries.put_other same, ← shows]
      cases there : cache.handle? other with
      | none => rfl
      | some otherHandle =>
        have distinct : handle ≠ otherHandle := by
          rintro rfl
          exact same (shown.apart other address handle there here)
        simp [subroutine?, Cache.modify, Array.getElem?_modify, distinct]

/-- Code that shows nowhere yet shows where it is published. -/
theorem Shows.publish (shown : cache.Shows entries) {subroutine : Subroutine}
    (taken : cache.subroutine? handle = some subroutine)
    (unpublished : ∀ other, cache.handle? other ≠ some handle) (address : UInt64) (sizeHint : UInt64) :
    (cache.publish address handle sizeHint).2.Shows (entries.put address subroutine) := by
  have handles : ∀ other, (cache.publish address handle sizeHint).2.handle? other =
      if other = address then some handle else cache.handle? other := by
    intro other
    unfold handle?
    split
    · next same =>
      rw [same, slot?_publish_self]
      rfl
    · next apart =>
      rw [slot?_publish_other cache handle sizeHint apart]
  have bound : handle < cache.subroutines.size := (Array.getElem?_eq_some_iff.mp taken).1
  have old : ∀ callee, callee ∈ ((cache.handle? address).map cache.calleesOf).getD [] ↔
      ∃ subroutine, entries address = some subroutine ∧ callee ∈ subroutine.callees := by
    intro callee
    cases here : cache.handle? address with
    | none => simp [shown.absent here]
    | some resident =>
      obtain ⟨former, held, published⟩ := shown.found here
      simp [calleesOf, held, published]
  refine ⟨?_, ?_, ?_, ?_⟩
  · intro other otherHandle there
    rw [handles] at there
    split at there
    · cases there
      exact bound
    · exact shown.known other otherHandle there
  · intro left right shared leftHas rightHas
    rw [handles] at leftHas rightHas
    split at leftHas <;> split at rightHas
    · next first second => exact first.trans second.symm
    · cases leftHas
      exact absurd rightHas (unpublished right)
    · cases rightHas
      exact absurd leftHas (unpublished left)
    · exact shown.apart left right shared leftHas rightHas
  · intro callee caller
    change caller ∈ (relink cache.callers address (cache.calleesOf handle) _).getD callee ∅ ↔ _
    have new : cache.calleesOf handle = subroutine.callees := by simp [calleesOf, taken]
    rw [mem_relink, new, old, shown.callers]
    by_cases same : caller = address
    · subst same
      simp only [Entries.put_self, true_and]
      grind
    · rw [entries.put_other same]
      simp [same]
  · intro other
    have subroutines : (cache.publish address handle sizeHint).2.subroutine? = cache.subroutine? := rfl
    unfold get?
    rw [handles, subroutines]
    split
    · next same =>
      subst same
      simp [taken]
    · next apart =>
      rw [entries.put_other apart]
      exact shown.entries other

theorem handle?_publish_self (cache : Cache) (address : UInt64) (handle : Handle) (sizeHint : UInt64) :
    (cache.publish address handle sizeHint).2.handle? address = some handle := by
  unfold handle?
  rw [slot?_publish_self]
  rfl

theorem Shows.checkPromotion (shown : cache.Shows entries) (here : cache.handle? address = some handle)
    {subroutine : Subroutine} (published : entries address = some subroutine) :
    (cache.checkPromotion handle).1 = subroutine.checkPromotion.1 ∧
      (cache.checkPromotion handle).2.Shows (entries.put address subroutine.checkPromotion.2) := by
  obtain ⟨found, held, same⟩ := shown.found here
  obtain rfl : found = subroutine := Option.some.inj (same.symm.trans published)
  unfold Cache.checkPromotion
  rw [held]
  exact ⟨rfl, shown.modify here published (fun _ => found.checkPromotion.2) found.callees_checkPromotion⟩

theorem mem_callersOf (cache : Cache) (address caller : UInt64) :
    caller ∈ cache.callersOf address ↔ caller ∈ cache.callers.getD address ∅ := by
  unfold callersOf
  rw [Std.TreeSet.mem_toList]

end Cache

namespace Subroutine

@[simp] theorem linksTo_markForRejit (subroutine : Subroutine) : subroutine.markForRejit.linksTo = subroutine.linksTo := by
  unfold markForRejit
  split <;> rfl

@[simp] theorem code_markForRejit (subroutine : Subroutine) : subroutine.markForRejit.code = subroutine.code := by
  unfold markForRejit
  split <;> rfl

@[simp] theorem params_markForRejit (subroutine : Subroutine) : subroutine.markForRejit.params = subroutine.params := by
  unfold markForRejit
  split <;> rfl

@[simp] theorem isHost_markForRejit (subroutine : Subroutine) : subroutine.markForRejit.isHost = subroutine.isHost := by
  unfold markForRejit
  split <;> rfl

@[simp] theorem markForRejit_markForRejit (subroutine : Subroutine) :
    subroutine.markForRejit.markForRejit = subroutine.markForRejit := by
  unfold markForRejit
  split <;> simp [*]

@[simp] theorem callees_notified (address caller : UInt64) (subroutine : Subroutine) :
    (subroutine.notified address caller).callees = subroutine.callees := by
  unfold notified
  split <;> simp

@[simp] theorem linksTo_notified (address caller : UInt64) (subroutine : Subroutine) :
    (subroutine.notified address caller).linksTo = subroutine.linksTo := by
  unfold notified
  split <;> simp

@[simp] theorem code_notified (address caller : UInt64) (subroutine : Subroutine) :
    (subroutine.notified address caller).code = subroutine.code := by
  unfold notified
  split <;> simp

@[simp] theorem params_notified (address caller : UInt64) (subroutine : Subroutine) :
    (subroutine.notified address caller).params = subroutine.params := by
  unfold notified
  split <;> simp

@[simp] theorem isHost_notified (address caller : UInt64) (subroutine : Subroutine) :
    (subroutine.notified address caller).isHost = subroutine.isHost := by
  unfold notified
  split <;> simp

@[simp] theorem tier_notified (address caller : UInt64) (subroutine : Subroutine) :
    (subroutine.notified address caller).tier = subroutine.tier := by
  unfold notified
  split <;> simp

theorem notified_notified (address caller : UInt64) (subroutine : Subroutine) :
    (subroutine.notified address caller).notified address caller = subroutine.notified address caller := by
  by_cases notices : address ∈ subroutine.callees ∧ caller ≠ address ∧ subroutine.linksTo address = false
  · simp [notified, notices]
  · simp [notified, notices]

end Subroutine

namespace Cache

variable {cache : Cache} {entries : Entries}

/-- One caller is marked if it could now call the address in place. -/
theorem Shows.markCaller (shown : cache.Shows entries) {caller : UInt64} {subroutine : Subroutine}
    (published : entries caller = some subroutine) {address : UInt64} (calls : address ∈ subroutine.callees)
    (count : Nat) :
    (markCaller address (count, cache) caller).2.Shows (entries.put caller (subroutine.notified address caller)) := by
  have got := shown.entries caller
  rw [published] at got
  obtain ⟨handle, here, _⟩ := Option.bind_eq_some_iff.mp got
  unfold Cache.markCaller
  simp only [here, got]
  split
  · next kept =>
    have same : subroutine.notified address caller = subroutine := by
      refine if_neg ?_
      rintro ⟨_, apart, unlinked⟩
      simp [apart, unlinked] at kept
    rw [same, entries.put_published published]
    exact shown
  · next asks =>
    have marked : subroutine.notified address caller = subroutine.markForRejit := by
      refine if_pos ⟨calls, ?_⟩
      simpa using asks
    rw [marked]
    exact shown.modify here published Subroutine.markForRejit subroutine.callees_markForRejit

theorem Shows.markAll (shown : cache.Shows entries) (address : UInt64) (callers : List UInt64)
    (call : ∀ caller ∈ callers, ∃ subroutine, entries caller = some subroutine ∧ address ∈ subroutine.callees)
    (count : Nat) :
    (callers.foldl (Cache.markCaller address) (count, cache)).2.Shows fun other =>
      if other ∈ callers then (entries other).map (Subroutine.notified address other) else entries other := by
  induction callers generalizing cache entries count with
  | nil => simpa using shown
  | cons caller rest ih =>
    obtain ⟨subroutine, published, calls⟩ := call caller (by simp)
    have marked := shown.markCaller published calls count
    rw [List.foldl_cons]
    generalize Cache.markCaller address (count, cache) caller = next at marked ⊢
    obtain ⟨more, next⟩ := next
    have others : ∀ other ∈ rest, ∃ found, entries.put caller (subroutine.notified address caller) other = some found ∧
        address ∈ found.callees := by
      intro other member
      by_cases same : other = caller
      · subst same
        exact ⟨_, entries.put_self _ _, by simpa using calls⟩
      · rw [entries.put_other same]
        exact call other (by simp [member])
    have all := ih marked others more
    have same : (fun other => if other ∈ caller :: rest then (entries other).map (Subroutine.notified address other)
        else entries other) = fun other => if other ∈ rest then
          (entries.put caller (subroutine.notified address caller) other).map (Subroutine.notified address other)
            else entries.put caller (subroutine.notified address caller) other := by
      funext other
      by_cases first : other = caller
      · subst first
        simp [published, Subroutine.notified_notified]
      · simp [first, entries.put_other first]
    rw [same]
    exact all

/-- All callers of an address are marked that could now call it in place. -/
theorem Shows.markCallers (shown : cache.Shows entries) (address : UInt64) :
    (cache.markCallers address).2.Shows (entries.notify address) := by
  have call : ∀ caller, caller ∈ cache.callersOf address ↔
      ∃ subroutine, entries caller = some subroutine ∧ address ∈ subroutine.callees := by
    intro caller
    rw [mem_callersOf, shown.callers]
  have all := shown.markAll address (cache.callersOf address) (fun caller => (call caller).mp) 0
  have same : entries.notify address = fun other => if other ∈ cache.callersOf address then
      (entries other).map (Subroutine.notified address other) else entries other := by
    funext other
    split
    · rfl
    · next outside =>
      rw [call] at outside
      unfold Entries.notify
      cases published : entries other with
      | none => rfl
      | some subroutine =>
        have calls : address ∉ subroutine.callees := fun inside => outside ⟨subroutine, published, inside⟩
        simp [Subroutine.notified, calls]
  rw [same]
  exact all

end Cache
end Dynarec
