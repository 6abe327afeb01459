import Dynarec.Subroutine
import Std.Data.TreeMap
import Std.Data.TreeSet

/-!
The translation cache: which subroutine is published at an address, and for every address the set of addresses
whose published code calls it. A subroutine may be published at several addresses; it is held once, under a
handle, so that they share its promotion.
-/
namespace Dynarec

abbrev Handle := Nat

structure Slot where
  handle : Handle
  sizeHint : UInt64
  deriving DecidableEq, Repr, Inhabited

structure Cache where
  subroutines : Array Subroutine := #[]
  slots : Std.TreeMap UInt64 Slot := ∅
  callers : Std.TreeMap UInt64 (Std.TreeSet UInt64) := ∅
  deriving Inhabited

namespace Cache

/-- Takes a subroutine in, not yet published. -/
def add (cache : Cache) (subroutine : Subroutine) : Handle × Cache :=
  (cache.subroutines.size, { cache with subroutines := cache.subroutines.push subroutine })

def subroutine? (cache : Cache) (handle : Handle) : Option Subroutine := cache.subroutines[handle]?

def slot? (cache : Cache) (address : UInt64) : Option Slot := cache.slots[address]?

def handle? (cache : Cache) (address : UInt64) : Option Handle := (cache.slot? address).map Slot.handle

def get? (cache : Cache) (address : UInt64) : Option Subroutine :=
  (cache.handle? address).bind cache.subroutine?

def contains (cache : Cache) (address : UInt64) : Bool := cache.slots.contains address

/-- Whether calls to an address can be made in place. -/
def holdsTier1 (cache : Cache) (address : UInt64) : Bool := (cache.get? address).any (·.tier == .tier1)

def modify (cache : Cache) (handle : Handle) (change : Subroutine → Subroutine) : Cache :=
  { cache with subroutines := cache.subroutines.modify handle change }

/-- Records `address` as a caller of `callee`. -/
def addCaller (callers : Std.TreeMap UInt64 (Std.TreeSet UInt64)) (address callee : UInt64) :
    Std.TreeMap UInt64 (Std.TreeSet UInt64) :=
  callers.insert callee ((callers.getD callee ∅).insert address)

/-- Drops `address` as a caller of `callee`, and the callee when it has no caller left. -/
def dropCaller (callers : Std.TreeMap UInt64 (Std.TreeSet UInt64)) (address callee : UInt64) :
    Std.TreeMap UInt64 (Std.TreeSet UInt64) :=
  let rest := (callers.getD callee ∅).erase address
  if rest.isEmpty then callers.erase callee else callers.insert callee rest

/-- The caller sets once code with callees `new` takes the place of code with callees `old` at `address`. -/
def relink (callers : Std.TreeMap UInt64 (Std.TreeSet UInt64)) (address : UInt64) (new old : List UInt64) :
    Std.TreeMap UInt64 (Std.TreeSet UInt64) :=
  let added := new.foldl (addCaller · address ·) callers
  (old.filter (!new.contains ·)).foldl (dropCaller · address ·) added

def calleesOf (cache : Cache) (handle : Handle) : List UInt64 :=
  ((cache.subroutine? handle).map Subroutine.callees).getD []

/-- Publishes a subroutine in place of what was there, and yields the handle of that. -/
def publish (cache : Cache) (address : UInt64) (handle : Handle) (sizeHint : UInt64) : Option Handle × Cache :=
  let replaced := cache.handle? address
  let old := (replaced.map cache.calleesOf).getD []
  (replaced,
    { cache with
      slots := cache.slots.insert address ⟨handle, sizeHint⟩
      callers := relink cache.callers address (cache.calleesOf handle) old })

/-- Publishes tier-0 code unless tier-1 code is there: the handle that was kept, or else what was replaced. -/
def publishTier0 (cache : Cache) (address : UInt64) (handle : Handle) (sizeHint : UInt64) :
    Except Handle (Option Handle) × Cache :=
  match cache.handle? address with
  | some resident =>
    if (cache.subroutine? resident).any (·.tier == .tier1) then (.error resident, cache)
    else
      let (replaced, cache) := cache.publish address handle sizeHint
      (.ok replaced, cache)
  | none =>
    let (replaced, cache) := cache.publish address handle sizeHint
    (.ok replaced, cache)

/-- Addresses whose published code calls an address, ascending. -/
def callersOf (cache : Cache) (address : UInt64) : List UInt64 := (cache.callers.getD address ∅).toList

/-- Asks for a rebuild of one caller of an address, but for the address itself and callers that already call it in
place; counts it if it was asked. -/
def markCaller (address : UInt64) : Nat × Cache → UInt64 → Nat × Cache
  | (count, cache), caller =>
    match cache.handle? caller, cache.get? caller with
    | some handle, some subroutine =>
      if caller = address || subroutine.linksTo address then (count, cache)
      else (count + 1, cache.modify handle Subroutine.markForRejit)
    | _, _ => (count, cache)

/-- Asks for rebuilds of the callers of an address; yields how many were asked. -/
def markCallers (cache : Cache) (address : UInt64) : Nat × Cache :=
  (cache.callersOf address).foldl (markCaller address) (0, cache)

def checkPromotion (cache : Cache) (handle : Handle) : Bool × Cache :=
  match cache.subroutine? handle with
  | some subroutine =>
    let (due, subroutine) := subroutine.checkPromotion
    (due, cache.modify handle fun _ => subroutine)
  | none => (false, cache)

def markForRejit (cache : Cache) (handle : Handle) : Cache := cache.modify handle Subroutine.markForRejit

def size (cache : Cache) : Nat := cache.slots.size

def sizeHint? (cache : Cache) (address : UInt64) : Option UInt64 := (cache.slot? address).map Slot.sizeHint

/-- The sum of two words, unless it passes the largest. -/
def addHint (total hint : UInt64) : Except Overflow UInt64 :=
  if total.toNat + hint.toNat < 0x10000000000000000 then .ok (total + hint) else .error .overflow

/-- The sum of all hints, added one after another. -/
def totalSizeHint (cache : Cache) : Except Overflow UInt64 :=
  cache.slots.foldlM (fun total _ slot => addHint total slot.sizeHint) 0

def render (cache : Cache) : String :=
  Text.record "TranslationCache"
    [("entries", toString cache.size), ("callees", toString cache.callers.size)]

@[simp] theorem subroutine?_add_self (cache : Cache) (subroutine : Subroutine) :
    (cache.add subroutine).2.subroutine? (cache.add subroutine).1 = some subroutine := by
  simp [add, subroutine?]

theorem slot?_publish_self (cache : Cache) (address : UInt64) (handle : Handle) (sizeHint : UInt64) :
    (cache.publish address handle sizeHint).2.slot? address = some ⟨handle, sizeHint⟩ := by
  simp [publish, slot?]

theorem slot?_publish_other (cache : Cache) {address other : UInt64} (handle : Handle) (sizeHint : UInt64)
    (distinct : other ≠ address) :
    (cache.publish address handle sizeHint).2.slot? other = cache.slot? other := by
  simp [publish, slot?, Std.TreeMap.getElem?_insert, Ne.symm distinct]

end Cache
end Dynarec
