import Dynarec.Memory

/-!
Dirty-page queries. Each tracking id is told of a written page once, by the first of its queries that covers
the page after the write.
-/
namespace Dynarec.Memory

/-- The pages that meet `size` bytes from `address` on; a range past the top stops at the last page. -/
def pagesOf (address size : UInt64) : List UInt64 :=
  let first := (pageOf address).toNat
  let last := min (address.toNat + size.toNat) 0xffffffffffffffff
  if size = 0 then []
  else (List.range ((last - first + pageSize - 1) / pageSize)).map fun index =>
    UInt64.ofNat (first + index * pageSize)

/-- Whether a page was written since the tracking id last heard of it. -/
def isFresh (memory : Memory) (tracker : UInt32) (page : UInt64) : Bool :=
  memory.seen.getD (tracker, page) 0 < memory.versions.getD page 0

/-- Joins neighbouring pages into ranges of a start and a size. -/
def coalesce : List UInt64 → List (UInt64 × Nat)
  | [] => []
  | page :: rest =>
    match coalesce rest with
    | (start, size) :: ranges =>
      if page.toNat + pageSize = start.toNat then (page, size + pageSize) :: ranges
      else (page, pageSize) :: (start, size) :: ranges
    | [] => [(page, pageSize)]

def modified (memory : Memory) (address size : UInt64) (tracker : UInt32) :
    List (UInt64 × Nat) × Memory :=
  let fresh := (pagesOf address size).filter (memory.isFresh tracker)
  (coalesce fresh,
    { memory with
      seen := fresh.foldl
        (fun seen page => seen.insert (tracker, page) (memory.versions.getD page 0)) memory.seen })

end Dynarec.Memory
