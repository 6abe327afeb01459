import Dynarec.Memory.Access
import Mathlib

/-!
The size of what is read. The pieces of an access have its size together, and a word that was read has no more bytes
than were asked for.
-/
namespace Dynarec
namespace Bytes

theorem toNat_ofNat (size n : Nat) : toNat (ofNat size n) = n % 256 ^ size := by
  induction size generalizing n with
  | zero => simp [ofNat, toNat, Nat.mod_one]
  | succ size ih =>
    rw [ofNat, toNat, ih, Nat.pow_succ, Nat.mul_comm (256 ^ size), Nat.mod_mul, UInt8.toNat_ofNat']

theorem toNat_lt (bytes : List UInt8) : toNat bytes < 256 ^ bytes.length := by
  induction bytes with
  | nil => simp [toNat]
  | cons byte rest ih =>
    have small := byte.toNat_lt
    simp only [toNat, List.length_cons, Nat.pow_succ]
    omega

end Bytes

namespace Memory

theorem sum_size_split (address : UInt64) (offset left : Nat) :
    ((split address offset left).map Piece.size).sum = left := by
  induction left using Nat.strongRecOn generalizing offset with
  | ind left ih =>
    rw [split]
    split
    · next done => simp [done]
    · next more =>
      have room := inPage_lt (address + UInt64.ofNat offset)
      simp only [List.map_cons, List.sum_cons]
      rw [ih _ (by omega)]
      omega

/-- A word that was read has the size asked for. -/
theorem readNat_lt {memory : Memory} {address : UInt64} {size word : Nat}
    (found : (memory.readNat address size).1 = .ok word) : word < 256 ^ size := by
  have length : ((pieces address size).flatMap memory.fetch).length = size := by
    rw [List.length_flatMap]
    simp only [length_fetch]
    exact sum_size_split address 0 size
  unfold readNat read at found
  dsimp only at found
  split at found
  · cases found
    have bound := Bytes.toNat_lt ((pieces address size).flatMap memory.fetch)
    rwa [length] at bound
  · cases found

end Memory
end Dynarec
