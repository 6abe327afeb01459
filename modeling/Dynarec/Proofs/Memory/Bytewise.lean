import Dynarec.Proofs.Memory.Access
import Dynarec.Proofs.Memory.Faults
import Dynarec.Proofs.Memory.History

/-!
Accesses byte by byte. A read has the byte behind each address, or zero; a write leaves the store as if its bytes were
stored one after another; each faults once for each page it meets that is not mapped. An access that is no longer than
a page cannot overlap itself, so that what it wrote is read back, whatever pages share a frame.
-/
namespace Dynarec
namespace Memory

/-- The byte behind an address, zero where no page is mapped. -/
def byteAt (memory : Memory) (address : UInt64) : UInt8 :=
  match memory.translate address with
  | some place => memory.backing.getD place 0
  | none => 0

/-- The store with bytes laid one at a time at the places where their addresses lead. -/
def lay (translate : UInt64 → Option Nat) (address : UInt64) : List UInt8 → Array UInt8 → Array UInt8
  | [], backing => backing
  | byte :: rest, backing =>
    lay translate (address + 1) rest <|
      match translate address with
      | some place => backing.setIfInBounds place byte
      | none => backing

variable {memory : Memory} {address : UInt64} {piece : Piece} {translate : UInt64 → Option Nat} {bytes : List UInt8}
  {backing : Array UInt8} {place : Nat}

theorem add_one_add (address : UInt64) (distance : Nat) :
    address + 1 + UInt64.ofNat distance = address + UInt64.ofNat (distance + 1) := by
  rw [Nat.add_comm, ← add_ofNat_add]
  rfl

theorem fetch_eq (sound : memory.Sound) (page : inPage piece.address + piece.size ≤ pageSize) :
    memory.fetch piece = (List.range piece.size).map fun distance => memory.byteAt (piece.address + UInt64.ofNat distance) := by
  apply List.ext_getElem
  · rw [length_fetch, List.length_map, List.length_range]
  · intro distance left right
    rw [length_fetch] at left
    have near : inPage piece.address + distance < pageSize := by omega
    simp only [List.getElem_map, List.getElem_range, byteAt, translate_add memory near]
    have placed := sound.place?_eq page
    cases found : memory.translate piece.address with
    | none =>
      simp only [fetch, placed, found, List.getElem_replicate]
      rfl
    | some place =>
      have room := sound.room found
      rw [capacity] at room
      have inside : place + distance < memory.backing.size := by omega
      simp only [fetch, placed, found, Option.map_some, Array.getElem_toList, Array.getElem_extract]
      simp [Array.getD, inside]

theorem flatMap_fetch_split (sound : memory.Sound) (address : UInt64) (offset left : Nat) :
    (split address offset left).flatMap memory.fetch =
      (List.range left).map fun distance => memory.byteAt (address + UInt64.ofNat (offset + distance)) := by
  fun_induction split address offset left with
  | case1 => rfl
  | case2 offset left more start size ih =>
    have room := inPage_lt start
    have own : inPage start + size ≤ pageSize := by omega
    have first : memory.fetch ⟨offset, start, size⟩ = _ := fetch_eq sound own
    have parts : left = size + (left - size) := by omega
    rw [List.flatMap_cons, ih, first, parts, List.range_add, List.map_append, List.map_map, ← parts]
    congr 1
    · refine List.map_congr_left fun distance _ => ?_
      rw [add_ofNat_add]
    · refine List.map_congr_left fun distance _ => ?_
      rw [Function.comp_apply, Nat.add_assoc]

theorem lay_append (front back : List UInt8) (address : UInt64) (backing : Array UInt8) :
    lay translate address (front ++ back) backing =
      lay translate (address + UInt64.ofNat front.length) back (lay translate address front backing) := by
  induction front generalizing address backing with
  | nil => rw [List.length_nil, add_ofNat_zero]; rfl
  | cons byte rest ih =>
    rw [List.cons_append, lay, ih, add_one_add]
    rfl

theorem lay_page (inside : inPage address + bytes.length ≤ pageSize) (backing : Array UInt8) :
    lay memory.translate address bytes backing =
      match memory.translate address with
      | some place => overlay backing place bytes
      | none => backing := by
  induction bytes generalizing address backing with
  | nil => cases memory.translate address <;> rfl
  | cons byte rest ih =>
    rw [List.length_cons] at inside
    rw [lay]
    by_cases last : rest = []
    · subst last
      cases memory.translate address <;> rfl
    · have more := List.length_pos_iff.mpr last
      have near : inPage address + 1 < pageSize := by omega
      have step : inPage (address + 1) = inPage address + 1 := inPage_add_of_lt near
      have behind : memory.translate (address + 1) = _ := translate_add memory near
      rw [ih (by omega), behind]
      cases memory.translate address <;> rfl

theorem backing_store (sound : memory.Sound) (page : inPage piece.address + piece.size ≤ pageSize)
    (size : bytes.length = piece.size) :
    (memory.store piece bytes).backing = lay memory.translate piece.address bytes memory.backing := by
  rw [lay_page (by rwa [size])]
  unfold store
  rw [sound.place?_eq page]
  cases memory.translate piece.address <;> rfl

theorem backing_stored (address : UInt64) (offset left : Nat) (enough : bytes.length = offset + left) :
    ∀ memory : Memory, memory.Sound → (memory.stored bytes (split address offset left)).backing =
      lay memory.translate (address + UInt64.ofNat offset) (bytes.drop offset) memory.backing := by
  fun_induction split address offset left with
  | case1 =>
    intro memory _
    rw [List.drop_eq_nil_of_le (by omega)]
    rfl
  | case2 offset left more start size ih =>
    intro memory sound
    have room := inPage_lt start
    have marks := marks_store memory ⟨offset, start, size⟩ ((bytes.drop offset).take size)
    have own : inPage start + size ≤ pageSize := by omega
    have long : ((bytes.drop offset).take size).length = size := by
      simp only [List.length_take, List.length_drop]
      omega
    have first : (memory.store ⟨offset, start, size⟩ _).backing = _ := backing_store sound own long
    have parts : bytes.drop offset = (bytes.drop offset).take size ++ bytes.drop (offset + size) := by
      rw [← List.drop_drop, List.take_append_drop]
    have rest := ih (by omega) _ (marks.sound sound)
    rw [marks.translate, first] at rest
    rw [parts, lay_append, long, add_ofNat_add]
    exact rest

theorem backing_write (sound : memory.Sound) (address : UInt64) (bytes : List UInt8) :
    (memory.write address bytes).backing = lay memory.translate address bytes memory.backing := by
  have laid := backing_stored address 0 bytes.length (Nat.zero_add _).symm memory sound
  rw [add_ofNat_zero, List.drop_zero] at laid
  obtain ⟨versions, generation, written⟩ := write_eq_stored memory address bytes
  rw [written]
  exact laid

theorem getElem?_lay_other (other : ∀ distance < bytes.length, translate (address + UInt64.ofNat distance) ≠ some place) :
    (lay translate address bytes backing)[place]? = backing[place]? := by
  induction bytes generalizing address backing with
  | nil => rfl
  | cons byte rest ih =>
    have first := other 0 (by simp)
    rw [add_ofNat_zero] at first
    rw [lay, ih]
    · cases found : translate address with
      | none => rfl
      | some held =>
        have apart : held ≠ place := by
          rintro rfl
          exact first found
        exact Array.getElem?_setIfInBounds_ne apart
    · intro distance inside
      rw [add_one_add]
      exact other (distance + 1) (by simpa using inside)

/-- A place has the last byte that leads to it. -/
theorem getElem?_lay {distance : Nat} (leads : translate (address + UInt64.ofNat distance) = some place)
    (inside : distance < bytes.length) (fits : place < backing.size)
    (last : ∀ later, distance < later → later < bytes.length → translate (address + UInt64.ofNat later) ≠ some place) :
    (lay translate address bytes backing)[place]? = bytes[distance]? := by
  induction bytes generalizing address backing distance with
  | nil => simp at inside
  | cons byte rest ih =>
    rw [lay]
    cases distance with
    | zero =>
      rw [add_ofNat_zero] at leads
      rw [getElem?_lay_other, leads]
      · simp [fits]
      · intro distance near
        rw [add_one_add]
        exact last (distance + 1) (by omega) (by simpa using near)
    | succ distance =>
      rw [List.getElem?_cons_succ]
      refine ih (by rwa [add_one_add]) (by simpa using inside) ?_ ?_
      · split <;> simpa using fits
      · intro later behind near
        rw [add_one_add]
        exact last (later + 1) (by omega) (by simpa using near)

/-- Bytes closer than a page lie at places of their own, though pages may share a frame. -/
theorem Sound.places_distinct (sound : memory.Sound) {first second : Nat} (before : first < second)
    (near : second < first + pageSize) (leads : memory.translate (address + UInt64.ofNat first) = some place) :
    memory.translate (address + UInt64.ofNat second) ≠ some place := by
  intro same
  -- a place tells where in its page a byte lies, and that differs within a page's distance
  have one := sound.place_mod leads
  have other := sound.place_mod same
  rw [inPage_add] at one other
  rw [pageSize] at *
  omega

/-- What was written to mapped bytes is read back, if it is no longer than a page. -/
theorem read_write (sound : memory.Sound) (address : UInt64) (bytes : List UInt8) (short : bytes.length ≤ pageSize)
    (mapped : ∀ byte ∈ span address bytes.length, memory.isMapped byte = true) :
    ((memory.write address bytes).read address bytes.length).1 = .ok bytes := by
  have marks := marks_write sound address bytes
  rw [(marks.sound sound).read_mapped (by rwa [marks.isMapped])]
  refine congrArg Except.ok ?_
  rw [pieces, flatMap_fetch_split (marks.sound sound)]
  apply List.ext_getElem
  · simp
  · intro distance left inside
    obtain ⟨place, leads⟩ := Option.isSome_iff_exists.mp (mapped _ (mem_span.mpr ⟨distance, inside, rfl⟩))
    have laid : (lay memory.translate address bytes memory.backing)[place]? = bytes[distance]? :=
      getElem?_lay leads inside (sound.place_lt leads) fun later behind near => sound.places_distinct behind (by omega) leads
    rw [← backing_write sound, List.getElem?_eq_getElem inside] at laid
    simp only [List.getElem_map, List.getElem_range, Nat.zero_add, byteAt, marks.translate, leads]
    rw [Array.getD_eq_getD_getElem?, laid, Option.getD_some]

theorem getElem?_byteAt (sound : memory.Sound) (address : UInt64) :
    some (memory.byteAt address) = match memory.translate address with
      | some place => memory.backing[place]?
      | none => some 0 := by
  unfold byteAt
  cases found : memory.translate address with
  | none => rfl
  | some place =>
    have inside : place < memory.backing.size := sound.place_lt found
    simp [Array.getD, inside]

/-- Below the top a read has the byte behind each address, or zero where no page is mapped; a write leaves the store as if
its bytes were laid one at a time, later bytes over earlier ones, and every other place as it was; both fault once for each
page they meet that is not mapped. A word or vector written to mapped bytes is read back. -/
theorem access_bytewise (history : History) (address : UInt64) :
    let memory := history.memory
    (∀ size, address.toNat + size ≤ 0x10000000000000000 →
      ∃ bytes after, memory.read address size = (.ok bytes, after) ∧ bytes.length = size ∧
        (∀ distance < size, bytes[distance]? =
          match memory.translate (address + UInt64.ofNat distance) with
          | some place => memory.backing[place]?
          | none => some 0) ∧
        after.faultCount = memory.faultCount + (memory.unmappedPages address size).card ∧
        { after with faults := memory.faults } = memory) ∧
    (∀ bytes : List UInt8, address.toNat + bytes.length ≤ 0x10000000000000000 →
      (memory.write address bytes).backing = lay memory.translate address bytes memory.backing ∧
      (∀ distance < bytes.length, ∀ place, memory.translate (address + UInt64.ofNat distance) = some place →
        (∀ later, distance < later → later < bytes.length →
          memory.translate (address + UInt64.ofNat later) ≠ some place) →
            (memory.write address bytes).backing[place]? = bytes[distance]?) ∧
      (∀ place : Nat, (∀ byte ∈ span address bytes.length, memory.translate byte ≠ some place) →
        (memory.write address bytes).backing[place]? = memory.backing[place]?) ∧
      (memory.write address bytes).faultCount =
        memory.faultCount + (memory.unmappedPages address bytes.length).card) ∧
    ∀ size word, size ≤ pageSize → (∀ byte ∈ span address size, memory.isMapped byte = true) →
      ((memory.writeNat address size word).readNat address size).1 = .ok (word % 256 ^ size) := by
  intro memory
  have sound : memory.Sound := history.sound
  refine ⟨?_, ?_, ?_⟩
  · intro size below
    refine ⟨_, _, read_eq (below_of_le below), ?_, ?_, ?_, rfl⟩
    · rw [pieces, flatMap_fetch_split sound]
      simp
    · intro distance inside
      rw [pieces, flatMap_fetch_split sound, ← getElem?_byteAt sound]
      simp [inside]
    · exact size_append_missing sound below false
  · intro bytes below
    have laid := backing_write sound address bytes
    refine ⟨laid, ?_, ?_, ?_⟩
    · intro distance inside place leads last
      rw [laid]
      exact getElem?_lay leads inside (sound.place_lt leads) last
    · intro place other
      rw [laid]
      exact getElem?_lay_other fun distance inside => other _ (mem_span.mpr ⟨distance, inside, rfl⟩)
    · rw [faultCount, faults_write]
      exact size_append_missing sound below true
  · intro size word short mapped
    have length := Bytes.length_ofNat size word
    have back := read_write sound address (Bytes.ofNat size word) (by rwa [length]) (by rwa [length])
    rw [length] at back
    simp only [readNat, writeNat, back]
    exact congrArg Except.ok (Bytes.toNat_ofNat size word)

theorem mappable_page {address : UInt64} (room : 0x1000 ≤ memory.capacity) (aligned : inPage address = 0)
    (below : address.toNat + 0x1000 ≤ 0x10000000000000000) : memory.Mappable address 0 0x1000 := by
  refine ⟨aligned, ?_, ?_, ?_, ?_⟩
  · simp [inPage, pageSize]
  · simp [inPage, pageSize]
  · simpa using below
  · simpa using room

/-- Two pages that follow one another and share a frame. -/
def doubled : History := ⟨.empty 0x1000, [.map 0x3000 0 0x1000, .map 0x4000 0 0x1000]⟩

theorem isMapped_doubled (room : 0x1000 ≤ memory.capacity) :
    ∀ byte ∈ span 0x3ff8 16, (memory.after doubled.operations).isMapped byte = true := by
  intro byte member
  have near : pageOf byte = 0x3000 ∨ pageOf byte = 0x4000 := by
    obtain ⟨distance, near, rfl⟩ := mem_span.mp member
    simp only [← UInt64.toNat_inj, toNat_pageOf, toNat_add_ofNat]
    simp
    omega
  have first : memory.Mappable 0x3000 0 0x1000 := mappable_page room (by simp [inPage, pageSize]) (by simp)
  have single : (0x1000 : UInt64).toNat / pageSize = 1 := by simp [pageSize]
  simp only [doubled, after, List.foldl_cons, List.foldl_nil, Operation.run, map_of_mappable first]
  rw [map_of_mappable (mappable_page (by exact room) (by simp [inPage, pageSize]) (by simp)), isMapped, translate,
    Option.isSome_map, single]
  rcases near with same | same <;> simp [same, mapped, pageAt]

/-- Sixteen bytes over the border of the two are read back. -/
theorem access_bytewise_doubled :
    (∀ byte ∈ span 0x3ff8 16, doubled.memory.isMapped byte = true) ∧
      ((doubled.memory.writeNat 0x3ff8 16 0x0123456789abcdeffedcba9876543210).readNat 0x3ff8 16).1 =
        .ok 0x0123456789abcdeffedcba9876543210 := by
  have mapped : ∀ byte ∈ span 0x3ff8 16, doubled.memory.isMapped byte = true :=
    isMapped_doubled (by simp [Origin.memory, doubled, capacity, empty, wholePages, pageSize])
  refine ⟨mapped, ?_⟩
  rw [(access_bytewise doubled 0x3ff8).2.2 16 _ (by simp [pageSize]) mapped]
  norm_num

end Memory
end Dynarec
