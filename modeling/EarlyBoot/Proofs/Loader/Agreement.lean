import EarlyBoot.Loader.ModuleList
import EarlyBoot.Proofs.Loader.MapLayout

/-!
The same reads from two memories. What is read from a place depends on the bytes there and on
nothing else, so memories that agree on a string, on a table or on a memory map give the same
string, the same modules and the same regions.
-/

namespace EarlyBoot

namespace Memory

/-- Two memories have the same bytes from an address up to another one. -/
def AgreeOn (m m' : Memory) (start stop : Nat) : Prop :=
  ∀ a, start ≤ a → a < stop → m.byteAt a = m'.byteAt a

variable {m m' : Memory} {start stop : Nat}

theorem AgreeOn.within (h : m.AgreeOn m' start stop) {first last : Nat} (hfirst : start ≤ first)
    (hlast : last ≤ stop) : m.AgreeOn m' first last :=
  fun a ha hlt => h a (Nat.le_trans hfirst ha) (Nat.lt_of_lt_of_le hlt hlast)

theorem AgreeOn.bytes {address n : Nat} (h : m.AgreeOn m' address (address + n)) :
    m.bytes address n = m'.bytes address n :=
  List.map_congr_left fun i hi =>
    h (address + i) (Nat.le_add_right _ _) (Nat.add_lt_add_left (List.mem_range.mp hi) _)

theorem AgreeOn.word32 {address : Nat} (h : m.AgreeOn m' address (address + 4)) :
    m.word32 address = m'.word32 address := by
  rw [Memory.word32, h.bytes, ← Memory.word32]

theorem AgreeOn.word64 {address : Nat} (h : m.AgreeOn m' address (address + 8)) :
    m.word64 address = m'.word64 address := by
  rw [Memory.word64, h.bytes, ← Memory.word64]

/-- A string reads the same in two memories if both agree on the bytes that it has in either of
them. Its end needs no mention: where one string goes on, the memories agree. -/
theorem scan_congr {address limit : Nat}
    (h : m.AgreeOn m' address (address + (m.scan address limit).length))
    (h' : m.AgreeOn m' address (address + (m'.scan address limit).length)) :
    m.scan address limit = m'.scan address limit := by
  induction limit generalizing address with
  | zero => rfl
  | succ limit ih =>
      have hsame : m.byteAt address = m'.byteAt address := by
        by_cases hzero : m.byteAt address = 0
        · by_cases hzero' : m'.byteAt address = 0
          · rw [hzero, hzero']
          · exact h' address (Nat.le_refl _) (by simp [scan, hzero'])
        · exact h address (Nat.le_refl _) (by simp [scan, hzero])
      by_cases hzero : m'.byteAt address = 0
      · simp [scan, hsame, hzero]
      · have hrest {k : Nat} (h : m.AgreeOn m' address (address + (k + 1))) :
            m.AgreeOn m' (address + 1) (address + 1 + k) := h.within (by omega) (by omega)
        simp only [scan, hsame, hzero, if_false, List.length_cons] at h h' ⊢
        rw [ih (hrest h) (hrest h')]

/-- The two memories agree on a block. -/
def AgreeAt (m m' : Memory) (block : MemoryBlock) : Prop :=
  m.AgreeOn m' block.start (block.start + block.length)

theorem stringBlock_congr {address : Nat} (h : m.AgreeAt m' (m.stringBlock address))
    (h' : m.AgreeAt m' (m'.stringBlock address)) :
    m.stringBlock address = m'.stringBlock address :=
  congrArg (MemoryBlock.mk address) (congrArg List.length (scan_congr h h'))

end Memory

namespace MappedMemory

variable {m m' : MappedMemory} (hmapping : m.mapping = m'.mapping)

include hmapping

theorem stringBlock_congr {pointer : UInt32}
    (h : ∀ block, m.stringBlock pointer = .ok block → m.memory.AgreeAt m'.memory block)
    (h' : ∀ block, m'.stringBlock pointer = .ok block → m.memory.AgreeAt m'.memory block) :
    m.stringBlock pointer = m'.stringBlock pointer := by
  unfold stringBlock locate at *
  rw [← hmapping] at *
  split
  · rfl
  · rename_i hpointer
    rw [if_neg hpointer] at h h'
    cases haddress : m.mapping.toVirtual (Address.ofWord pointer).extend with
    | error fault => rfl
    | ok address =>
        rw [haddress] at h h'
        exact congrArg Except.ok (Memory.stringBlock_congr (h _ rfl) (h' _ rfl))

theorem string_congr {pointer : UInt32}
    (h : ∀ block, m.stringBlock pointer = .ok block → m.memory.AgreeAt m'.memory block)
    (h' : ∀ block, m'.stringBlock pointer = .ok block → m.memory.AgreeAt m'.memory block) :
    m.string pointer = m'.string pointer := by
  rw [string, string, ← stringBlock_congr hmapping h h']
  cases hblock : m.stringBlock pointer with
  | error fault => rfl
  | ok block => exact congrArg Except.ok (h block hblock).bytes

end MappedMemory

/-- The first of the modules, from memories that agree on its entry and on its command line. -/
theorem ModuleList.next_congr {m m' : MappedMemory} {list : ModuleList}
    (hentry : m.memory.AgreeOn m'.memory list.position.toNat (list.position.toNat + 16))
    (hline : m.string (m.memory.word32 (list.position.toNat + 8)) =
      m'.string (m.memory.word32 (list.position.toNat + 8))) :
    list.next m = list.next m' := by
  have hword {offset : Nat} (hoffset : offset ≤ 12) :
      m.memory.word32 (list.position.toNat + offset) =
        m'.memory.word32 (list.position.toNat + offset) :=
    (hentry.within (by omega) (by omega)).word32
  have hstart : m.memory.word32 list.position.toNat = m'.memory.word32 list.position.toNat :=
    hword (Nat.zero_le 12)
  have hstop := hword (by decide : 4 ≤ 12)
  rw [hword (by decide : 8 ≤ 12)] at hline
  simp only [next, hstart, hstop, hword (by decide : 8 ≤ 12), hline]

/-- The rest of the list is one entry further on. -/
theorem ModuleList.rest_of_next {m : MappedMemory} {list rest : ModuleList} {first : BootModule}
    (h : list.next m = .ok (some (first, rest))) :
    rest.position.toNat = list.position.toNat + entrySize ∧
      rest.remaining = list.remaining - 1 := by
  unfold next Address.add at h
  split at h
  · cases h
  · simp only at h
    split at h
    · cases hline : m.string (m.memory.word32 (list.position.toNat + 8)) with
      | error fault =>
          rw [hline] at h
          cases h
      | ok line =>
          rw [hline] at h
          cases h
          exact ⟨rfl, rfl⟩
    · cases h

namespace MapWalk

variable {m m' : Memory}

/-- A walk goes on behind the region that it has found, and its end stays where it is. -/
theorem ahead_of_next {walk after : MapWalk} {r : MemoryRegion}
    (h : walk.next m = (some r, after)) :
    walk.position ≤ after.position ∧ after.stop = walk.stop := by
  fun_induction next m walk with
  | case1 walk hend => cases h
  | case2 walk hroom bodySize hend => cases h
  | case3 walk hroom bodySize hfits hshort ih =>
      obtain ⟨hposition, hstop⟩ := ih h
      exact ⟨Nat.le_trans (Nat.le_add_right _ _) hposition, hstop⟩
  | case4 walk hroom bodySize hfits hbody =>
      cases h
      exact ⟨Nat.le_add_right _ _, rfl⟩

theorem readAt_congr {address : Nat} (h : m.AgreeOn m' address (address + 24)) :
    MemoryRegion.readAt m address = MemoryRegion.readAt m' address := by
  have hsize : m.word32 address = m'.word32 address :=
    (h.within (Nat.le_refl _) (by omega)).word32
  have hbase : m.word64 (address + 4) = m'.word64 (address + 4) :=
    (h.within (by omega) (by omega)).word64
  have hlength : m.word64 (address + 12) = m'.word64 (address + 12) :=
    (h.within (by omega) (by omega)).word64
  have htype : m.word32 (address + 20) = m'.word32 (address + 20) :=
    (h.within (by omega) (by omega)).word32
  simp only [MemoryRegion.readAt, hsize, hbase, hlength, htype]

theorem size_congr {walk : MapWalk} (h : m.AgreeOn m' walk.position walk.stop)
    (hroom : ¬ walk.remaining < 4) :
    (m.word32 walk.position).toNat = (m'.word32 walk.position).toNat := by
  have hstop : walk.position + 4 ≤ walk.stop := by
    simp only [remaining] at hroom
    omega
  exact congrArg UInt32.toNat (h.within (Nat.le_refl _) hstop).word32

/-- A walk reads nothing but the bytes that it has before it. -/
theorem next_congr {walk : MapWalk} (h : m.AgreeOn m' walk.position walk.stop) :
    walk.next m = walk.next m' := by
  fun_induction next m walk with
  | case1 walk hend => rw [next, if_pos hend]
  | case2 walk hroom bodySize hend =>
      have hsize : bodySize = (m'.word32 walk.position).toNat := size_congr h hroom
      rw [next, if_neg hroom, dif_pos (hsize ▸ hend)]
  | case3 walk hroom bodySize hfits hshort ih =>
      have hsize : bodySize = (m'.word32 walk.position).toNat := size_congr h hroom
      have hskip : m.AgreeOn m' (walk.skip bodySize).position (walk.skip bodySize).stop :=
        h.within (Nat.le_add_right _ _) (Nat.le_refl _)
      have hnext : walk.next m' = (walk.skip bodySize).next m' := by
        rw [next, if_neg hroom, dif_neg (hsize ▸ hfits), if_pos (hsize ▸ hshort), ← hsize]
      rw [ih hskip, hnext]
  | case4 walk hroom bodySize hfits hbody =>
      have hsize : bodySize = (m'.word32 walk.position).toNat := size_congr h hroom
      have hregion : m.AgreeOn m' walk.position (walk.position + 24) := by
        refine h.within (Nat.le_refl _) ?_
        simp only [remaining, MemoryRegion.bodyMinimum] at hfits hbody
        omega
      rw [next, if_neg hroom, dif_neg (hsize ▸ hfits), if_neg (hsize ▸ hbody), ← hsize,
        readAt_congr hregion]

theorem agreeOn_behind {walk after : MapWalk} {r : MemoryRegion}
    (h : m.AgreeOn m' walk.position walk.stop) (hnext : walk.next m = (some r, after)) :
    m.AgreeOn m' after.position after.stop := by
  obtain ⟨hposition, hstop⟩ := ahead_of_next hnext
  exact h.within hposition (Nat.le_of_eq hstop)

theorem regions_congr {walk : MapWalk} (h : m.AgreeOn m' walk.position walk.stop) :
    walk.regions m = walk.regions m' := by
  induction hremaining : walk.remaining using Nat.strongRecOn generalizing walk with
  | ind remaining ih =>
      rw [regions_eq, regions_eq, ← next_congr h]
      cases hnext : walk.next m with
      | mk region after =>
          cases region with
          | none => rfl
          | some region =>
              have hless := hremaining ▸ remaining_lt_of_next hnext
              exact congrArg (region :: ·) (ih _ hless (agreeOn_behind h hnext) rfl)

end MapWalk

namespace MemoryMap

variable {m m' : Memory} {map : MemoryMap}
  (h : m.AgreeOn m' map.start.toNat (map.start.toNat + map.length))

include h

/-- The walk through a map has the bytes of the map before it. -/
theorem agreeOn_walk {walk : MapWalk} (hwalk : map.walk = .ok walk) :
    m.AgreeOn m' walk.position walk.stop := by
  unfold MemoryMap.walk Address.add at hwalk
  split at hwalk
  · cases hwalk
    exact h
  · cases hwalk

theorem regions_congr : map.regions m = map.regions m' := by
  unfold regions
  cases hwalk : map.walk with
  | error fault => rfl
  | ok walk => exact congrArg Except.ok (MapWalk.regions_congr (agreeOn_walk h hwalk))

theorem availableBytes_congr : map.availableBytes m = map.availableBytes m' := by
  rw [availableBytes, availableBytes, regions_congr h]

end MemoryMap

end EarlyBoot
