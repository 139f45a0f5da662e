import EarlyBoot.Proofs.Loader.Agreement
import EarlyBoot.Proofs.Loader.Lookups
import EarlyBoot.Proofs.Word

/-!
What a walk through a memory map touches. The search for the next region is taken apart into its
turns, and in each turn every difference, every new position and every read is checked. No check
ever fails, so a walk stays in its block, reads nothing outside it and gets further with each turn,
whatever sizes the loader has put there.
-/

namespace EarlyBoot

/-- What is read from `count` bytes at an address, all of which have to be in the block. -/
def MemoryBlock.reading {α : Type} (block : MemoryBlock) (address count : Nat) (value : α) :
    Except Fault α :=
  if block.start ≤ address ∧ address + count ≤ block.start + block.length then .ok value
  else .error .outOfBounds

/-- The bytes of the record that describes a region, its size included. -/
def MemoryRegion.recordSize (r : MemoryRegion) : Nat :=
  r.bodySize.toNat + 4

namespace MapWalk

/-- What one turn of the search for the next region comes to. -/
inductive Turn where
  | ended
  | skipped
  | found (region : MemoryRegion)
deriving DecidableEq

/-- One turn of the search, with every step in it checked. -/
def turn (block : MemoryBlock) (m : Memory) (walk : MapWalk) : Except Fault (Turn × MapWalk) := do
  let remaining ← Word.sub walk.stop walk.position
  if remaining < 4 then return (.ended, walk.ended)
  let bodySize ← block.reading walk.position 4 (m.word32 walk.position).toNat
  if remaining < bodySize + 4 then return (.ended, walk.ended)
  let position ← Word.add Word.bits walk.position (bodySize + 4)
  let after : MapWalk := { walk with position := position }
  if bodySize < MemoryRegion.bodyMinimum then return (.skipped, after)
  let region ← block.reading walk.position 24 (.readAt m walk.position)
  return (.found region, after)

/-- A search as the turns that it takes; the last one ends it or finds a region. -/
inductive Search (block : MemoryBlock) (m : Memory) :
    MapWalk → Option MemoryRegion × MapWalk → Prop where
  | ended {walk after : MapWalk} : walk.turn block m = .ok (.ended, after) →
      Search block m walk (none, after)
  | found {walk after : MapWalk} {region : MemoryRegion} :
      walk.turn block m = .ok (.found region, after) → Search block m walk (some region, after)
  | skipped {walk middle : MapWalk} {result : Option MemoryRegion × MapWalk} :
      walk.turn block m = .ok (.skipped, middle) → Search block m middle result →
      Search block m walk result

/-- The walks that an iterator comes to, turn by turn, by whole searches and by counting what is
left. -/
inductive Reached (block : MemoryBlock) (m : Memory) (first : MapWalk) : MapWalk → Prop where
  | first : Reached block m first first
  | turn {walk after : MapWalk} {outcome : Turn} : Reached block m first walk →
      walk.turn block m = .ok (outcome, after) → Reached block m first after
  | next {walk : MapWalk} : Reached block m first walk → Reached block m first (walk.next m).2
  | count {walk : MapWalk} : Reached block m first walk → Reached block m first (walk.count m).2

/-- The walk is in the block and has the rest of it before it. -/
structure Within (block : MemoryBlock) (walk : MapWalk) : Prop where
  start_le : block.start ≤ walk.position
  position_le : walk.position ≤ walk.stop
  stop_eq : walk.stop = block.start + block.length
  stop_lt : walk.stop < 2 ^ Word.bits

namespace Within

variable {block : MemoryBlock} {m : Memory} {walk : MapWalk} (h : walk.Within block)

include h

theorem ended : walk.ended.Within block where
  start_le := Nat.le_trans h.start_le h.position_le
  position_le := Nat.le_refl _
  stop_eq := h.stop_eq
  stop_lt := h.stop_lt

theorem skip {bodySize : Nat} (hfits : ¬ walk.remaining < bodySize + 4) :
    (walk.skip bodySize).Within block where
  start_le := Nat.le_trans h.start_le (Nat.le_add_right _ _)
  position_le := by
    have := h.position_le
    simp only [remaining, MapWalk.skip] at hfits ⊢
    omega
  stop_eq := h.stop_eq
  stop_lt := h.stop_lt

/-- What there is room for in the rest of the block can be read. -/
theorem reading {α : Type} {count : Nat} (hroom : count ≤ walk.remaining) (value : α) :
    block.reading walk.position count value = .ok value := by
  have hstart := h.start_le
  have hposition := h.position_le
  have hstop := h.stop_eq
  refine if_pos ⟨hstart, ?_⟩
  simp only [remaining] at hroom
  omega

/-- In the block a turn passes all its checks: it ends the search, gets past a short body, or finds
a region and gets past its body. -/
theorem turn_cases (m : Memory) :
    (walk.turn block m = .ok (.ended, walk.ended) ∧ walk.next m = (none, walk.ended)) ∨
    ∃ bodySize, ¬ walk.remaining < bodySize + 4 ∧
      ((walk.turn block m = .ok (.skipped, walk.skip bodySize) ∧
          walk.next m = (walk.skip bodySize).next m) ∨
        ∃ region, walk.turn block m = .ok (.found region, walk.skip bodySize) ∧
          walk.next m = (some region, walk.skip bodySize)) := by
  have hremaining : Word.sub walk.stop walk.position = .ok walk.remaining :=
    Word.sub_of_le h.position_le
  simp only [turn, hremaining, bind, Except.bind, pure, Except.pure]
  rw [next]
  by_cases hword : walk.remaining < 4
  · refine .inl ⟨?_, ?_⟩ <;> simp only [if_pos hword]
  rw [h.reading (Nat.le_of_not_lt hword)]
  simp only [if_neg hword]
  by_cases hfits : walk.remaining < (m.word32 walk.position).toNat + 4
  · refine .inl ⟨?_, ?_⟩ <;> simp only [if_pos hfits, dif_pos hfits]
  have hskip := h.skip hfits
  have hposition : Word.add Word.bits walk.position ((m.word32 walk.position).toNat + 4) =
      .ok (walk.skip (m.word32 walk.position).toNat).position :=
    Word.fit_of_lt (Nat.lt_of_le_of_lt hskip.position_le hskip.stop_lt)
  simp only [if_neg hfits, dif_neg hfits, hposition]
  refine .inr ⟨(m.word32 walk.position).toNat, hfits, ?_⟩
  by_cases hshort : (m.word32 walk.position).toNat < MemoryRegion.bodyMinimum
  · exact .inl ⟨by rw [if_pos hshort]; rfl, if_pos hshort⟩
  · have hregion : 24 ≤ walk.remaining := by
      simp only [MemoryRegion.bodyMinimum] at hshort
      omega
    rw [h.reading hregion]
    simp only [if_neg hshort]
    exact .inr ⟨_, rfl, rfl⟩

theorem turn {outcome : Turn} {after : MapWalk} (hturn : walk.turn block m = .ok (outcome, after)) :
    after.Within block := by
  obtain ⟨hended, -⟩ | ⟨size, hfits, ⟨hskipped, -⟩ | ⟨region, hfound, -⟩⟩ := h.turn_cases m
  · cases hended.symm.trans hturn
    exact h.ended
  · cases hskipped.symm.trans hturn
    exact h.skip hfits
  · cases hfound.symm.trans hturn
    exact h.skip hfits

/-- A turn that goes on gets past a size at least. -/
theorem exists_turn (m : Memory) : ∃ outcome after, walk.turn block m = .ok (outcome, after) ∧
    (outcome ≠ .ended → walk.position + 4 ≤ after.position) := by
  obtain ⟨hended, -⟩ | ⟨size, -, ⟨hskipped, -⟩ | ⟨region, hfound, -⟩⟩ := h.turn_cases m
  · exact ⟨.ended, _, hended, fun hmore => absurd rfl hmore⟩
  · exact ⟨.skipped, _, hskipped, fun _ => Nat.add_le_add_left (Nat.le_add_left 4 size) _⟩
  · exact ⟨.found region, _, hfound, fun _ => Nat.add_le_add_left (Nat.le_add_left 4 size) _⟩

/-- The next region is what the turns come to, and the walk behind it is in the block. -/
theorem search (m : Memory) :
    Search block m walk (walk.next m) ∧ (walk.next m).2.Within block := by
  induction hremaining : walk.remaining using Nat.strongRecOn generalizing walk with
  | ind remaining ih =>
      obtain ⟨hended, hnext⟩ | ⟨size, hfits, hmore⟩ := h.turn_cases m
      · rw [hnext]
        exact ⟨.ended hended, h.ended⟩
      · have hskip := h.skip hfits
        have hless : (walk.skip size).remaining < remaining := hremaining ▸ remaining_skip_lt hfits
        obtain ⟨hskipped, hnext⟩ | ⟨region, hfound, hnext⟩ := hmore
        · obtain ⟨hsearch, hafter⟩ := ih _ hless hskip rfl
          rw [hnext]
          exact ⟨.skipped hskipped hsearch, hafter⟩
        · rw [hnext]
          exact ⟨.found hfound, hskip⟩

theorem reached {later : MapWalk} (hlater : Reached block m walk later) : later.Within block := by
  induction hlater with
  | first => exact h
  | turn _ hturn ih => exact ih.turn hturn
  | next _ ih => exact (ih.search m).2
  | count _ ih => exact ih.ended

end Within

/-- Nothing outside the block matters to a walk in it. -/
theorem Within.same_answers {block : MemoryBlock} {walk : MapWalk} (h : walk.Within block)
    {m m' : Memory} (hagree : m.AgreeAt m' block) :
    walk.next m = walk.next m' ∧ walk.count m = walk.count m' := by
  have hahead : m.AgreeOn m' walk.position walk.stop :=
    hagree.within h.start_le (Nat.le_of_eq h.stop_eq)
  exact ⟨next_congr hahead, by rw [count, count, regions_congr hahead]⟩

end MapWalk

/-- A record that describes a region says of itself how long it is. -/
theorem MapRecord.recordSize_region? {r : MapRecord} (h : 20 ≤ r.body.length) :
    ∃ region, r.region? = some region ∧ region.recordSize = r.bytes.length := by
  rw [region?, if_pos h, length_bytes]
  refine ⟨_, rfl, ?_⟩
  rw [MemoryRegion.recordSize, UInt32.toNat_ofNat', Nat.mod_eq_of_lt r.length_lt]

/-- The records of the regions are no longer than all records, and as long only if no record is
too short for a region. -/
theorem sum_recordSize_records (records : List MapRecord) :
    let found := ((records.filterMap MapRecord.region?).map MemoryRegion.recordSize).sum
    let all := (records.flatMap MapRecord.bytes).length
    found ≤ all ∧ (found = all ↔ ∀ r ∈ records, 20 ≤ r.body.length) := by
  induction records with
  | nil => simp
  | cons r rest ih =>
      obtain ⟨hle, heq⟩ := ih
      simp only [List.flatMap_cons, List.length_append, List.forall_mem_cons]
      rcases Nat.lt_or_ge r.body.length 20 with hshort | hbody
      · have hlength := r.length_bytes
        rw [List.filterMap_cons_none (MapRecord.region?_of_short hshort)]
        exact ⟨by omega, fun hsame => by omega, fun hall => by omega⟩
      · obtain ⟨region, hregion, hsize⟩ := MapRecord.recordSize_region? hbody
        rw [List.filterMap_cons_some hregion, List.map_cons, List.sum_cons, hsize,
          Nat.add_left_cancel_iff, heq]
        exact ⟨Nat.add_le_add_left hle _, fun hall => ⟨hbody, hall⟩, fun hall => hall.2⟩

/-- The records of the regions fill a block only if it has no other records and no tail. -/
theorem MapLayout.sum_recordSize (l : MapLayout) :
    let found := (l.regions.map MemoryRegion.recordSize).sum
    found ≤ l.bytes.length ∧
      (found = l.bytes.length ↔ (∀ r ∈ l.records, 20 ≤ r.body.length) ∧ l.tail = []) := by
  obtain ⟨hle, heq⟩ := sum_recordSize_records l.records
  simp only [MapLayout.bytes, List.length_append, ← heq, ← List.length_eq_zero_iff]
  change _ ≤ _ at hle
  unfold regions
  omega

namespace MemoryMap

/-- How long the records are that a map of these bytes has for its regions. -/
theorem sum_recordSize {map : MemoryMap} (hroom : map.start.toNat + map.length < 2 ^ 64)
    {m : Memory} {regions : List MemoryRegion} (hregions : map.regions m = .ok regions) :
    let found := (regions.map MemoryRegion.recordSize).sum
    found ≤ map.length ∧
      (found = map.length ↔ ∃ records : List MapRecord, (∀ r ∈ records, 20 ≤ r.body.length) ∧
        m.bytes map.start.toNat map.length = records.flatMap MapRecord.bytes) := by
  obtain ⟨l, hl⟩ := MapLayout.exists_bytes_eq (m.bytes map.start.toNat map.length)
  have hlength : l.bytes.length = map.length := by rw [hl, Memory.length_bytes]
  have hahead : MapWalk.Ahead m ⟨map.start.toNat, map.start.toNat + map.length⟩ l.bytes :=
    ⟨by rw [Memory.Holds, hlength, hl], by rw [hlength]; exact Nat.add_sub_cancel_left _ _⟩
  have hfound : regions = l.regions := by
    rw [MemoryMap.regions, walk_of_lt hroom] at hregions
    exact (Except.ok.inj hregions).symm.trans (MapWalk.regions_of_records l.ends hahead)
  obtain ⟨hle, heq⟩ := l.sum_recordSize
  rw [hlength, ← hfound] at hle heq
  refine ⟨hle, heq.trans ⟨?_, ?_⟩⟩
  · rintro ⟨hlong, htail⟩
    refine ⟨l.records, hlong, ?_⟩
    rw [← hl, MapLayout.bytes, htail, List.append_nil]
  · rintro ⟨records, hlong, hrecords⟩
    let whole : MapLayout := ⟨records, [], .inl (by decide)⟩
    have hwhole : l = whole :=
      MapLayout.bytes_injective (by rw [hl, hrecords, MapLayout.bytes, List.append_nil])
    rw [hwhole]
    exact ⟨hlong, rfl⟩

/-- Whatever sizes the records of a map claim to have, walking it stays in the map. Wherever an
iterator is, it is in the block and has the rest of it before it; no turn of its search fails a
check, and one that goes on gets past four bytes at least, so each search comes to its end. The
answers are the same in all memories that have the same bytes in the block. The records of the
regions that are found fit into the block, and fill it only if it is nothing but such records. -/
theorem walk_stays_in_map (map : MemoryMap) (m : Memory)
    (hroom : map.start.toNat + map.length < 2 ^ 64) :
    let block : MemoryBlock := ⟨map.start.toNat, map.length⟩
    ∃ first, map.walk = .ok first ∧
      (∀ walk, MapWalk.Reached block m first walk →
        block.start ≤ walk.position ∧ walk.position ≤ walk.stop ∧
        walk.stop = block.start + block.length ∧
        (∃ outcome after, walk.turn block m = .ok (outcome, after) ∧
          (outcome ≠ .ended → walk.position + 4 ≤ after.position)) ∧
        MapWalk.Search block m walk (walk.next m) ∧
        ∀ m', m.AgreeAt m' block →
          walk.next m = walk.next m' ∧ walk.count m = walk.count m') ∧
      ∃ regions available,
        (∀ m', m.AgreeAt m' block → map.regions m' = .ok regions ∧
          map.availableBytes m' = .ok available ∧
          first.count m' = (regions.length, first.ended)) ∧
        (regions.map MemoryRegion.recordSize).sum ≤ map.length ∧
        ((regions.map MemoryRegion.recordSize).sum = map.length ↔
          ∃ records : List MapRecord, (∀ r ∈ records, 20 ≤ r.body.length) ∧
            m.bytes map.start.toNat map.length = records.flatMap MapRecord.bytes) := by
  intro block
  have hwalk := walk_of_lt hroom
  have hfirst : MapWalk.Within block ⟨map.start.toNat, map.start.toNat + map.length⟩ :=
    ⟨Nat.le_refl _, Nat.le_add_right _ _, rfl, hroom⟩
  obtain ⟨regions, hregions⟩ := exists_regions hroom m
  obtain ⟨available, havailable⟩ := exists_availableBytes hroom m
  refine ⟨_, hwalk, ?_, regions, available, ?_, sum_recordSize hroom hregions⟩
  · intro walk hreached
    have hwithin := hfirst.reached hreached
    exact ⟨hwithin.start_le, hwithin.position_le, hwithin.stop_eq, hwithin.exists_turn m,
      (hwithin.search m).1, fun _ => hwithin.same_answers⟩
  · intro m' hagree
    have hsame : map.regions m' = .ok regions := (regions_congr hagree).symm.trans hregions
    refine ⟨hsame, (availableBytes_congr hagree).symm.trans havailable, ?_⟩
    rw [MemoryMap.regions, hwalk] at hsame
    rw [MapWalk.count, Except.ok.inj hsame]

/-- Two records with bodies of 20 and 21 bytes. -/
def fullRecords : List MapRecord :=
  [ ⟨[0, 0, 0, 0, 0, 0, 0, 0, 0, 0xFC, 9, 0, 0, 0, 0, 0, 1, 0, 0, 0], by decide⟩,
    ⟨[0, 0, 16, 0, 0, 0, 0, 0, 0, 0, 0, 1, 0, 0, 0, 0, 1, 0, 0, 0, 0xAA], by decide⟩ ]

/-- The two records, and behind them a size that no memory holds. -/
def fullMemory : Memory where
  byteAt a := (fullRecords.flatMap MapRecord.bytes).getD (a - 0x2000) 0xFF

theorem walk_of_fullRecords :
    let map : MemoryMap := ⟨⟨0x2000, by decide⟩, 49⟩
    map.start.toNat + map.length < 2 ^ 64 ∧
    ∃ regions, map.regions fullMemory = .ok regions ∧
      (regions.map MemoryRegion.recordSize).sum = 49 ∧
      ∀ m', fullMemory.AgreeAt m' ⟨0x2000, 49⟩ → map.regions m' = .ok regions := by
  intro map
  have hroom : map.start.toNat + map.length < 2 ^ 64 := by decide
  have hbytes : fullMemory.bytes 0x2000 49 = fullRecords.flatMap MapRecord.bytes := by decide
  obtain ⟨first, -, -, regions, available, hsame, -, hfull⟩ :=
    walk_stays_in_map map fullMemory hroom
  refine ⟨hroom, regions, (hsame fullMemory fun _ _ _ => rfl).1,
    hfull.mpr ⟨fullRecords, by decide, hbytes⟩, fun m' hagree => (hsame m' hagree).1⟩

end MemoryMap

end EarlyBoot
