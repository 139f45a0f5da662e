import Mathlib.Logic.ExistsUnique
import EarlyBoot.Loader.MemoryMap
import EarlyBoot.Proofs.Loader.LittleEndian

/-!
The format of a memory map, and that walking a map reads it back. A block of bytes is records,
each with the size of its body before it, and a tail that starts no record. Every block has
exactly one such layout, so the layout decides what a walk finds in any block.
-/

namespace EarlyBoot

/-- A record by its body. Its size must fit into the word before the body. -/
structure MapRecord where
  body : Bytes
  length_lt : body.length < 2 ^ 32

namespace MapRecord

def bytes (r : MapRecord) : Bytes :=
  littleEndianBytes 4 r.body.length ++ r.body

/-- The region that a record describes; a body of less than 20 bytes describes none. -/
def region? (r : MapRecord) : Option MemoryRegion :=
  if 20 ≤ r.body.length then
    some
      { bodySize := UInt32.ofNat r.body.length
        base := .ofLongWord (UInt64.ofNat (littleEndian (r.body.take 8)))
        length := UInt64.ofNat (littleEndian ((r.body.drop 8).take 8))
        type := ⟨UInt32.ofNat (littleEndian ((r.body.drop 16).take 4))⟩ }
  else none

@[simp] theorem length_bytes (r : MapRecord) : r.bytes.length = r.body.length + 4 := by
  simp [bytes]
  omega

theorem littleEndian_take_bytes (r : MapRecord) (rest : Bytes) :
    littleEndian ((r.bytes ++ rest).take 4) = r.body.length := by
  have hhead : (r.bytes ++ rest).take 4 = littleEndianBytes 4 r.body.length := by
    rw [bytes, List.append_assoc, List.take_append_of_le_length (by simp),
      List.take_of_length_le (by simp)]
  rw [hhead, littleEndian_littleEndianBytes]
  exact r.length_lt

theorem drop_bytes (r : MapRecord) (k : Nat) : r.bytes.drop (4 + k) = r.body.drop k := by
  rw [bytes, ← List.drop_drop, List.drop_left' (length_littleEndianBytes 4 _)]

theorem region?_of_short {r : MapRecord} (h : r.body.length < 20) : r.region? = none := by
  rw [region?, if_neg (by omega)]

theorem readAt_of_holds {m : Memory} {position : Nat} {r : MapRecord}
    (h : m.Holds position r.bytes) (hbody : 20 ≤ r.body.length) :
    r.region? = some (.readAt m position) := by
  have hsize : m.bytes position 4 = r.bytes.take 4 := by
    have hslice := h.slice 0 4 (by rw [r.length_bytes]; omega)
    simpa using hslice
  have hbase := h.slice 4 8 (by rw [r.length_bytes]; omega)
  have hlength := h.slice 12 8 (by rw [r.length_bytes]; omega)
  have htype := h.slice 20 4 (by rw [r.length_bytes]; omega)
  have hhead := r.littleEndian_take_bytes []
  rw [List.append_nil] at hhead
  rw [r.drop_bytes 0, List.drop_zero] at hbase
  rw [r.drop_bytes 8] at hlength
  rw [r.drop_bytes 16] at htype
  rw [region?, if_pos hbody]
  simp only [MemoryRegion.readAt, Memory.word32, Memory.word64, hsize, hhead, hbase, hlength,
    htype]

end MapRecord

/-- Too short for a size, or for the body of the size it starts with. -/
def StartsNoRecord (t : Bytes) : Prop :=
  t.length < 4 ∨ t.length < littleEndian (t.take 4) + 4

theorem not_startsNoRecord_bytes (r : MapRecord) (rest : Bytes) :
    ¬ StartsNoRecord (r.bytes ++ rest) := by
  unfold StartsNoRecord
  rw [r.littleEndian_take_bytes, List.length_append, r.length_bytes]
  omega

/-- A block that starts a record is that record and what follows it. -/
theorem exists_record_of_starts {s : Bytes} (h : ¬ StartsNoRecord s) :
    ∃ (r : MapRecord) (rest : Bytes), s = r.bytes ++ rest ∧ rest.length < s.length := by
  simp only [StartsNoRecord, not_or, Nat.not_lt] at h
  obtain ⟨hword, hbody⟩ := h
  have hhead : (s.take 4).length = 4 := by
    rw [List.length_take]
    omega
  have hsize := littleEndian_lt (s.take 4)
  rw [hhead] at hsize
  have hlength : ((s.drop 4).take (littleEndian (s.take 4))).length = littleEndian (s.take 4) := by
    rw [List.length_take, List.length_drop]
    omega
  refine ⟨⟨(s.drop 4).take (littleEndian (s.take 4)), by rw [hlength]; exact hsize⟩,
    (s.drop 4).drop (littleEndian (s.take 4)), ?_, ?_⟩
  · have hback : littleEndianBytes 4 (littleEndian (s.take 4)) = s.take 4 := by
      have := littleEndianBytes_littleEndian (s.take 4)
      rwa [hhead] at this
    simp only [MapRecord.bytes, hlength, hback]
    rw [List.append_assoc, List.take_append_drop, List.take_append_drop]
  · simp only [List.length_drop]
    omega

theorem bytes_append_inj {r r' : MapRecord} {rest rest' : Bytes}
    (h : r.bytes ++ rest = r'.bytes ++ rest') : r = r' ∧ rest = rest' := by
  have hsize : r.body.length = r'.body.length := by
    rw [← r.littleEndian_take_bytes rest, h, r'.littleEndian_take_bytes]
  obtain ⟨hbytes, hrest⟩ := List.append_inj h (by simp [hsize])
  obtain ⟨_, hbody⟩ := List.append_inj hbytes (by simp)
  obtain ⟨body, _⟩ := r
  obtain ⟨body', _⟩ := r'
  simp only at hbody
  subst hbody
  exact ⟨rfl, hrest⟩

/-- The layout of a block: its records, and the tail behind the last one. -/
structure MapLayout where
  records : List MapRecord
  tail : Bytes
  ends : StartsNoRecord tail

namespace MapLayout

def bytes (l : MapLayout) : Bytes :=
  l.records.flatMap MapRecord.bytes ++ l.tail

def regions (l : MapLayout) : List MemoryRegion :=
  l.records.filterMap MapRecord.region?

/-- Every block has a layout: records are split off until what is left starts none. -/
theorem exists_bytes_eq (block : Bytes) : ∃ l : MapLayout, l.bytes = block := by
  induction hlength : block.length using Nat.strongRecOn generalizing block with
  | _ n ih =>
      by_cases hends : StartsNoRecord block
      · exact ⟨⟨[], block, hends⟩, by simp [bytes]⟩
      · obtain ⟨r, rest, hsplit, hlt⟩ := exists_record_of_starts hends
        obtain ⟨l, hl⟩ := ih rest.length (hlength ▸ hlt) rest rfl
        refine ⟨⟨r :: l.records, l.tail, l.ends⟩, ?_⟩
        rw [hsplit, ← hl]
        simp [bytes]

/-- Two layouts of one block agree: the first record of one is the first record of the other, and
a block with a record is no tail. -/
theorem records_and_tail_unique {records records' : List MapRecord} {tail tail' : Bytes}
    (ends : StartsNoRecord tail) (ends' : StartsNoRecord tail')
    (h : records.flatMap MapRecord.bytes ++ tail = records'.flatMap MapRecord.bytes ++ tail') :
    records = records' ∧ tail = tail' := by
  induction records generalizing records' with
  | nil =>
      cases records' with
      | nil => exact ⟨rfl, by simpa using h⟩
      | cons r rest =>
          rw [List.flatMap_nil, List.nil_append, List.flatMap_cons, List.append_assoc] at h
          rw [h] at ends
          exact absurd ends (not_startsNoRecord_bytes r _)
  | cons r rest ih =>
      cases records' with
      | nil =>
          rw [List.flatMap_nil, List.nil_append, List.flatMap_cons, List.append_assoc] at h
          rw [← h] at ends'
          exact absurd ends' (not_startsNoRecord_bytes r _)
      | cons r' rest' =>
          rw [List.flatMap_cons, List.flatMap_cons, List.append_assoc, List.append_assoc] at h
          obtain ⟨hrecord, hbehind⟩ := bytes_append_inj h
          obtain ⟨hrest, htail⟩ := ih hbehind
          exact ⟨by rw [hrecord, hrest], htail⟩

theorem bytes_injective {l l' : MapLayout} (h : l.bytes = l'.bytes) : l = l' := by
  obtain ⟨records, tail, ends⟩ := l
  obtain ⟨records', tail', ends'⟩ := l'
  obtain ⟨hrecords, htail⟩ := records_and_tail_unique ends ends' h
  subst hrecords htail
  rfl

end MapLayout

namespace MapWalk

variable {m : Memory} {walk : MapWalk}

theorem regions_eq (m : Memory) (walk : MapWalk) :
    walk.regions m =
      match walk.next m with
      | (none, _) => []
      | (some r, after) => r :: after.regions m := by
  rw [regions]
  split <;> rename_i hnext <;> rw [hnext]

theorem regions_of_no_room
    (h : walk.remaining < 4 ∨ walk.remaining < (m.word32 walk.position).toNat + 4) :
    walk.regions m = [] := by
  have hnext : walk.next m = (none, walk.ended) := by
    rw [next]
    split
    · rfl
    · rename_i hword
      rw [dif_pos (h.resolve_left hword)]
  rw [regions_eq, hnext]

theorem regions_of_short {size : Nat} (hsize : (m.word32 walk.position).toNat = size)
    (hroom : size + 4 ≤ walk.remaining) (hshort : size < MemoryRegion.bodyMinimum) :
    walk.regions m = (walk.skip size).regions m := by
  have hnext : walk.next m = (walk.skip size).next m := by
    rw [next, if_neg (by omega), hsize, dif_neg (by omega), if_pos hshort]
  rw [regions_eq, hnext, ← regions_eq]

theorem regions_of_body {size : Nat} (hsize : (m.word32 walk.position).toNat = size)
    (hroom : size + 4 ≤ walk.remaining) (hbody : MemoryRegion.bodyMinimum ≤ size) :
    walk.regions m = .readAt m walk.position :: (walk.skip size).regions m := by
  have hnext : walk.next m = (some (.readAt m walk.position), walk.skip size) := by
    rw [next, if_neg (by omega), hsize, dif_neg (by omega), if_neg (by omega)]
  rw [regions_eq, hnext]

/-- The bytes that a walk still has before it. -/
structure Ahead (m : Memory) (walk : MapWalk) (bs : Bytes) : Prop where
  held : m.Holds walk.position bs
  remaining : walk.remaining = bs.length

theorem ahead_skip {r : MapRecord} {behind : Bytes} (h : walk.Ahead m (r.bytes ++ behind)) :
    (walk.skip r.body.length).Ahead m behind := by
  have hlength := r.length_bytes
  have hremaining := h.remaining
  constructor
  · have hbehind := (Memory.holds_append.mp h.held).2
    rwa [hlength] at hbehind
  · simp only [remaining, skip, List.length_append] at hremaining ⊢
    omega

/-- A walk at a record finds the region that the record describes, if any, and goes on behind
the record. -/
theorem regions_of_record {r : MapRecord} {behind : Bytes}
    (h : walk.Ahead m (r.bytes ++ behind)) :
    walk.regions m = r.region?.toList ++ (walk.skip r.body.length).regions m := by
  have hlength := r.length_bytes
  have hsize : (m.word32 walk.position).toNat = r.body.length := by
    rw [h.held.toNat_word32 (by rw [List.length_append]; omega), r.littleEndian_take_bytes]
  have hroom : r.body.length + 4 ≤ walk.remaining := by
    rw [h.remaining, List.length_append]
    omega
  rcases Nat.lt_or_ge r.body.length 20 with hshort | hbody
  · rw [regions_of_short hsize hroom hshort, MapRecord.region?_of_short hshort]
    rfl
  · rw [regions_of_body hsize hroom hbody,
      MapRecord.readAt_of_holds (Memory.holds_append.mp h.held).1 hbody]
    rfl

theorem regions_of_tail {tail : Bytes} (ends : StartsNoRecord tail) (h : walk.Ahead m tail) :
    walk.regions m = [] := by
  apply regions_of_no_room
  rw [h.remaining]
  rcases Nat.lt_or_ge tail.length 4 with hword | hword
  · exact .inl hword
  · rw [h.held.toNat_word32 hword]
    exact ends

theorem regions_of_records {records : List MapRecord} {tail : Bytes} (ends : StartsNoRecord tail)
    (h : walk.Ahead m (records.flatMap MapRecord.bytes ++ tail)) :
    walk.regions m = records.filterMap MapRecord.region? := by
  induction records generalizing walk with
  | nil => exact regions_of_tail ends h
  | cons r rest ih =>
      rw [List.flatMap_cons, List.append_assoc] at h
      rw [regions_of_record h, ih (ahead_skip h), List.filterMap_cons]
      cases r.region? <;> rfl

end MapWalk

/-- Walking a map reads back its format, with records of any size and any tail, and every block of
bytes is in this format in exactly one way. -/
theorem MemoryMap.regions_of_layout :
    (∀ (layout : MapLayout) (m : Memory) (start : Address .virtual),
      m.Holds start.toNat layout.bytes →
      start.toNat + layout.bytes.length < 2 ^ AddressSpace.bits .virtual →
        regions ⟨start, layout.bytes.length⟩ m = .ok layout.regions) ∧
    ∀ block : Bytes, ∃! layout : MapLayout, layout.bytes = block := by
  constructor
  · intro layout m start hholds hroom
    have hstop : start.add layout.bytes.length = .ok ⟨start.toNat + layout.bytes.length, hroom⟩ :=
      dif_pos hroom
    have hwalk : walk ⟨start, layout.bytes.length⟩ =
        .ok ⟨start.toNat, start.toNat + layout.bytes.length⟩ := by
      rw [walk, hstop]
      rfl
    have hahead : MapWalk.Ahead m ⟨start.toNat, start.toNat + layout.bytes.length⟩ layout.bytes :=
      ⟨hholds, Nat.add_sub_cancel_left _ _⟩
    rw [regions, hwalk]
    exact congrArg Except.ok (MapWalk.regions_of_records layout.ends hahead)
  · intro block
    obtain ⟨layout, hlayout⟩ := MapLayout.exists_bytes_eq block
    refine ⟨layout, hlayout, ?_⟩
    intro other hother
    exact MapLayout.bytes_injective (hother.trans hlayout.symm)

/-- A short record, a region with a byte of padding, an empty record, and a tail that lacks four
bytes of its body. -/
def sampleLayout : MapLayout where
  records :=
    [ ⟨[1, 2, 3], by decide⟩,
      ⟨[0, 0, 16, 0, 0, 0, 0, 0, 0, 0, 0, 1, 0, 0, 0, 0, 1, 0, 0, 0, 0xEE], by decide⟩,
      ⟨[], by decide⟩ ]
  tail := [5, 0, 0, 0, 1]
  ends := .inr (by decide)

def sampleMemory : Memory where
  byteAt a := sampleLayout.bytes.getD (a - 0x1000) 0

theorem MemoryMap.regions_of_sampleLayout :
    sampleMemory.Holds 0x1000 sampleLayout.bytes ∧
    regions ⟨⟨0x1000, by decide⟩, sampleLayout.bytes.length⟩ sampleMemory =
      .ok [⟨21, ⟨0x100000, by decide⟩, 0x1000000, .available⟩] := by
  have hholds : sampleMemory.Holds 0x1000 sampleLayout.bytes := by
    unfold Memory.Holds
    decide
  refine ⟨hholds, ?_⟩
  rw [regions_of_layout.1 sampleLayout sampleMemory ⟨0x1000, by decide⟩ hholds (by decide)]
  exact congrArg Except.ok (by decide)

end EarlyBoot
