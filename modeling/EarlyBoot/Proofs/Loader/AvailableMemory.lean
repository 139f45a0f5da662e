import Mathlib.Algebra.BigOperators.Group.List.Basic
import Mathlib.Logic.Relation
import EarlyBoot.Proofs.Loader.MapLayout
import EarlyBoot.Proofs.Loader.Lookups

/-!
How much memory a map says is available. Each record has its share, which is nothing unless it
describes an available region, and the answer for a block is the sum of the shares of its records.
So records in front of a block add to what the block has, and only the shares of the records matter:
neither their order nor records without a share nor what follows the 20 bytes of a region.
-/

namespace EarlyBoot

/-- The lengths of the regions of type 1 together. -/
def availableLength (regions : List MemoryRegion) : Nat :=
  ((regions.filter fun region => region.type.number = 1).map fun region => region.length.toNat).sum

theorem availableLength_append (xs ys : List MemoryRegion) :
    availableLength (xs ++ ys) = availableLength xs + availableLength ys := by
  rw [availableLength, List.filter_append, List.map_append, List.sum_append]
  rfl

/-- Adding words one after the other is adding their numbers and reducing the sum once. -/
theorem foldl_add_words (first : UInt64) (words : List UInt64) :
    words.foldl (· + ·) first = first + UInt64.ofNat (words.map UInt64.toNat).sum := by
  induction words generalizing first with
  | nil => simp
  | cons word rest ih =>
      rw [List.foldl_cons, ih, List.map_cons, List.sum_cons, UInt64.ofNat_add, UInt64.ofNat_toNat,
        UInt64.add_assoc]

namespace MapRecord

/-- A record describes an available region if its body has the 20 bytes that are read, and the last
four of them are the number 1. -/
def IsAvailable (r : MapRecord) : Prop :=
  20 ≤ r.body.length ∧ littleEndian ((r.body.drop 16).take 4) = 1

instance (r : MapRecord) : Decidable r.IsAvailable :=
  inferInstanceAs (Decidable (_ ∧ _))

/-- What a record adds to the available memory. -/
def share (r : MapRecord) : Nat :=
  if r.IsAvailable then littleEndian ((r.body.drop 8).take 8) else 0

theorem share_of_not_isAvailable {r : MapRecord} (h : ¬ r.IsAvailable) : r.share = 0 :=
  if_neg h

/-- A record has its share in the length of its region, if it describes one. -/
theorem availableLength_region? (r : MapRecord) : availableLength r.region?.toList = r.share := by
  rcases Nat.lt_or_ge r.body.length 20 with hshort | hbody
  · have hnone : ¬ r.IsAvailable := fun h => absurd h.1 (Nat.not_le.mpr hshort)
    rw [region?_of_short hshort, share_of_not_isAvailable hnone]
    rfl
  · have htype : littleEndian ((r.body.drop 16).take 4) < 2 ^ 32 :=
      littleEndian_take_lt (r.body.drop 16) 4
    have hlength : littleEndian ((r.body.drop 8).take 8) < 2 ^ 64 :=
      littleEndian_take_lt (r.body.drop 8) 8
    have hone : UInt32.ofNat (littleEndian ((r.body.drop 16).take 4)) = 1 ↔ r.IsAvailable := by
      rw [← UInt32.toNat_inj, UInt32.toNat_ofNat', Nat.mod_eq_of_lt htype]
      exact ⟨fun h => ⟨hbody, h⟩, fun h => h.2⟩
    rw [region?, if_pos hbody, share, availableLength, Option.toList_some, List.filter_singleton]
    by_cases havailable : r.IsAvailable
    · simp only [hone, havailable, decide_true, cond_true, if_true, List.map_singleton,
        List.sum_singleton, UInt64.toNat_ofNat', Nat.mod_eq_of_lt hlength]
    · simp only [hone, havailable, decide_false, cond_false, if_false, List.map_nil, List.sum_nil]

theorem availableLength_records (records : List MapRecord) :
    availableLength (records.filterMap region?) = (records.map share).sum := by
  induction records with
  | nil => rfl
  | cons r rest ih =>
      have hsplit : (r :: rest).filterMap region? =
          r.region?.toList ++ rest.filterMap region? := by
        rw [List.filterMap_cons]
        cases r.region? <;> rfl
      rw [hsplit, availableLength_append, r.availableLength_region?, ih, List.map_cons,
        List.sum_cons]

/-- One change to the records of a map that leaves the available memory alone. -/
inductive Change : List MapRecord → List MapRecord → Prop where
  | permute {records records' : List MapRecord} : records.Perm records' → Change records records'
  | insert (front rest : List MapRecord) (r : MapRecord) :
      r.body.length < 20 ∨ littleEndian ((r.body.drop 16).take 4) ≠ 1 →
      Change (front ++ rest) (front ++ r :: rest)
  | pad (front rest : List MapRecord) (r padded : MapRecord) (padding : Bytes) :
      20 ≤ r.body.length → padded.body = r.body ++ padding →
      Change (front ++ r :: rest) (front ++ padded :: rest)

/-- The bytes of a region come before all padding. -/
theorem share_of_padding {r padded : MapRecord} {padding : Bytes} (hbody : 20 ≤ r.body.length)
    (hpadded : padded.body = r.body ++ padding) : padded.share = r.share := by
  have hfield : ∀ skip count, skip + count ≤ 20 →
      (padded.body.drop skip).take count = (r.body.drop skip).take count := by
    intro skip count hfits
    rw [hpadded, List.drop_append_of_le_length (by omega),
      List.take_append_of_le_length (by rw [List.length_drop]; omega)]
  have hlong : 20 ≤ padded.body.length := by
    rw [hpadded, List.length_append]
    omega
  simp only [share, IsAvailable, hfield 16 4 (by omega), hfield 8 8 (by omega), hbody, hlong]

theorem sum_share_of_change {records records' : List MapRecord} (h : Change records records') :
    (records'.map share).sum = (records.map share).sum := by
  cases h with
  | permute hperm => exact (hperm.map share).sum_eq.symm
  | insert front rest r hr =>
      have hnone : ¬ r.IsAvailable := by
        rintro ⟨hlong, hone⟩
        exact hr.elim (Nat.not_lt.mpr hlong) (absurd hone)
      simp only [List.map_append, List.map_cons, List.sum_append, List.sum_cons,
        share_of_not_isAvailable hnone, Nat.zero_add]
  | pad front rest r padded padding hbody hpadded =>
      simp only [List.map_append, List.map_cons, List.sum_append, List.sum_cons,
        share_of_padding hbody hpadded]

theorem sum_share_of_changes {records records' : List MapRecord}
    (h : Relation.ReflTransGen Change records records') :
    (records'.map share).sum = (records.map share).sum := by
  induction h with
  | refl => rfl
  | tail _ hlast ih => exact (sum_share_of_change hlast).trans ih

end MapRecord

namespace MemoryMap

variable {map : MemoryMap} {m : Memory} {block : Bytes}

/-- The map is of these bytes. -/
structure Shows (map : MemoryMap) (m : Memory) (block : Bytes) : Prop where
  held : m.Holds map.start.toNat block
  length_eq : map.length = block.length
  room : map.start.toNat + map.length < 2 ^ 64

theorem availableBytes_eq (map : MemoryMap) (m : Memory) :
    map.availableBytes m =
      (map.regions m).map fun regions => UInt64.ofNat (availableLength regions) := by
  have hsame : (fun region : MemoryRegion => region.isAvailable) =
      fun region => decide (region.type.number = 1) := by
    funext region
    rw [MemoryRegion.isAvailable, Bool.eq_iff_iff, beq_iff_eq, decide_eq_true_eq,
      RegionType.available, RegionType.mk.injEq]
  rw [availableBytes]
  cases map.regions m with
  | error fault => rfl
  | ok regions =>
      change Except.ok _ = Except.ok _
      rw [foldl_add_words, UInt64.zero_add, List.map_map, hsame]
      rfl

theorem Shows.regions_of_records {records : List MapRecord} {tail : Bytes}
    (ends : StartsNoRecord tail)
    (h : map.Shows m (records.flatMap MapRecord.bytes ++ tail)) :
    map.regions m = .ok (records.filterMap MapRecord.region?) := by
  have hahead : MapWalk.Ahead m ⟨map.start.toNat, map.start.toNat + map.length⟩
      (records.flatMap MapRecord.bytes ++ tail) :=
    ⟨h.held, (Nat.add_sub_cancel_left _ _).trans h.length_eq⟩
  rw [regions, walk_of_lt h.room]
  exact congrArg Except.ok (MapWalk.regions_of_records ends hahead)

theorem Shows.availableBytes_of_records {records : List MapRecord} {tail : Bytes}
    (ends : StartsNoRecord tail)
    (h : map.Shows m (records.flatMap MapRecord.bytes ++ tail)) :
    map.availableBytes m = .ok (UInt64.ofNat (records.map MapRecord.share).sum) := by
  rw [availableBytes_eq, h.regions_of_records ends, ← MapRecord.availableLength_records]
  rfl

theorem Shows.availableBytes_of_complete {records : List MapRecord}
    (h : map.Shows m (records.flatMap MapRecord.bytes)) :
    map.availableBytes m = .ok (UInt64.ofNat (records.map MapRecord.share).sum) := by
  rw [← List.append_nil (records.flatMap MapRecord.bytes)] at h
  exact h.availableBytes_of_records (.inl (by decide))

/-- A block has a share of its own, whatever records stand in front of it. -/
theorem exists_share (block : Bytes) : ∃ share : Nat,
    ∀ (records : List MapRecord) (map : MemoryMap) (m : Memory),
      map.Shows m (records.flatMap MapRecord.bytes ++ block) →
        map.availableBytes m =
          .ok (UInt64.ofNat ((records.map MapRecord.share).sum + share)) := by
  obtain ⟨layout, rfl⟩ := MapLayout.exists_bytes_eq block
  refine ⟨(layout.records.map MapRecord.share).sum, ?_⟩
  intro records map m h
  rw [MapLayout.bytes, ← List.append_assoc, ← List.flatMap_append] at h
  rw [h.availableBytes_of_records layout.ends, List.map_append, List.sum_append]

/-- Available memory adds up. For every map it is the sum of the lengths of the regions of type 1,
modulo `2 ^ 64`. Records in front of any block add what they have alone to what the block has
alone. Permuting records, inserting some that are short or of another type and padding some that
are not short changes nothing, in any number of steps and whatever follows the records. -/
theorem available_memory_adds_up :
    (∀ (map : MemoryMap) (m : Memory),
      (map.availableBytes m =
        (map.regions m).map fun regions => UInt64.ofNat (availableLength regions)) ∧
      (map.start.toNat + map.length < 2 ^ 64 → ∃ regions, map.regions m = .ok regions)) ∧
    (∀ (records : List MapRecord) (block : Bytes) (front behind whole : MemoryMap)
        (m₁ m₂ m : Memory),
      front.Shows m₁ (records.flatMap MapRecord.bytes) → behind.Shows m₂ block →
      whole.Shows m (records.flatMap MapRecord.bytes ++ block) →
        ∃ a b, front.availableBytes m₁ = .ok a ∧ behind.availableBytes m₂ = .ok b ∧
          whole.availableBytes m = .ok (a + b)) ∧
    ∀ (records records' : List MapRecord) (block : Bytes) (map map' : MemoryMap) (m m' : Memory),
      Relation.ReflTransGen MapRecord.Change records records' →
      map.Shows m (records.flatMap MapRecord.bytes ++ block) →
      map'.Shows m' (records'.flatMap MapRecord.bytes ++ block) →
        ∃ available, map.availableBytes m = .ok available ∧
          map'.availableBytes m' = .ok available := by
  refine ⟨?_, ?_, ?_⟩
  · intro map m
    exact ⟨map.availableBytes_eq m, fun hroom => exists_regions hroom m⟩
  · intro records block front behind whole m₁ m₂ m hfront hbehind hwhole
    obtain ⟨share, hshare⟩ := exists_share block
    have hbefore := hfront.availableBytes_of_complete
    have hafter := hshare [] behind m₂ hbehind
    have hboth := hshare records whole m hwhole
    rw [List.map_nil, List.sum_nil, Nat.zero_add] at hafter
    rw [UInt64.ofNat_add] at hboth
    exact ⟨_, _, hbefore, hafter, hboth⟩
  · intro records records' block map map' m m' hchanges h h'
    obtain ⟨share, hshare⟩ := exists_share block
    refine ⟨_, hshare records map m h, ?_⟩
    rw [hshare records' map' m' h', MapRecord.sum_share_of_changes hchanges]

/-- Every block is what some map shows, at any address that leaves room for it. -/
theorem exists_shows (start : Address .virtual) (block : Bytes)
    (hroom : start.toNat + block.length < 2 ^ 64) :
    ∃ m, Shows ⟨start, block.length⟩ m block := by
  refine ⟨⟨fun address => block.getD (address - start.toNat) 0⟩, ?_, rfl, hroom⟩
  apply Memory.holds_of_byteAt
  intro i hi
  change block.getD (start.toNat + i - start.toNat) 0 = block[i]
  rw [Nat.add_sub_cancel_left, List.getD_eq_getElem _ _ hi]

/-- The available region of the sample with another byte of padding. -/
def paddedRegion : MapRecord :=
  ⟨[0, 0, 16, 0, 0, 0, 0, 0, 0, 0, 0, 1, 0, 0, 0, 0, 1, 0, 0, 0, 0xEE, 0xEE], by decide⟩

/-- A region of type 2. -/
def reservedRegion : MapRecord :=
  ⟨[0, 0, 0, 0xF0, 0, 0, 0, 0, 0, 0, 0, 1, 0, 0, 0, 0, 2, 0, 0, 0], by decide⟩

/-- The records of the sample with the short one last, and with the two other records. -/
def changedRecords : List MapRecord :=
  paddedRegion :: sampleLayout.records.drop 2 ++ reservedRegion :: sampleLayout.records.take 1

theorem changes_of_sampleLayout :
    Relation.ReflTransGen MapRecord.Change sampleLayout.records changedRecords := by
  let moved := sampleLayout.records.drop 1 ++ sampleLayout.records.take 1
  have hmoved : (sampleLayout.records.take 1 ++ sampleLayout.records.drop 1).Perm moved :=
    List.perm_append_comm
  have hpermute : MapRecord.Change sampleLayout.records moved := .permute hmoved
  have hinsert : MapRecord.Change moved (moved.take 2 ++ reservedRegion :: moved.drop 2) :=
    .insert (moved.take 2) (moved.drop 2) reservedRegion (.inr (by decide))
  have hpad : MapRecord.Change (moved.take 2 ++ reservedRegion :: moved.drop 2) changedRecords :=
    .pad [] _ (sampleLayout.records[1]) paddedRegion [0xEE] (by decide) rfl
  exact ((Relation.ReflTransGen.single hpermute).tail hinsert).tail hpad

theorem available_memory_of_sampleLayout :
    ∃ (front behind whole changed : MemoryMap) (m₁ m₂ m m' : Memory),
      front.Shows m₁ (sampleLayout.records.flatMap MapRecord.bytes) ∧
      behind.Shows m₂ sampleLayout.bytes ∧
      whole.Shows m (sampleLayout.records.flatMap MapRecord.bytes ++ sampleLayout.bytes) ∧
      changed.Shows m' (changedRecords.flatMap MapRecord.bytes ++ sampleLayout.bytes) ∧
      (∃ regions, whole.regions m = .ok regions) ∧
      front.availableBytes m₁ = .ok 0x1000000 ∧ behind.availableBytes m₂ = .ok 0x1000000 ∧
      whole.availableBytes m = .ok 0x2000000 ∧ changed.availableBytes m' = .ok 0x2000000 := by
  obtain ⟨hsum, hadds, hkeeps⟩ := available_memory_adds_up
  let start : Address .virtual := ⟨0x1000, by decide⟩
  obtain ⟨m₁, hfront⟩ :=
    exists_shows start (sampleLayout.records.flatMap MapRecord.bytes) (by decide)
  obtain ⟨m₂, hbehind⟩ := exists_shows start sampleLayout.bytes (by decide)
  obtain ⟨m, hwhole⟩ :=
    exists_shows start (sampleLayout.records.flatMap MapRecord.bytes ++ sampleLayout.bytes)
      (by decide)
  obtain ⟨m', hchanged⟩ :=
    exists_shows start (changedRecords.flatMap MapRecord.bytes ++ sampleLayout.bytes) (by decide)
  have hshares : (sampleLayout.records.map MapRecord.share).sum = 0x1000000 := by decide
  have hfrontValue := hfront.availableBytes_of_complete
  have hbehindValue := hbehind.availableBytes_of_records sampleLayout.ends
  rw [hshares] at hfrontValue hbehindValue
  obtain ⟨a, b, ha, hb, hwholeValue⟩ := hadds _ _ _ _ _ m₁ m₂ m hfront hbehind hwhole
  cases hfrontValue.symm.trans ha
  cases hbehindValue.symm.trans hb
  obtain ⟨available, havailable, hchangedValue⟩ :=
    hkeeps _ _ _ _ _ m m' changes_of_sampleLayout hwhole hchanged
  cases hwholeValue.symm.trans havailable
  exact ⟨_, _, _, _, m₁, m₂, m, m', hfront, hbehind, hwhole, hchanged, (hsum _ m).2 hwhole.room,
    hfrontValue, hbehindValue, hwholeValue, hchangedValue⟩

end MemoryMap

end EarlyBoot
