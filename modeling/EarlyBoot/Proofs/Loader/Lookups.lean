import Mathlib.Data.List.Basic
import Mathlib.Data.Nat.Bitwise
import EarlyBoot.Loader.InfoRecord.Parts
import EarlyBoot.Proofs.Address.Translation

/-!
The addresses that reading the loader's report has to find in the mapping. A computation finds
addresses in turn: it stops at the first one that is not mapped, and otherwise has a value. No
other fault is possible while the mapping leaves room above its virtual range for the longest
table that the loader can announce.
-/

namespace EarlyBoot

namespace InfoFlag

/-- The bit of the flags word that stands for a flag. -/
def bit : InfoFlag → Nat
  | memory => 0
  | bootDevice => 1
  | commandLine => 2
  | modules => 3
  | aoutSymbols => 4
  | elfSections => 5
  | memoryMap => 6
  | drives => 7
  | configTable => 8
  | bootLoaderName => 9
  | apmTable => 10
  | vbe => 11
  | framebuffer => 12

theorem toNat_mask (flag : InfoFlag) : flag.mask.toNat = 2 ^ flag.bit := by
  cases flag <;> rfl

theorem known_and_mask (flag : InfoFlag) : InfoFlags.known &&& flag.mask = flag.mask := by
  cases flag <;> rfl

end InfoFlag

/-- A flag is one bit of the flags word; the bits without a meaning do not matter. -/
theorem InfoRecord.has_eq_testBit (info : InfoRecord) (flag : InfoFlag) :
    info.has flag = info.flags.toNat.testBit flag.bit := by
  have hword : (info.flags &&& InfoFlags.known &&& flag.mask).toNat =
      (info.flags.toNat.testBit flag.bit).toNat * 2 ^ flag.bit := by
    rw [UInt32.and_assoc, flag.known_and_mask, UInt32.toNat_and, flag.toNat_mask,
      Nat.and_two_pow]
  have hpos : 0 < 2 ^ flag.bit := Nat.two_pow_pos flag.bit
  simp only [has, infoFlags, InfoFlags.has, InfoFlags.includes, InfoFlags.ofWord]
  rw [Bool.eq_iff_iff, beq_iff_eq, ← UInt32.toNat_inj, hword, flag.toNat_mask]
  cases info.flags.toNat.testBit flag.bit
  · simp only [Bool.toNat_false, Nat.zero_mul, Bool.false_eq_true, iff_false]
    exact Nat.ne_of_lt hpos
  · simp

namespace DirectMapping

variable {α β : Type} {mapping : DirectMapping}

/-- Where the mapping shows an address, provided that it covers it. -/
def place (mapping : DirectMapping) (a : Address .loader) : Nat :=
  mapping.virtualBase.toNat + (a.toNat - mapping.physicalBase.toNat)

theorem place_of_toVirtual {a : Address .loader} {v : Address .virtual}
    (h : mapping.toVirtual a.extend = .ok v) : v.toNat = mapping.place a :=
  (toVirtual_eq_ok_iff.mp h).image

/-- Above the virtual range there is room for 2 ^ 32 entries of 16 bytes. -/
def LeavesRoom (mapping : DirectMapping) : Prop :=
  mapping.virtualBase.toNat + mapping.size + 2 ^ 36 ≤ 2 ^ AddressSpace.bits .virtual

instance (mapping : DirectMapping) : Decidable mapping.LeavesRoom :=
  inferInstanceAs (Decidable (_ ≤ _))

/-- The first of some addresses that the mapping does not cover. -/
def firstUnmapped? (mapping : DirectMapping) (addresses : List (Address .loader)) :
    Option (Address .loader) :=
  addresses.find? fun a => ! mapping.contains a.extend

theorem firstUnmapped?_append (xs ys : List (Address .loader)) :
    mapping.firstUnmapped? (xs ++ ys) =
      (mapping.firstUnmapped? xs).or (mapping.firstUnmapped? ys) :=
  List.find?_append

/-- What is looked up again was found before. -/
theorem firstUnmapped?_again (xs ys zs : List (Address .loader)) :
    mapping.firstUnmapped? (xs ++ (ys ++ (xs ++ zs))) =
      mapping.firstUnmapped? (xs ++ (ys ++ zs)) := by
  simp only [firstUnmapped?_append]
  cases mapping.firstUnmapped? xs with
  | none => rfl
  | some a => rfl

/-- A computation that finds these addresses in turn: the fault of the first one that is not
mapped, and a value of this kind if all are. -/
def Finds (mapping : DirectMapping) (addresses : List (Address .loader)) (kind : α → Prop)
    (x : Except Fault α) : Prop :=
  match mapping.firstUnmapped? addresses with
  | some a => x = .error (.unmapped a.toNat)
  | none => ∃ value, x = .ok value ∧ kind value

namespace Finds

variable {xs ys : List (Address .loader)} {kind : α → Prop} {kind' : β → Prop}

theorem ok {value : α} (h : kind value) : mapping.Finds [] kind (.ok value) :=
  ⟨value, rfl, h⟩

theorem bind {x : Except Fault α} {f : α → Except Fault β} (hx : mapping.Finds xs kind x)
    (hf : ∀ value, kind value → mapping.Finds ys kind' (f value)) :
    mapping.Finds (xs ++ ys) kind' (x >>= f) := by
  unfold Finds at hx ⊢
  rw [firstUnmapped?_append]
  cases hfirst : mapping.firstUnmapped? xs with
  | some a =>
      rw [hfirst] at hx
      simp only at hx
      rw [hx]
      rfl
  | none =>
      rw [hfirst] at hx
      obtain ⟨value, rfl, hvalue⟩ := hx
      exact hf value hvalue

theorem map {x : Except Fault α} {f : α → β} (hx : mapping.Finds xs kind x)
    (hf : ∀ value, kind value → kind' (f value)) : mapping.Finds xs kind' (f <$> x) := by
  unfold Finds at hx ⊢
  cases hfirst : mapping.firstUnmapped? xs with
  | some a =>
      rw [hfirst] at hx
      simp only at hx ⊢
      rw [hx]
      rfl
  | none =>
      rw [hfirst] at hx
      obtain ⟨value, rfl, hvalue⟩ := hx
      exact ⟨f value, rfl, hf value hvalue⟩

theorem imp {x : Except Fault α} {other : α → Prop} (hx : mapping.Finds xs kind x)
    (h : ∀ value, kind value → other value) : mapping.Finds xs other x := by
  have hmap : mapping.Finds xs other (id <$> x) := hx.map h
  rwa [id_map] at hmap

end Finds

/-- Every address of the loader is mapped. -/
def CoversLoader (mapping : DirectMapping) : Prop :=
  ∀ a : Address .loader, mapping.contains a.extend = true

theorem firstUnmapped?_of_covers (h : mapping.CoversLoader) (addresses : List (Address .loader)) :
    mapping.firstUnmapped? addresses = none := by
  apply List.find?_eq_none.mpr
  intro a _
  rw [h a]
  exact Bool.false_ne_true

theorem identity_coversLoader : identity.CoversLoader := by
  intro a
  have hend : a.toNat < 0 + 2 ^ 32 := (Nat.zero_add _).symm ▸ a.isLt
  exact contains_iff.mpr ⟨Nat.zero_le _, hend⟩

theorem identity_leavesRoom : identity.LeavesRoom := by
  decide

/-- A virtual address inside the range of the mapping. -/
def Shows (mapping : DirectMapping) (place : Nat) (v : Address .virtual) : Prop :=
  v.toNat = place ∧ place < mapping.virtualBase.toNat + mapping.size

theorem finds_toVirtual (hroom : mapping.LeavesRoom) (a : Address .loader) :
    mapping.Finds [a] (mapping.Shows (mapping.place a)) (mapping.toVirtual a.extend) := by
  unfold Finds
  cases hcontains : mapping.contains a.extend with
  | false =>
      have hfirst : mapping.firstUnmapped? [a] = some a := by simp [firstUnmapped?, hcontains]
      rw [hfirst]
      exact toVirtual_of_not_contains (Bool.eq_false_iff.mp hcontains)
  | true =>
      have hnone : mapping.firstUnmapped? [a] = none := by simp [firstUnmapped?, hcontains]
      obtain ⟨hbase, hlt⟩ : mapping.physicalBase.toNat ≤ a.toNat ∧
          a.toNat < mapping.physicalBase.toNat + mapping.size := contains_iff.mp hcontains
      have hend : mapping.place a < mapping.virtualBase.toNat + mapping.size := by
        simp only [place]
        omega
      have hfits : mapping.place a < 2 ^ AddressSpace.bits .virtual := by
        simp only [LeavesRoom] at hroom
        omega
      have hfound : mapping.toVirtual a.extend = .ok ⟨mapping.place a, hfits⟩ :=
        toVirtual_eq_ok_iff.mpr ⟨hbase, hlt, rfl⟩
      rw [hnone]
      exact ⟨⟨mapping.place a, hfits⟩, hfound, rfl, hend⟩

end DirectMapping

/-- The addresses that a string pointer makes to be found: none for a zero. -/
def stringLookups (pointer : UInt32) : List (Address .loader) :=
  if pointer = 0 then [] else [.ofWord pointer]

/-- The command line addresses in the entries of a module table, in their order. -/
def moduleLookups (memory : Memory) (table count : Nat) : List (Address .loader) :=
  (List.range count).flatMap fun i => stringLookups (memory.word32 (table + 16 * i + 8))

theorem moduleLookups_succ (memory : Memory) (table count : Nat) :
    moduleLookups memory table (count + 1) =
      stringLookups (memory.word32 (table + 8)) ++ moduleLookups memory (table + 16) count := by
  rw [moduleLookups, List.range_succ_eq_map, List.flatMap_cons, List.flatMap_map]
  congr 1
  unfold moduleLookups
  congr 1
  funext i
  congr 2
  omega

/-- Only the words of the table that name command lines matter. -/
theorem moduleLookups_congr {memory other : Memory} {table count : Nat}
    (h : ∀ i < count, memory.word32 (table + 16 * i + 8) = other.word32 (table + 16 * i + 8)) :
    moduleLookups memory table count = moduleLookups other table count := by
  apply List.flatMap_congr
  intro i hi
  rw [h i (List.mem_range.mp hi)]

/-- What a part of the report makes to be found: nothing if its flag is clear. -/
def InfoRecord.lookups (info : InfoRecord) (flag : InfoFlag)
    (addresses : List (Address .loader)) : List (Address .loader) :=
  if info.flags.toNat.testBit flag.bit then addresses else []

section

variable {m : MappedMemory} (hroom : m.mapping.LeavesRoom)

include hroom

theorem MappedMemory.finds_stringBlock (pointer : UInt32) :
    m.mapping.Finds (stringLookups pointer) (fun _ => True) (m.stringBlock pointer) := by
  unfold stringLookups stringBlock
  split
  · exact .ok trivial
  · exact (DirectMapping.finds_toVirtual hroom (.ofWord pointer)).bind fun _ _ => .ok trivial

theorem MappedMemory.finds_string (pointer : UInt32) :
    m.mapping.Finds (stringLookups pointer) (fun _ => True) (m.string pointer) :=
  (finds_stringBlock hroom pointer).map fun _ _ => trivial

theorem ModuleList.finds_next (list : ModuleList) (hmore : 0 < list.remaining)
    (hfits : list.position.toNat + 16 * list.remaining < 2 ^ 64) :
    m.mapping.Finds (stringLookups (m.memory.word32 (list.position.toNat + 8)))
      (fun next => ∃ first rest, next = some (first, rest) ∧
        rest.position.toNat = list.position.toNat + 16 ∧ rest.remaining = list.remaining - 1)
      (list.next m) := by
  have hstep : list.position.toNat + entrySize < 2 ^ AddressSpace.bits .virtual := by
    simp only [entrySize, AddressSpace.bits]
    omega
  have hadd : list.position.add entrySize = .ok ⟨list.position.toNat + entrySize, hstep⟩ :=
    dif_pos hstep
  unfold next
  rw [if_neg (Nat.ne_of_gt hmore), hadd]
  rw [← List.append_nil (stringLookups _)]
  exact (MappedMemory.finds_string hroom _).bind fun _ _ => .ok ⟨_, _, rfl, rfl, rfl⟩

end

namespace InfoRecord

variable {m : MappedMemory} (info : InfoRecord)

/-- A part that is there exactly if its flag is set, and then of this kind. -/
def PartOf {α : Type} (flag : InfoFlag) (kind : α → Prop) (part : Option α) : Prop :=
  part.isSome = info.flags.toNat.testBit flag.bit ∧ ∀ value ∈ part, kind value

/-- The addresses that the module list makes to be found: the table, and then the command lines. -/
def modulesLookups (m : MappedMemory) : List (Address .loader) :=
  info.lookups .modules (.ofWord info.modulesAddress ::
    moduleLookups m.memory (m.mapping.place (.ofWord info.modulesAddress)) info.modulesCount.toNat)

theorem lookups_append (flag : InfoFlag) (xs ys : List (Address .loader)) :
    info.lookups flag (xs ++ ys) = info.lookups flag xs ++ info.lookups flag ys := by
  unfold lookups
  split <;> rfl

theorem modulesLookups_eq (m : MappedMemory) :
    info.modulesLookups m = info.lookups .modules [.ofWord info.modulesAddress] ++
      info.lookups .modules (moduleLookups m.memory
        (m.mapping.place (.ofWord info.modulesAddress)) info.modulesCount.toNat) :=
  info.lookups_append .modules [_] _

/-- A part that is there needs its addresses found, and one that is not needs nothing. -/
theorem finds_located? {α : Type} (flag : InfoFlag) {addresses : List (Address .loader)}
    {kind : α → Prop} {find : Except Fault α} (h : m.mapping.Finds addresses kind find) :
    m.mapping.Finds (info.lookups flag addresses) (info.PartOf flag kind)
      (info.located? flag find) := by
  unfold lookups located? PartOf
  rw [has_eq_testBit]
  cases info.flags.toNat.testBit flag.bit with
  | false =>
      exact .ok ⟨rfl, fun value hvalue => nomatch hvalue⟩
  | true =>
      refine h.map ?_
      intro found hfound
      refine ⟨rfl, ?_⟩
      intro value hvalue
      cases hvalue
      exact hfound

variable (hroom : m.mapping.LeavesRoom)

include hroom

theorem finds_commandLine? :
    m.mapping.Finds (info.lookups .commandLine (stringLookups info.commandLine))
      (info.PartOf .commandLine fun _ => True) (info.commandLine? m) :=
  info.finds_located? .commandLine (MappedMemory.finds_string hroom _)

theorem finds_commandLineBlock? :
    m.mapping.Finds (info.lookups .commandLine (stringLookups info.commandLine))
      (info.PartOf .commandLine fun _ => True) (info.commandLineBlock? m) :=
  info.finds_located? .commandLine (MappedMemory.finds_stringBlock hroom _)

theorem finds_bootLoaderNameBlock? :
    m.mapping.Finds (info.lookups .bootLoaderName (stringLookups info.bootLoaderName))
      (info.PartOf .bootLoaderName fun _ => True) (info.bootLoaderNameBlock? m) :=
  info.finds_located? .bootLoaderName (MappedMemory.finds_stringBlock hroom _)

/-- The module table is found at its place, and ends before the last address. -/
theorem finds_modules? :
    m.mapping.Finds (info.lookups .modules [.ofWord info.modulesAddress])
      (info.PartOf .modules fun list =>
        list.position.toNat = m.mapping.place (.ofWord info.modulesAddress) ∧
          list.remaining = info.modulesCount.toNat ∧
          list.position.toNat + 16 * list.remaining < 2 ^ 64)
      (info.modules? m) := by
  have hcount := info.modulesCount.toNat_lt
  apply finds_located?
  refine (DirectMapping.finds_toVirtual hroom _).map ?_
  rintro start ⟨hstart, hinside⟩
  refine ⟨hstart, rfl, ?_⟩
  simp only [DirectMapping.LeavesRoom, AddressSpace.bits] at hroom
  change start.toNat + 16 * info.modulesCount.toNat < 2 ^ 64
  omega

theorem finds_memoryMap? :
    m.mapping.Finds (info.lookups .memoryMap [.ofWord info.memoryMapAddress])
      (info.PartOf .memoryMap fun map => map.start.toNat + map.length < 2 ^ 64)
      (info.memoryMap? m) := by
  have hlength := info.memoryMapLength.toNat_lt
  apply finds_located?
  refine (DirectMapping.finds_toVirtual hroom _).map ?_
  rintro start ⟨hstart, hinside⟩
  simp only [DirectMapping.LeavesRoom, AddressSpace.bits] at hroom
  change start.toNat + info.memoryMapLength.toNat < 2 ^ 64
  omega

end InfoRecord

namespace MemoryMap

theorem walk_of_lt {map : MemoryMap} (h : map.start.toNat + map.length < 2 ^ 64) :
    map.walk = .ok ⟨map.start.toNat, map.start.toNat + map.length⟩ := by
  have hadd : map.start.add map.length = .ok ⟨map.start.toNat + map.length, h⟩ := dif_pos h
  rw [walk, hadd]
  rfl

/-- Where there are regions there is a walk that finds them. -/
theorem exists_walk_of_regions {map : MemoryMap} {memory : Memory}
    {regions : List MemoryRegion} (h : map.regions memory = .ok regions) :
    ∃ walk, map.walk = .ok walk ∧ walk.regions memory = regions := by
  unfold MemoryMap.regions at h
  cases hwalk : map.walk with
  | error fault =>
      rw [hwalk] at h
      cases h
  | ok walk =>
      rw [hwalk] at h
      cases h
      exact ⟨walk, rfl, rfl⟩

theorem lt_of_walk {map : MemoryMap} {walk : MapWalk} (h : map.walk = .ok walk) :
    map.start.toNat + map.length < 2 ^ 64 := by
  unfold MemoryMap.walk Address.add at h
  split at h
  · assumption
  · cases h

theorem exists_regions {map : MemoryMap} (h : map.start.toNat + map.length < 2 ^ 64)
    (m : Memory) : ∃ regions, map.regions m = .ok regions := by
  rw [regions, walk_of_lt h]
  exact ⟨_, rfl⟩

theorem exists_availableBytes {map : MemoryMap} (h : map.start.toNat + map.length < 2 ^ 64)
    (m : Memory) : ∃ available, map.availableBytes m = .ok available := by
  obtain ⟨regions, hregions⟩ := exists_regions h m
  rw [availableBytes, hregions]
  exact ⟨_, rfl⟩

end MemoryMap

end EarlyBoot
