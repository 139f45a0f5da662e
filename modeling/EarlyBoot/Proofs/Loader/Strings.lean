import EarlyBoot.CommandLine
import EarlyBoot.Proofs.Address.Translation
import EarlyBoot.Proofs.Loader.RecordLayout
import EarlyBoot.Proofs.Terminated

/-!
Strings that the loader left in memory. A string is the content of the longest block that is
searched for its terminator, so it ends at the first zero byte or at the end of that block,
whichever comes first, and nothing behind either matters. A part of the report that is a string is
found through its pointer; for a pointer of zero nothing is looked up.
-/

namespace EarlyBoot

namespace Memory

/-- Count the bytes of a string one after the other, until one is zero or `limit` are counted. -/
def countString (m : Memory) (address limit count : Nat) : Nat :=
  if count < limit ∧ m.byteAt (address + count) ≠ 0 then m.countString address limit (count + 1)
  else count
termination_by limit - count

theorem scan_eq_content (m : Memory) (address limit : Nat) :
    m.scan address limit = Terminated.content (m.bytes address limit) := by
  induction limit generalizing address with
  | zero => rfl
  | succ limit ih =>
      rw [Terminated.content_eq, bytes_succ, scan, ih]
      rfl

theorem length_scan_le (m : Memory) (address limit : Nat) :
    (m.scan address limit).length ≤ limit := by
  rw [scan_eq_content]
  exact (Terminated.length_le _).trans_eq (m.length_bytes address limit)

/-- From every count on, the bytes that are still counted are those that a scan finds there. -/
theorem countString_eq (m : Memory) (address left count : Nat) :
    m.countString address (count + left) count =
      count + (m.scan (address + count) left).length := by
  induction left generalizing count with
  | zero =>
      rw [countString, if_neg (fun h => Nat.lt_irrefl count h.1)]
      rfl
  | succ left ih =>
      rw [countString, scan]
      by_cases hend : m.byteAt (address + count) = 0
      · rw [if_neg (fun h => h.2 hend), if_pos hend]
        rfl
      · have hrest := ih (count + 1)
        rw [Nat.succ_add, ← Nat.add_succ] at hrest
        rw [if_pos ⟨Nat.lt_add_of_pos_right (Nat.succ_pos left), hend⟩, if_neg hend, hrest,
          List.length_cons, Nat.add_assoc address]
        omega

/-- A string is the same in every memory that has its bytes and the byte that ends it. -/
theorem scan_eq_of_same {m other : Memory} {address limit : Nat}
    (h : ∀ i < limit, i ≤ (m.scan address limit).length →
      other.byteAt (address + i) = m.byteAt (address + i)) :
    other.scan address limit = m.scan address limit := by
  induction limit generalizing address with
  | zero => rfl
  | succ limit ih =>
      have hfirst : other.byteAt address = m.byteAt address :=
        h 0 (Nat.succ_pos limit) (Nat.zero_le _)
      rw [scan, scan, hfirst]
      by_cases hend : m.byteAt address = 0
      · rw [if_pos hend, if_pos hend]
      · rw [scan, if_neg hend, List.length_cons] at h
        have hrest : other.scan (address + 1) limit = m.scan (address + 1) limit := by
          refine ih fun i hi hle => ?_
          have hnext := h (i + 1) (Nat.succ_lt_succ hi) (Nat.succ_le_succ hle)
          rwa [Nat.add_comm i, ← Nat.add_assoc] at hnext
        rw [if_neg hend, if_neg hend, hrest]

end Memory

namespace MappedMemory

/-- A part of the report that is a string, in numbers: whether its flag is set, its pointer, the
block of memory that the mapping shows, and the bytes at the image of the pointer. -/
def stringPart (m : MappedMemory) (isSet : Bool) (pointer : UInt32) :
    Except Fault (Option Bytes) :=
  let base := m.mapping.physicalBase.toNat
  let image := m.mapping.virtualBase.toNat + (pointer.toNat - base)
  if isSet = false then .ok none
  else if pointer = 0 then .ok (some [])
  else if pointer.toNat < base ∨ base + m.mapping.size ≤ pointer.toNat then
    .error (.unmapped pointer.toNat)
  else if 2 ^ 64 ≤ image then .error .overflow
  else .ok (some (Terminated.content (m.memory.bytes image Memory.stringLimit)))

variable {m : MappedMemory} {info : InfoRecord} {pointer : UInt32}

theorem string_of_locate {v : Address .virtual} (hpointer : pointer ≠ 0)
    (h : m.locate (.ofWord pointer) = .ok v) :
    m.string pointer = .ok (m.memory.stringAt v.toNat) := by
  rw [string, stringBlock, if_neg hpointer, h]
  exact congrArg Except.ok (m.memory.contents_stringBlock v.toNat)

theorem string_of_locate_error {fault : Fault} (hpointer : pointer ≠ 0)
    (h : m.locate (.ofWord pointer) = .error fault) : m.string pointer = .error fault := by
  rw [string, stringBlock, if_neg hpointer, h]
  rfl

/-- What a pointer that is not zero stands for is found where its address is translated to. -/
theorem stringPart_of_ne_zero (hpointer : pointer ≠ 0) :
    some <$> m.string pointer = m.stringPart true pointer := by
  rw [stringPart, if_neg Bool.true_eq_false.mp, if_neg hpointer]
  have hcontains : m.mapping.contains (Address.ofWord pointer).extend = true ↔
      m.mapping.physicalBase.toNat ≤ pointer.toNat ∧
        pointer.toNat < m.mapping.physicalBase.toNat + m.mapping.size :=
    DirectMapping.contains_iff
  split
  · rename_i houtside
    have hfault : m.locate (.ofWord pointer) = .error (.unmapped pointer.toNat) :=
      DirectMapping.toVirtual_of_not_contains fun h => by
        have hinside := hcontains.mp h
        omega
    rw [string_of_locate_error hpointer hfault]
    rfl
  · rename_i hinside
    have hbounds : m.mapping.physicalBase.toNat ≤ pointer.toNat ∧
        pointer.toNat < m.mapping.physicalBase.toNat + m.mapping.size := by omega
    split
    · rename_i hover
      have hfault : m.locate (.ofWord pointer) = .error .overflow :=
        DirectMapping.toVirtual_eq_overflow_iff.mpr ⟨hcontains.mpr hbounds, hover⟩
      rw [string_of_locate_error hpointer hfault]
      rfl
    · rename_i hword
      have hcovers : m.Covers (.ofWord pointer) := ⟨hcontains.mpr hbounds, Nat.lt_of_not_le hword⟩
      rw [string_of_locate hpointer (locate_of_covers hcovers), Memory.stringAt,
        Memory.scan_eq_content]
      rfl

theorem located?_string (flag : InfoFlag) :
    info.located? flag (m.string pointer) = m.stringPart (info.isSet flag.bit) pointer := by
  rw [InfoRecord.located?, info.has_eq_isSet]
  cases info.isSet flag.bit with
  | false => rfl
  | true =>
      by_cases hpointer : pointer = 0
      · rw [hpointer]
        rfl
      · exact stringPart_of_ne_zero hpointer

/-- A part that can be read is there exactly if its flag is set, and no byte of it is zero. -/
theorem of_stringPart {isSet : Bool} {part : Option Bytes}
    (h : m.stringPart isSet pointer = .ok part) :
    part.isSome = isSet ∧ ∀ text ∈ part, (0 : UInt8) ∉ text := by
  unfold stringPart at h
  cases isSet with
  | false =>
      cases h
      exact ⟨rfl, nofun⟩
  | true =>
      rw [if_neg Bool.true_eq_false.mp] at h
      split at h
      · cases h
        exact ⟨rfl, fun text htext => Option.some.inj htext ▸ List.not_mem_nil⟩
      · split at h
        · cases h
        · split at h
          · cases h
          · cases h
            exact ⟨rfl, fun text htext =>
              Option.some.inj htext ▸ Terminated.zero_notMem_content _⟩

/-- A string of the loader is the content of the 4096 bytes from its address on. These are the
bytes that are counted up to the first zero byte or the limit, so no byte of a string is zero, it
has at most 4096 bytes, and a memory that has them and the byte behind them, if that is looked at,
has the same string there. The command line and the name of the loader are strings of the loader:
nothing without their flags, the empty string for a pointer of zero, a fault for a pointer outside
the mapping, and else what is found at the image of the pointer. Whoever reads the command line as
a terminated string again reads all of it. -/
theorem loaderStrings_are_contents (m : MappedMemory) (info : InfoRecord) :
    (∀ address,
      let text := m.memory.stringAt address
      text = Terminated.content (m.memory.bytes address 4096) ∧
      text = m.memory.bytes address (m.memory.countString address 4096 0) ∧
      (0 : UInt8) ∉ text ∧
      text.length ≤ 4096 ∧
      (∀ other : Memory,
        (∀ i < 4096, i ≤ text.length →
          other.byteAt (address + i) = m.memory.byteAt (address + i)) →
        other.stringAt address = text) ∧
      Terminated.content text = text) ∧
    info.commandLine? m = m.stringPart (info.isSet 2) info.commandLine ∧
    info.bootLoaderName? m = m.stringPart (info.isSet 9) info.bootLoaderName ∧
    (∀ name?, info.bootLoaderName? m = .ok name? → name?.isSome = info.isSet 9) ∧
    (∀ line?, info.commandLine? m = .ok line? → line?.isSome = info.isSet 2 ∧
      ∀ line ∈ line?, CommandLine.tokens line = CommandLine.tokensOf line) := by
  have hline : info.commandLine? m = m.stringPart (info.isSet 2) info.commandLine :=
    located?_string .commandLine
  have hname : info.bootLoaderName? m = m.stringPart (info.isSet 9) info.bootLoaderName :=
    located?_string .bootLoaderName
  refine ⟨fun address => ?_, hline, hname, fun name? hread => ?_, fun line? hread => ?_⟩
  · intro text
    have hcontent : text = Terminated.content (m.memory.bytes address 4096) :=
      m.memory.scan_eq_content address 4096
    have hzero : (0 : UInt8) ∉ text := hcontent ▸ Terminated.zero_notMem_content _
    refine ⟨hcontent, ?_, hzero, m.memory.length_scan_le address 4096,
      fun other hsame => Memory.scan_eq_of_same hsame, Terminated.content_eq_self hzero⟩
    have hcount := m.memory.countString_eq address 4096 0
    rw [Nat.zero_add, Nat.zero_add] at hcount
    rw [hcount]
    exact (m.memory.bytes_length_scan address 4096).symm
  · rw [hname] at hread
    exact (of_stringPart hread).1
  · rw [hline] at hread
    obtain ⟨hsome, hzero⟩ := of_stringPart hread
    exact ⟨hsome, fun line hmem =>
      congrArg CommandLine.tokensOf (Terminated.content_eq_self (hzero line hmem))⟩

/-- One byte everywhere, and a terminator at one place. -/
def longLine : Memory :=
  ⟨fun a => if a = 0x2000 then 0 else 0x78⟩

/-- A string that ends just where it would be cut off, and one that is a byte shorter: a memory
without any terminator has the first one, too. The name of the loader is empty for its pointer of
zero, although that address is mapped, and a command line behind the mapping is a fault. -/
theorem strings_of_longLine :
    let endless : Memory := ⟨fun _ => 0x78⟩
    let m : MappedMemory := ⟨longLine, .identity⟩
    let narrow : MappedMemory := ⟨longLine, { DirectMapping.identity with size := 0x1000 }⟩
    let info : InfoRecord := { InfoRecord.empty 0x204 with commandLine := 0x1000 }
    let line := longLine.stringAt 0x1000
    endless.stringAt 0x1000 = line ∧ line.length = 4096 ∧
    (longLine.stringAt 0x1001).length = 4095 ∧
    info.commandLine? m = .ok (some line) ∧
    CommandLine.tokens line = CommandLine.tokensOf line ∧
    info.bootLoaderName? m = .ok (some []) ∧
    (some ([] : Bytes)).isSome = info.isSet 9 ∧
    info.commandLine? narrow = .error (.unmapped 0x1000) := by
  intro endless m narrow info line
  obtain ⟨hstrings, hline, hname, hnamed, htokens⟩ := loaderStrings_are_contents m info
  obtain ⟨-, houtside, -, -, -⟩ := loaderStrings_are_contents narrow info
  obtain ⟨hcontent, -, -, -, hsame, -⟩ := hstrings 0x1000
  have hlineSet : info.isSet 2 = true := by decide
  have hnameSet : info.isSet 9 = true := by decide
  have hlineRead : info.commandLine? m = .ok (some line) := by
    rw [hline, hlineSet, stringPart, if_neg (by decide), if_neg (by decide), if_neg (by decide),
      if_neg (by decide)]
    exact congrArg (fun text => Except.ok (some text)) hcontent.symm
  have hnameRead : info.bootLoaderName? m = .ok (some []) := by
    rw [hname, hnameSet]
    rfl
  have hlineOutside : info.commandLine? narrow = .error (.unmapped 0x1000) := by
    rw [houtside, hlineSet, stringPart, if_neg (by decide), if_neg (by decide), if_pos (by decide)]
    rfl
  refine ⟨hsame endless fun i hi _ => ?_, by decide +kernel, by decide +kernel, hlineRead,
    (htokens _ hlineRead).2 line rfl, hnameRead, hnamed _ hnameRead, hlineOutside⟩
  exact (if_neg (by omega)).symm

end MappedMemory

end EarlyBoot
