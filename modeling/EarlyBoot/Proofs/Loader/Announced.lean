import EarlyBoot.Loader.InfoRecord.Parts
import EarlyBoot.Proofs.Loader.Agreement

/-!
The announced part of the boot information. Each flag announces some fields of the record, and
what these point to; the other fields may hold anything. Two memories whose records have the same
flags and the same announced bytes give the same parts.
-/

namespace EarlyBoot

namespace InfoFlag

/-- The bytes of the record that a flag announces: from the first offset up to the second one. -/
def fields : InfoFlag → Nat × Nat
  | memory => (4, 12)
  | bootDevice => (12, 16)
  | commandLine => (16, 20)
  | modules => (20, 28)
  | aoutSymbols => (28, 44)
  | elfSections => (28, 44)
  | memoryMap => (44, 52)
  | drives => (52, 60)
  | configTable => (60, 64)
  | bootLoaderName => (64, 68)
  | apmTable => (68, 72)
  | vbe => (72, 88)
  | framebuffer => (88, 116)

def governs (flag : InfoFlag) (offset : Nat) : Bool :=
  flag.fields.1 ≤ offset && offset < flag.fields.2

end InfoFlag

namespace MappedMemory

/-- What the announced parts of a record point to: strings, the table of modules with the strings
in it, and the memory map. -/
inductive PointsTo (m : MappedMemory) (info : InfoRecord) : MemoryBlock → Prop where
  | commandLine {block : MemoryBlock} (h : info.commandLineBlock? m = .ok (some block)) :
      PointsTo m info block
  | loaderName {block : MemoryBlock} (h : info.bootLoaderNameBlock? m = .ok (some block)) :
      PointsTo m info block
  | modules {list : ModuleList} (h : info.modules? m = .ok (some list)) :
      PointsTo m info ⟨list.position.toNat, ModuleList.entrySize * list.remaining⟩
  | moduleLine {list : ModuleList} {i : Nat} {block : MemoryBlock}
      (h : info.modules? m = .ok (some list)) (hi : i < list.remaining)
      (hline : m.stringBlock
        (m.memory.word32 (list.position.toNat + ModuleList.entrySize * i + 8)) = .ok block) :
      PointsTo m info block
  | memoryMap {map : MemoryMap} (h : info.memoryMap? m = .ok (some map)) :
      PointsTo m info ⟨map.start.toNat, map.length⟩

/-- Two memories that differ in nothing but bytes of the record at an address that none of its
flags announces. What the announced parts point to, in either memory, is apart from these bytes. -/
structure SameReport (m m' : MappedMemory) (record : Nat) : Prop where
  mapping : m.mapping = m'.mapping
  flags : (InfoRecord.readAt m.memory record).flags = (InfoRecord.readAt m'.memory record).flags
  unannounced : ∀ a, m.memory.byteAt a ≠ m'.memory.byteAt a →
    ∃ offset < InfoRecord.size, a = record + offset ∧
      ∀ flag, (InfoRecord.readAt m.memory record).has flag → flag.governs offset = false
  apart : ∀ block,
    m.PointsTo (.readAt m.memory record) block ∨ m'.PointsTo (.readAt m'.memory record) block →
      m.memory.AgreeAt m'.memory block

end MappedMemory

namespace InfoRecord

variable {info info' : InfoRecord} {flag : InfoFlag}

theorem part?_congr {α : Type} {value value' : α} (hhas : info.has flag = info'.has flag)
    (h : info.has flag = true → value = value') :
    info.part? flag value = info'.part? flag value' := by
  unfold part?
  rw [← hhas]
  split
  · rename_i hset
    rw [h hset]
  · rfl

theorem located?_congr {α : Type} {find find' : Except Fault α}
    (hhas : info.has flag = info'.has flag) (h : info.has flag = true → find = find') :
    info.located? flag find = info'.located? flag find' := by
  unfold located?
  rw [← hhas]
  split
  · rename_i hset
    rw [h hset]
  · rfl

end InfoRecord

namespace MappedMemory.SameReport

variable {m m' : MappedMemory} {record : Nat} (h : m.SameReport m' record)

include h

theorem has_eq (flag : InfoFlag) : (InfoRecord.readAt m.memory record).has flag =
    (InfoRecord.readAt m'.memory record).has flag := by
  simp only [InfoRecord.has, InfoRecord.infoFlags, h.flags]

theorem agreeOn_fields {flag : InfoFlag} (hset : (InfoRecord.readAt m.memory record).has flag) :
    m.memory.AgreeOn m'.memory (record + flag.fields.1) (record + flag.fields.2) := by
  intro a hfirst hlast
  refine Decidable.byContradiction fun hdiffer => ?_
  obtain ⟨offset, -, rfl, hfree⟩ := h.unannounced a hdiffer
  have hgoverned := hfree flag hset
  simp only [InfoFlag.governs, Bool.and_eq_false_iff, decide_eq_false_iff_not] at hgoverned
  omega

/-- A word among the fields of a flag that is set. -/
theorem word32_eq {flag : InfoFlag} (hset : (InfoRecord.readAt m.memory record).has flag)
    (offset : Nat) (hword : (flag.governs offset && flag.governs (offset + 3)) = true) :
    m.memory.word32 (record + offset) = m'.memory.word32 (record + offset) := by
  simp only [InfoFlag.governs, Bool.and_eq_true, decide_eq_true_eq] at hword
  exact ((h.agreeOn_fields hset).within (by omega) (by omega)).word32

theorem text_eq : (InfoRecord.readAt m.memory record).text =
    (InfoRecord.readAt m'.memory record).text := by
  unfold InfoRecord.text InfoRecord.infoFlags
  rw [h.flags]

theorem memorySizes?_eq : (InfoRecord.readAt m.memory record).memorySizes? =
    (InfoRecord.readAt m'.memory record).memorySizes? := by
  refine InfoRecord.part?_congr (h.has_eq _) fun hset => ?_
  exact congrArg₂ MemorySizes.mk (h.word32_eq hset 4 rfl)
    (h.word32_eq hset 8 rfl)

theorem bootDevice?_eq : (InfoRecord.readAt m.memory record).bootDevice? =
    (InfoRecord.readAt m'.memory record).bootDevice? := by
  refine InfoRecord.part?_congr (h.has_eq _) fun hset => ?_
  exact congrArg BootDevice.ofWord (h.word32_eq hset 12 rfl)

theorem framebuffer?_eq : (InfoRecord.readAt m.memory record).framebuffer? =
    (InfoRecord.readAt m'.memory record).framebuffer? := by
  refine InfoRecord.part?_congr (h.has_eq _) fun hset => ?_
  have hfields : m.memory.AgreeOn m'.memory (record + 88) (record + 116) := h.agreeOn_fields hset
  have haddress : m.memory.word64 (record + 88) = m'.memory.word64 (record + 88) :=
    (hfields.within (Nat.le_refl _) (by omega)).word64
  have hword (offset : Nat) (hfirst : 88 ≤ offset) (hlast : offset + 4 ≤ 116) :
      m.memory.word32 (record + offset) = m'.memory.word32 (record + offset) :=
    (hfields.within (by omega) (by omega)).word32
  have hbyte (offset : Nat) (hfirst : 88 ≤ offset) (hlast : offset < 116) :
      m.memory.byteAt (record + offset) = m'.memory.byteAt (record + offset) :=
    hfields _ (Nat.add_le_add_left hfirst record) (Nat.add_lt_add_left hlast record)
  simp (disch := decide) only [InfoRecord.pixelFormat, InfoRecord.readAt, haddress, hword, hbyte]

/-- A string that an announced field points to. -/
theorem stringBlock_eq {pointer : UInt32}
    (hpoints : ∀ block, m.stringBlock pointer = .ok block →
      m.PointsTo (.readAt m.memory record) block)
    (hpoints' : ∀ block, m'.stringBlock pointer = .ok block →
      m'.PointsTo (.readAt m'.memory record) block) :
    m.stringBlock pointer = m'.stringBlock pointer ∧ m.string pointer = m'.string pointer := by
  have hblock (block : MemoryBlock) (hfound : m.stringBlock pointer = .ok block) :=
    h.apart block (.inl (hpoints block hfound))
  have hblock' (block : MemoryBlock) (hfound : m'.stringBlock pointer = .ok block) :=
    h.apart block (.inr (hpoints' block hfound))
  exact ⟨stringBlock_congr h.mapping hblock hblock', string_congr h.mapping hblock hblock'⟩

/-- The string for a flag, by a field of the record that the flag announces. -/
theorem flaggedString_eq {flag : InfoFlag} (pointer : InfoRecord → UInt32)
    (hset : (InfoRecord.readAt m.memory record).has flag)
    (hpointer : pointer (.readAt m.memory record) = pointer (.readAt m'.memory record))
    (hpoints : ∀ (n : MappedMemory) (info : InfoRecord) (block : MemoryBlock),
      info.located? flag (n.stringBlock (pointer info)) = .ok (some block) →
        n.PointsTo info block) :
    m.stringBlock (pointer (.readAt m.memory record)) =
        m'.stringBlock (pointer (.readAt m'.memory record)) ∧
      m.string (pointer (.readAt m.memory record)) =
        m'.string (pointer (.readAt m'.memory record)) := by
  have hset' : (InfoRecord.readAt m'.memory record).has flag := h.has_eq flag ▸ hset
  have hfound {n : MappedMemory} {info : InfoRecord} (hflag : info.has flag) {block : MemoryBlock}
      (hblock : n.stringBlock (pointer info) = .ok block) : n.PointsTo info block := by
    apply hpoints
    rw [InfoRecord.located?, if_pos hflag, hblock]
    rfl
  rw [← hpointer]
  apply h.stringBlock_eq
  · exact fun block hblock => hfound hset hblock
  · exact fun block hblock => hfound hset' (hpointer ▸ hblock)

theorem commandLine_eq (hset : (InfoRecord.readAt m.memory record).has .commandLine) :
    m.stringBlock (InfoRecord.readAt m.memory record).commandLine =
        m'.stringBlock (InfoRecord.readAt m'.memory record).commandLine ∧
      m.string (InfoRecord.readAt m.memory record).commandLine =
        m'.string (InfoRecord.readAt m'.memory record).commandLine :=
  h.flaggedString_eq InfoRecord.commandLine hset
    (h.word32_eq hset 16 rfl) fun _ _ _ => .commandLine

theorem commandLine?_eq : (InfoRecord.readAt m.memory record).commandLine? m =
    (InfoRecord.readAt m'.memory record).commandLine? m' :=
  InfoRecord.located?_congr (h.has_eq _) fun hset => (h.commandLine_eq hset).2

theorem commandLineBlock?_eq : (InfoRecord.readAt m.memory record).commandLineBlock? m =
    (InfoRecord.readAt m'.memory record).commandLineBlock? m' :=
  InfoRecord.located?_congr (h.has_eq _) fun hset => (h.commandLine_eq hset).1

theorem bootLoaderNameBlock?_eq : (InfoRecord.readAt m.memory record).bootLoaderNameBlock? m =
    (InfoRecord.readAt m'.memory record).bootLoaderNameBlock? m' :=
  InfoRecord.located?_congr (h.has_eq _) fun hset =>
    (h.flaggedString_eq InfoRecord.bootLoaderName hset
      (h.word32_eq hset 64 rfl) fun _ _ _ => .loaderName).1

theorem modules?_eq : (InfoRecord.readAt m.memory record).modules? m =
    (InfoRecord.readAt m'.memory record).modules? m' := by
  refine InfoRecord.located?_congr (h.has_eq _) fun hset => ?_
  have hcount : (InfoRecord.readAt m.memory record).modulesCount =
      (InfoRecord.readAt m'.memory record).modulesCount :=
    h.word32_eq hset 20 rfl
  have haddress : (InfoRecord.readAt m.memory record).modulesAddress =
      (InfoRecord.readAt m'.memory record).modulesAddress :=
    h.word32_eq hset 24 rfl
  rw [locate, locate, h.mapping, hcount, haddress]

theorem memoryMap?_eq : (InfoRecord.readAt m.memory record).memoryMap? m =
    (InfoRecord.readAt m'.memory record).memoryMap? m' := by
  refine InfoRecord.located?_congr (h.has_eq _) fun hset => ?_
  have hlength : (InfoRecord.readAt m.memory record).memoryMapLength =
      (InfoRecord.readAt m'.memory record).memoryMapLength :=
    h.word32_eq hset 44 rfl
  have haddress : (InfoRecord.readAt m.memory record).memoryMapAddress =
      (InfoRecord.readAt m'.memory record).memoryMapAddress :=
    h.word32_eq hset 48 rfl
  rw [locate, locate, h.mapping, hlength, haddress]

/-- The command line of a module. -/
theorem moduleLine_eq {list : ModuleList}
    (hlist : (InfoRecord.readAt m.memory record).modules? m = .ok (some list)) {i : Nat}
    (hi : i < list.remaining) :
    m.string (m.memory.word32 (list.position.toNat + ModuleList.entrySize * i + 8)) =
      m'.string (m.memory.word32 (list.position.toNat + ModuleList.entrySize * i + 8)) := by
  have htable := h.apart _ (.inl (.modules hlist))
  have hpointer : m.memory.word32 (list.position.toNat + ModuleList.entrySize * i + 8) =
      m'.memory.word32 (list.position.toNat + ModuleList.entrySize * i + 8) := by
    refine (htable.within ?_ ?_).word32
    all_goals
      simp only [ModuleList.entrySize]
      omega
  refine (h.stringBlock_eq ?_ ?_).2
  · exact fun block hblock => .moduleLine hlist hi hblock
  · rw [hpointer]
    exact fun block hblock => .moduleLine (h.modules?_eq ▸ hlist) hi hblock

end MappedMemory.SameReport

end EarlyBoot
