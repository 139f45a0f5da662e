import EarlyBoot.Proofs.Loader.LittleEndian
import EarlyBoot.Proofs.Loader.Lookups

/-!
The boot information as the loader writes it. The record and the APM table are fields at fixed
offsets, one behind the other, each with its lowest byte first. The record is read as it was
written, and the bits of its flags word alone decide which parts of it are there.
-/

namespace EarlyBoot

/-- A field of a table: where it starts, how many bytes it has, and its value. -/
structure TableField where
  offset : Nat
  width : Nat
  value : Nat

namespace TableField

def bytes (f : TableField) : Bytes :=
  littleEndianBytes f.width f.value

/-- Fields that fill a table from `start` to `stop` without gaps. -/
def Fill : List TableField → Nat → Nat → Prop
  | [], start, stop => start = stop
  | f :: rest, start, stop => f.offset = start ∧ Fill rest (start + f.width) stop

end TableField

namespace Memory

/-- Memory has every field of a table at its offset from an address. -/
def HoldsTable (m : Memory) (address : Nat) (fields : List TableField) : Prop :=
  ∀ f ∈ fields, m.Holds (address + f.offset) f.bytes

variable {m : Memory} {address : Nat} {fields : List TableField}

/-- To write a table is to write the bytes of its fields in a row. -/
theorem holdsTable_of_holds {start stop : Nat} (hfill : TableField.Fill fields start stop)
    (h : m.Holds (address + start) (fields.flatMap TableField.bytes)) :
    m.HoldsTable address fields := by
  induction fields generalizing start with
  | nil => exact List.forall_mem_nil _
  | cons f rest ih =>
      obtain ⟨hoffset, hrest⟩ := hfill
      rw [List.flatMap_cons, holds_append, TableField.bytes, length_littleEndianBytes,
        Nat.add_assoc] at h
      exact List.forall_mem_cons.mpr ⟨hoffset ▸ h.1, ih hrest h.2⟩

namespace HoldsTable

variable (h : m.HoldsTable address fields) (i : Nat) {offset : Nat}

include h

theorem littleEndian_bytes {width value : Nat} (hi : fields[i]? = some ⟨offset, width, value⟩)
    (hvalue : value < 256 ^ width) :
    littleEndian (m.bytes (address + offset) width) = value := by
  have hholds := h _ (List.mem_of_getElem? hi)
  rw [Holds, TableField.bytes, length_littleEndianBytes] at hholds
  rw [hholds, littleEndian_littleEndianBytes hvalue]

theorem byteAt {b : UInt8} (hi : fields[i]? = some ⟨offset, 1, b.toNat⟩) :
    m.byteAt (address + offset) = b := by
  have hvalue := h.littleEndian_bytes i hi b.toNat_lt
  rw [bytes_succ] at hvalue
  exact UInt8.toNat_inj.mp hvalue

theorem word16 {w : UInt16} (hi : fields[i]? = some ⟨offset, 2, w.toNat⟩) :
    m.word16 (address + offset) = w := by
  rw [Memory.word16, h.littleEndian_bytes i hi w.toNat_lt, UInt16.ofNat_toNat]

theorem word32 {w : UInt32} (hi : fields[i]? = some ⟨offset, 4, w.toNat⟩) :
    m.word32 (address + offset) = w := by
  rw [Memory.word32, h.littleEndian_bytes i hi w.toNat_lt, UInt32.ofNat_toNat]

theorem word64 {w : UInt64} (hi : fields[i]? = some ⟨offset, 8, w.toNat⟩) :
    m.word64 (address + offset) = w := by
  rw [Memory.word64, h.littleEndian_bytes i hi w.toNat_lt, UInt64.ofNat_toNat]

end HoldsTable

end Memory

namespace ApmTable

def size : Nat := 20

def fields (apm : ApmTable) : List TableField :=
  [ ⟨0, 2, apm.version.toNat⟩,
    ⟨2, 2, apm.codeSegment.toNat⟩,
    ⟨4, 4, apm.offset.toNat⟩,
    ⟨8, 2, apm.codeSegment16.toNat⟩,
    ⟨10, 2, apm.dataSegment.toNat⟩,
    ⟨12, 2, apm.flags.toNat⟩,
    ⟨14, 2, apm.codeSegmentLength.toNat⟩,
    ⟨16, 2, apm.codeSegment16Length.toNat⟩,
    ⟨18, 2, apm.dataSegmentLength.toNat⟩ ]

theorem fill_fields (apm : ApmTable) : TableField.Fill apm.fields 0 size := by
  simp [TableField.Fill, fields, size]

theorem readAt_of_holdsTable {m : Memory} {address : Nat} {apm : ApmTable}
    (h : m.HoldsTable address apm.fields) : readAt m address = apm := by
  have hversion : m.word16 address = apm.version := h.word16 0 rfl
  simp only [readAt, hversion, h.word16 1 rfl, h.word32 2 rfl, h.word16 3 rfl, h.word16 4 rfl,
    h.word16 5 rfl, h.word16 6 rfl, h.word16 7 rfl, h.word16 8 rfl]

end ApmTable

namespace InfoRecord

/-- The fields of a record. The words from offset 28 on and the bytes from offset 110 on have more
than one meaning. -/
def fields (info : InfoRecord) : List TableField :=
  [ ⟨0, 4, info.flags.toNat⟩,
    ⟨4, 4, info.memLower.toNat⟩,
    ⟨8, 4, info.memUpper.toNat⟩,
    ⟨12, 4, info.bootDevice.toNat⟩,
    ⟨16, 4, info.commandLine.toNat⟩,
    ⟨20, 4, info.modulesCount.toNat⟩,
    ⟨24, 4, info.modulesAddress.toNat⟩,
    ⟨28, 4, info.symbols.first.toNat⟩,
    ⟨32, 4, info.symbols.second.toNat⟩,
    ⟨36, 4, info.symbols.third.toNat⟩,
    ⟨40, 4, info.symbols.fourth.toNat⟩,
    ⟨44, 4, info.memoryMapLength.toNat⟩,
    ⟨48, 4, info.memoryMapAddress.toNat⟩,
    ⟨52, 4, info.drivesLength.toNat⟩,
    ⟨56, 4, info.drivesAddress.toNat⟩,
    ⟨60, 4, info.configTable.toNat⟩,
    ⟨64, 4, info.bootLoaderName.toNat⟩,
    ⟨68, 4, info.apmTable.toNat⟩,
    ⟨72, 4, info.vbeControlInfo.toNat⟩,
    ⟨76, 4, info.vbeModeInfo.toNat⟩,
    ⟨80, 2, info.vbeMode.toNat⟩,
    ⟨82, 2, info.vbeInterfaceSegment.toNat⟩,
    ⟨84, 2, info.vbeInterfaceOffset.toNat⟩,
    ⟨86, 2, info.vbeInterfaceLength.toNat⟩,
    ⟨88, 8, info.framebufferAddress.toNat⟩,
    ⟨96, 4, info.framebufferPitch.toNat⟩,
    ⟨100, 4, info.framebufferWidth.toNat⟩,
    ⟨104, 4, info.framebufferHeight.toNat⟩,
    ⟨108, 1, info.framebufferDepth.toNat⟩,
    ⟨109, 1, info.framebufferType.toNat⟩,
    ⟨110, 1, info.colorFields.redPosition.toNat⟩,
    ⟨111, 1, info.colorFields.redMaskSize.toNat⟩,
    ⟨112, 1, info.colorFields.greenPosition.toNat⟩,
    ⟨113, 1, info.colorFields.greenMaskSize.toNat⟩,
    ⟨114, 1, info.colorFields.bluePosition.toNat⟩,
    ⟨115, 1, info.colorFields.blueMaskSize.toNat⟩ ]

theorem fill_fields (info : InfoRecord) : TableField.Fill info.fields 0 size := by
  simp [TableField.Fill, fields, size]

theorem readAt_of_holdsTable {m : Memory} {address : Nat} {info : InfoRecord}
    (h : m.HoldsTable address info.fields) : readAt m address = info := by
  have hflags : m.word32 address = info.flags := h.word32 0 rfl
  simp only [readAt, hflags, h.word32 1 rfl, h.word32 2 rfl, h.word32 3 rfl, h.word32 4 rfl,
    h.word32 5 rfl, h.word32 6 rfl, h.word32 7 rfl, h.word32 8 rfl, h.word32 9 rfl,
    h.word32 10 rfl, h.word32 11 rfl, h.word32 12 rfl, h.word32 13 rfl, h.word32 14 rfl,
    h.word32 15 rfl, h.word32 16 rfl, h.word32 17 rfl, h.word32 18 rfl, h.word32 19 rfl,
    h.word16 20 rfl, h.word16 21 rfl, h.word16 22 rfl, h.word16 23 rfl, h.word64 24 rfl,
    h.word32 25 rfl, h.word32 26 rfl, h.word32 27 rfl, h.byteAt 28 rfl, h.byteAt 29 rfl,
    h.byteAt 30 rfl, h.byteAt 31 rfl, h.byteAt 32 rfl, h.byteAt 33 rfl, h.byteAt 34 rfl,
    h.byteAt 35 rfl]

/-- Whether a bit of the flags word is set. -/
def isSet (info : InfoRecord) (bit : Nat) : Bool :=
  info.flags.toNat.testBit bit

theorem has_eq_isSet (info : InfoRecord) (flag : InfoFlag) : info.has flag = info.isSet flag.bit :=
  info.has_eq_testBit flag

theorem part?_eq {α : Type} (info : InfoRecord) (flag : InfoFlag) (value : α) :
    info.part? flag value = if info.isSet flag.bit then some value else none := by
  rw [part?, has_eq_isSet]

theorem toNat_infoFlags (info : InfoRecord) :
    info.infoFlags.word.toNat = info.flags.toNat % 2 ^ 13 := by
  have hknown : InfoFlags.known.toNat = 2 ^ 13 - 1 := rfl
  rw [infoFlags, InfoFlags.ofWord, UInt32.toNat_and, hknown, Nat.and_two_pow_sub_one_eq_mod]

/-- Some flags are set if all their bits are among the lowest thirteen bits that are set. -/
theorem includes_infoFlags (info : InfoRecord) (flags : InfoFlags) :
    info.infoFlags.includes flags = true ↔
      ∀ bit, flags.word.toNat.testBit bit = true → bit < 13 ∧ info.isSet bit = true := by
  have hbits (bit : Nat) : (info.infoFlags.word &&& flags.word).toNat.testBit bit =
      (decide (bit < 13) && info.isSet bit && flags.word.toNat.testBit bit) := by
    rw [UInt32.toNat_and, Nat.testBit_and, toNat_infoFlags, Nat.testBit_mod_two_pow, isSet]
  rw [InfoFlags.includes, beq_iff_eq, ← UInt32.toNat_inj]
  constructor
  · intro hsame bit hbit
    have hset := hbits bit
    rw [hsame, hbit, Bool.and_true] at hset
    simpa using hset.symm
  · intro hset
    refine Nat.eq_of_testBit_eq fun bit => ?_
    rw [hbits]
    cases hbit : flags.word.toNat.testBit bit with
    | false => exact Bool.and_false _
    | true =>
        obtain ⟨hlt, hinfo⟩ := hset bit hbit
        rw [hinfo, decide_eq_true hlt]
        rfl

end InfoRecord

/-- The drive is the highest byte of the word, and the partitions are the bytes below it. -/
theorem BootDevice.bytes_ofWord (w : UInt32) :
    (ofWord w).drive :: (ofWord w).partitions = (littleEndianBytes 4 w.toNat).reverse := by
  simp [ofWord, littleEndianBytes, ← UInt8.toNat_inj, Nat.shiftRight_eq_div_pow]
  omega

namespace ColorFields

/-- The six bytes of color information are the address of a palette and the number of its
colors. -/
theorem bytes_eq_palette (f : ColorFields) :
    f.bytes = littleEndianBytes 4 f.paletteAddress.toNat ++
      littleEndianBytes 2 f.paletteSize.toNat := by
  have haddress : f.paletteAddress.toNat = littleEndian (f.bytes.take 4) := by
    have hlt : littleEndian (f.bytes.take 4) < 256 ^ 4 := littleEndian_lt (f.bytes.take 4)
    rw [paletteAddress, UInt32.toNat_ofNat']
    exact Nat.mod_eq_of_lt (Nat.lt_of_lt_of_eq hlt (by decide))
  have hsize : f.paletteSize.toNat = littleEndian (f.bytes.drop 4) := by
    have hlt : littleEndian (f.bytes.drop 4) < 256 ^ 2 := littleEndian_lt (f.bytes.drop 4)
    rw [paletteSize, UInt16.toNat_ofNat']
    exact Nat.mod_eq_of_lt (Nat.lt_of_lt_of_eq hlt (by decide))
  have hfirst : littleEndianBytes 4 (littleEndian (f.bytes.take 4)) = f.bytes.take 4 :=
    littleEndianBytes_littleEndian (f.bytes.take 4)
  have hlast : littleEndianBytes 2 (littleEndian (f.bytes.drop 4)) = f.bytes.drop 4 :=
    littleEndianBytes_littleEndian (f.bytes.drop 4)
  rw [haddress, hsize, hfirst, hlast, List.take_append_drop]

end ColorFields

namespace InfoRecord

/-- What the color information of a record means, by the type of its framebuffer. -/
inductive PixelsAs (info : InfoRecord) : PixelFormat → Prop where
  | indexed {palette : UInt32} {colors : UInt16} : info.framebufferType = 0 →
      info.colorFields.bytes =
        littleEndianBytes 4 palette.toNat ++ littleEndianBytes 2 colors.toNat →
      PixelsAs info (.indexed (.ofWord palette) colors)
  | rgb : info.framebufferType = 1 → PixelsAs info (.rgb info.colorFields)
  | egaText : info.framebufferType = 2 → PixelsAs info .egaText
  | unknown : 2 < info.framebufferType → PixelsAs info (.unknown info.framebufferType)

theorem pixelsAs_pixelFormat (info : InfoRecord) : info.PixelsAs info.pixelFormat := by
  have htype {n : Nat} (h : info.framebufferType.toNat = n) (hn : n < 256) :
      info.framebufferType = UInt8.ofNat n := by
    rw [← h, UInt8.ofNat_toNat]
  unfold pixelFormat
  split
  · rename_i hzero
    exact .indexed (htype hzero (by decide)) info.colorFields.bytes_eq_palette
  · rename_i hone
    exact .rgb (htype hone (by decide))
  · rename_i htwo
    exact .egaText (htype htwo (by decide))
  · rename_i hzero hone htwo
    have hlarge : 2 < info.framebufferType.toNat := by
      simp only [imp_false] at hzero hone htwo
      omega
    exact .unknown (UInt8.lt_iff_toNat_lt.mpr hlarge)

/-- What is found in a record, in terms of the record that was written and of the APM table that
it points to. -/
structure ReadsAs (found : InfoRecord) (m : MappedMemory) (info : InfoRecord) (apm : ApmTable) :
    Prop where
  word : found.flags = info.flags
  known : found.infoFlags.word.toNat = info.flags.toNat % 2 ^ 13
  includes : ∀ flags : InfoFlags, found.infoFlags.includes flags = true ↔
    ∀ bit, flags.word.toNat.testBit bit = true → bit < 13 ∧ info.isSet bit = true
  memorySizes : found.memorySizes? =
    if info.isSet 0 then some ⟨info.memLower, info.memUpper⟩ else none
  bootDevice : ∃ device : BootDevice,
    device.drive :: device.partitions = (littleEndianBytes 4 info.bootDevice.toNat).reverse ∧
      found.bootDevice? = if info.isSet 1 then some device else none
  symbols : found.symbols? =
    if info.isSet 4 = info.isSet 5 then none
    else if info.isSet 4 then some (.aout info.symbols) else some (.elf info.symbols)
  drives : found.drives? =
    if info.isSet 7 then some ⟨.ofWord info.drivesAddress, info.drivesLength⟩ else none
  configTable : found.configTable? =
    if info.isSet 8 then some (.ofWord info.configTable) else none
  apmTable : found.apmTable? m = .ok (if info.isSet 10 then some apm else none)
  vbe : found.vbe? =
    if info.isSet 11 then
      some
        { controlInfo := .ofWord info.vbeControlInfo
          modeInfo := .ofWord info.vbeModeInfo
          mode := info.vbeMode
          interfaceSegment := info.vbeInterfaceSegment
          interfaceOffset := info.vbeInterfaceOffset
          interfaceLength := info.vbeInterfaceLength }
    else none
  framebuffer : ∃ format, info.PixelsAs format ∧ found.framebuffer? =
    if info.isSet 12 then
      some
        { address := .ofLongWord info.framebufferAddress
          pitch := info.framebufferPitch
          width := info.framebufferWidth
          height := info.framebufferHeight
          depth := info.framebufferDepth
          format := format }
    else none

theorem symbols?_eq (info : InfoRecord) : info.symbols? =
    if info.isSet 4 = info.isSet 5 then none
    else if info.isSet 4 then some (.aout info.symbols) else some (.elf info.symbols) := by
  have haout : info.has .aoutSymbols = info.isSet 4 := info.has_eq_isSet .aoutSymbols
  have helf : info.has .elfSections = info.isSet 5 := info.has_eq_isSet .elfSections
  rw [symbols?, haout, helf]
  cases info.isSet 4 <;> cases info.isSet 5 <;> rfl

end InfoRecord

namespace MappedMemory

/-- An address inside the mapping that is shown at some virtual address. -/
def Covers (m : MappedMemory) (address : Address .loader) : Prop :=
  m.mapping.contains address.extend = true ∧ m.mapping.place address < 2 ^ 64

theorem locate_of_covers {m : MappedMemory} {address : Address .loader} (h : m.Covers address) :
    m.locate address = .ok ⟨m.mapping.place address, h.2⟩ := by
  obtain ⟨hbase, hend⟩ := DirectMapping.contains_iff.mp h.1
  exact DirectMapping.toVirtual_eq_ok_iff.mpr ⟨hbase, hend, rfl⟩

theorem apmTable?_of_holdsTable {m : MappedMemory} {info : InfoRecord} {apm : ApmTable}
    (h : info.isSet 10 = true → m.Covers (.ofWord info.apmTable) ∧
      m.memory.HoldsTable (m.mapping.place (.ofWord info.apmTable)) apm.fields) :
    info.apmTable? m = .ok (if info.isSet 10 then some apm else none) := by
  have hflag : info.has .apmTable = info.isSet 10 := info.has_eq_isSet .apmTable
  rw [InfoRecord.apmTable?, InfoRecord.located?, hflag]
  cases hset : info.isSet 10 with
  | false => rfl
  | true =>
      obtain ⟨hcovers, hholds⟩ := h hset
      rw [locate_of_covers hcovers]
      exact congrArg (fun table => Except.ok (some table)) (ApmTable.readAt_of_holdsTable hholds)

/-- A record is read as it was written, wherever in the mapping it lies and whatever bits its
flags word has: each part is there exactly if its bit is set, and then it has the values that were
written. -/
theorem record_reads_as_written (m : MappedMemory) (address : Address .loader)
    (info : InfoRecord) (apm : ApmTable) (haddress : m.Covers address)
    (hrecord : m.memory.HoldsTable (m.mapping.place address) info.fields)
    (hapm : info.isSet 10 = true → m.Covers (.ofWord info.apmTable) ∧
      m.memory.HoldsTable (m.mapping.place (.ofWord info.apmTable)) apm.fields) :
    ∃ record, m.locate address = .ok record ∧
      (InfoRecord.readAt m.memory record.toNat).ReadsAs m info apm := by
  refine ⟨_, locate_of_covers haddress, ?_⟩
  rw [InfoRecord.readAt_of_holdsTable hrecord]
  exact
    { word := rfl
      known := info.toNat_infoFlags
      includes := info.includes_infoFlags
      memorySizes := info.part?_eq .memory _
      bootDevice := ⟨_, BootDevice.bytes_ofWord info.bootDevice, info.part?_eq .bootDevice _⟩
      symbols := info.symbols?_eq
      drives := info.part?_eq .drives _
      configTable := info.part?_eq .configTable _
      apmTable := apmTable?_of_holdsTable hapm
      vbe := info.part?_eq .vbe _
      framebuffer := ⟨_, info.pixelsAs_pixelFormat, info.part?_eq .framebuffer _⟩ }

/-- A record with all flags but one, unknown ones included, and with a palette. -/
def sampleRecord : InfoRecord where
  flags := 0xFFFFFFEF
  memLower := 639
  memUpper := 0x0001FC00
  bootDevice := 0x80010203
  commandLine := 0x11121314
  modulesCount := 0x15161718
  modulesAddress := 0x191A1B1C
  symbols := ⟨0x21222324, 0x25262728, 0x292A2B2C, 0x2D2E2F30⟩
  memoryMapLength := 0x31323334
  memoryMapAddress := 0x35363738
  drivesLength := 0x41424344
  drivesAddress := 0x45464748
  configTable := 0x494A4B4C
  bootLoaderName := 0x4D4E4F50
  apmTable := 0x00100100
  vbeControlInfo := 0x51525354
  vbeModeInfo := 0x55565758
  vbeMode := 0x0118
  vbeInterfaceSegment := 0xC000
  vbeInterfaceOffset := 0x6162
  vbeInterfaceLength := 0x6364
  framebufferAddress := 0x00000001FD000000
  framebufferPitch := 1024
  framebufferWidth := 1023
  framebufferHeight := 768
  framebufferDepth := 8
  framebufferType := 0
  colorFields := ⟨0x78, 0x56, 0x34, 0x12, 0x00, 0x01⟩

def sampleApm : ApmTable where
  version := 0x0102
  codeSegment := 0xF000
  offset := 0x71727374
  codeSegment16 := 0x7576
  dataSegment := 0x7778
  flags := 0x797A
  codeSegmentLength := 0x7B7C
  codeSegment16Length := 0x7D7E
  dataSegmentLength := 0x7F80

/-- The record at an odd address in the mapping and the APM table behind it. -/
def sampleReport : MappedMemory where
  memory :=
    { byteAt := fun a =>
        if a < 0x40000100 then
          (sampleRecord.fields.flatMap TableField.bytes).getD (a - 0x40000003) 0
        else (sampleApm.fields.flatMap TableField.bytes).getD (a - 0x40000100) 0 }
  mapping := ⟨⟨0x40000000, by decide⟩, ⟨0x00100000, by decide⟩, 0x1000⟩

theorem sampleReport_reads_as_written :
    sampleReport.Covers (.ofWord 0x00100003) ∧
    sampleReport.memory.HoldsTable 0x40000003 sampleRecord.fields ∧
    (sampleReport.Covers (.ofWord 0x00100100) ∧
      sampleReport.memory.HoldsTable 0x40000100 sampleApm.fields) ∧
    ∃ record, sampleReport.locate (.ofWord 0x00100003) = .ok record ∧
      (InfoRecord.readAt sampleReport.memory record.toNat).ReadsAs sampleReport sampleRecord
        sampleApm := by
  have hcovers : sampleReport.Covers (.ofWord 0x00100003) := ⟨by decide, by decide⟩
  have hrecord : sampleReport.memory.HoldsTable 0x40000003 sampleRecord.fields := by
    refine Memory.holdsTable_of_holds sampleRecord.fill_fields ?_
    unfold Memory.Holds
    decide +kernel
  have hapm : sampleReport.Covers (.ofWord 0x00100100) ∧
      sampleReport.memory.HoldsTable 0x40000100 sampleApm.fields := by
    refine ⟨⟨by decide, by decide⟩, Memory.holdsTable_of_holds sampleApm.fill_fields ?_⟩
    unfold Memory.Holds
    decide +kernel
  exact ⟨hcovers, hrecord, hapm,
    record_reads_as_written sampleReport (.ofWord 0x00100003) sampleRecord sampleApm hcovers
      hrecord fun _ => hapm⟩

end MappedMemory

end EarlyBoot
