import EarlyBoot.Proofs.Loader.Strings

/-!
The module table as the loader writes it. The entries follow one another, and each points to a
command line that is stored elsewhere with a terminator behind it. Calls for the next module give
the modules back in their order, up to the first entry whose command line cannot be found.
-/

namespace EarlyBoot

/-- An entry of the table together with the command line that it points to. -/
structure ModuleEntry where
  start : UInt32
  stop : UInt32
  commandLine : Bytes
  /-- Where the command line is stored; zero if there is none. -/
  pointer : UInt32
  /-- The last word of the entry, which means nothing. -/
  reserved : UInt32

namespace ModuleEntry

def fields (e : ModuleEntry) : List TableField :=
  [ ⟨0, 4, e.start.toNat⟩,
    ⟨4, 4, e.stop.toNat⟩,
    ⟨8, 4, e.pointer.toNat⟩,
    ⟨12, 4, e.reserved.toNat⟩ ]

def bytes (e : ModuleEntry) : Bytes :=
  e.fields.flatMap TableField.bytes

/-- The module that the entry is about. -/
def toModule (e : ModuleEntry) : BootModule where
  start := .ofWord e.start
  stop := .ofWord e.stop
  commandLine := e.commandLine

/-- The command line is where the entry says, with a terminator behind it. -/
structure StoresLine (e : ModuleEntry) (m : MappedMemory) : Prop where
  covers : m.Covers (.ofWord e.pointer)
  held : m.memory.Holds (m.mapping.place (.ofWord e.pointer)) (e.commandLine ++ [0])
  zero_notMem : (0 : UInt8) ∉ e.commandLine
  length_le : e.commandLine.length ≤ Memory.stringLimit

/-- The entry has its command line, or has none and says so. -/
def Complete (e : ModuleEntry) (m : MappedMemory) : Prop :=
  if e.pointer = 0 then e.commandLine = [] else e.StoresLine m

theorem length_bytes (e : ModuleEntry) : e.bytes.length = ModuleList.entrySize := by
  simp [bytes, fields, TableField.bytes, ModuleList.entrySize]

theorem holdsTable {m : Memory} {e : ModuleEntry} {address : Nat} (h : m.Holds address e.bytes) :
    m.HoldsTable address e.fields := by
  have hfill : TableField.Fill e.fields 0 ModuleList.entrySize := by
    simp [TableField.Fill, fields, ModuleList.entrySize]
  exact Memory.holdsTable_of_holds hfill h

end ModuleEntry

/-- A string with its terminator is read back, also if it is as long as a string may be. -/
theorem Memory.scan_of_holds {m : Memory} {address limit : Nat} {text : Bytes}
    (h : m.Holds address (text ++ [0])) (hzero : (0 : UInt8) ∉ text)
    (hlength : text.length ≤ limit) : m.scan address limit = text := by
  induction text generalizing address limit with
  | nil =>
      cases limit with
      | zero => rfl
      | succ limit =>
          have hbyte : m.byteAt address = 0 := (List.cons.inj h).1
          rw [scan, if_pos hbyte]
  | cons b rest ih =>
      obtain ⟨hb, hrest⟩ := not_or.mp (mt List.mem_cons.mpr hzero)
      cases limit with
      | zero => cases hlength
      | succ limit =>
          rw [List.cons_append, Holds, List.length_cons, bytes_succ] at h
          obtain ⟨hbyte, hbehind⟩ := List.cons.inj h
          rw [scan, hbyte, if_neg (Ne.symm hb)]
          exact congrArg (b :: ·) (ih hbehind hrest (Nat.le_of_succ_le_succ hlength))

theorem ModuleEntry.Complete.string_eq {e : ModuleEntry} {m : MappedMemory} (h : e.Complete m) :
    m.string e.pointer = .ok e.commandLine := by
  unfold ModuleEntry.Complete at h
  split at h
  · rename_i hnone
    rw [hnone, h]
    rfl
  · rename_i hpointer
    have hline : m.memory.stringAt (m.mapping.place (.ofWord e.pointer)) = e.commandLine :=
      Memory.scan_of_holds h.held h.zero_notMem h.length_le
    rw [MappedMemory.string_of_locate hpointer (MappedMemory.locate_of_covers h.covers), hline]

namespace ModuleList

/-- The answers of `n` calls in a row, and the list that they leave. -/
def calls (m : MappedMemory) :
    Nat → ModuleList → Except Fault (List (Option BootModule) × ModuleList)
  | 0, list => .ok ([], list)
  | n + 1, list => do
    let answer ← list.next m
    let (answers, rest) ← calls m n ((answer.map (·.2)).getD list)
    return (answer.map (·.1) :: answers, rest)

/-- The entries that a list still has before it. Their end is an address. -/
structure Lists (m : Memory) (list : ModuleList) (entries : List ModuleEntry) : Prop where
  held : m.Holds list.position.toNat (entries.flatMap ModuleEntry.bytes)
  remaining : list.remaining = entries.length
  fits : list.position.toNat + entrySize * entries.length < 2 ^ 64

section

variable {m : MappedMemory} {list : ModuleList}

/-- Once there is no module left there never is. -/
theorem next_of_nil (h : Lists m.memory list []) : list.next m = .ok none := by
  have hnone : list.remaining = 0 := h.remaining
  rw [next, if_pos hnone]
  rfl

variable {e : ModuleEntry} {rest : List ModuleEntry} (h : Lists m.memory list (e :: rest))

include h

/-- The next module is the one of the first entry, if the command line can be read. -/
theorem next_of_cons : ∃ after : ModuleList, Lists m.memory after rest ∧
    list.next m = (m.string e.pointer).map fun line =>
      some (⟨.ofWord e.start, .ofWord e.stop, line⟩, after) := by
  obtain ⟨hheld, hremaining, hfits⟩ := h
  rw [List.flatMap_cons, Memory.holds_append, e.length_bytes] at hheld
  rw [List.length_cons] at hremaining hfits
  have hstep : list.position.toNat + entrySize < 2 ^ AddressSpace.bits .virtual := by
    simp only [entrySize, AddressSpace.bits] at hfits ⊢
    omega
  have hadd : list.position.add entrySize = .ok ⟨list.position.toNat + entrySize, hstep⟩ :=
    dif_pos hstep
  have htable := ModuleEntry.holdsTable hheld.1
  have hstart : m.memory.word32 list.position.toNat = e.start := htable.word32 0 rfl
  have hstop : m.memory.word32 (list.position.toNat + 4) = e.stop := htable.word32 1 rfl
  have hpointer : m.memory.word32 (list.position.toNat + 8) = e.pointer := htable.word32 2 rfl
  refine ⟨⟨⟨list.position.toNat + entrySize, hstep⟩, rest.length⟩, ⟨hheld.2, rfl, ?_⟩, ?_⟩
  · change list.position.toNat + entrySize + entrySize * rest.length < 2 ^ 64
    rw [Nat.mul_succ] at hfits
    omega
  · rw [next, if_neg (by omega), hadd]
    simp only [hstart, hstop, hpointer, hremaining, Nat.add_sub_cancel]
    cases m.string e.pointer <;> rfl

end

/-- Calls in a row give the modules of the entries in their order, and none behind the last one. -/
theorem calls_eq {m : MappedMemory} (n : Nat) {list : ModuleList} {entries : List ModuleEntry}
    (h : Lists m.memory list entries) (hcomplete : ∀ e ∈ entries.take n, e.Complete m) :
    ∃ rest, Lists m.memory rest (entries.drop n) ∧
      list.calls m n = .ok ((List.range n).map ((entries.map ModuleEntry.toModule)[·]?), rest) := by
  induction n generalizing list entries with
  | zero => exact ⟨list, h, rfl⟩
  | succ n ih =>
      rw [calls, List.range_succ_eq_map, List.map_cons, List.map_map]
      cases entries with
      | nil =>
          obtain ⟨rest, hrest, hcalls⟩ := ih h (by simp)
          rw [List.drop_nil] at hrest
          refine ⟨rest, hrest, ?_⟩
          rw [next_of_nil h]
          simp only [bind, Except.bind, Option.map_none, Option.getD_none, hcalls]
          rfl
      | cons e behind =>
          obtain ⟨hfirst, hlater⟩ := List.forall_mem_cons.mp hcomplete
          obtain ⟨after, hafter, hnext⟩ := next_of_cons h
          obtain ⟨rest, hrest, hcalls⟩ := ih hafter hlater
          refine ⟨rest, hrest, ?_⟩
          rw [hnext, hfirst.string_eq]
          simp only [bind, Except.bind, Except.map, Option.map_some, Option.getD_some, hcalls]
          rfl

end ModuleList

namespace BootModule

theorem length_eq_max (m : BootModule) :
    (m.length : Int) = max 0 ((m.stop.toNat : Int) - m.start.toNat) := by
  unfold length
  omega

theorem isEmpty_iff (m : BootModule) : m.isEmpty = true ↔ m.stop.toNat ≤ m.start.toNat := by
  rw [isEmpty, beq_iff_eq, length]
  omega

end BootModule

namespace MappedMemory

theorem modules?_of_covers {m : MappedMemory} {info : InfoRecord} (hflag : info.isSet 3 = true)
    (haddress : m.Covers (.ofWord info.modulesAddress)) :
    info.modules? m = .ok (some
      ⟨⟨m.mapping.place (.ofWord info.modulesAddress), haddress.2⟩, info.modulesCount.toNat⟩) := by
  have hhas : info.has .modules = true := (info.has_eq_isSet .modules).trans hflag
  rw [InfoRecord.modules?, InfoRecord.located?, if_pos hhas, locate_of_covers haddress]
  rfl

/-- The module table is read as it was written, with any number of entries. As long as the command
lines are where the entries say, calls in a row give the modules in their order and none behind the
last one, and before each call the hint names the number of modules that are left. The call that
comes to a command line outside the mapping is the one that fails. Like all memory that can be
read, the table has an address as its end. -/
theorem modules_read_as_written (m : MappedMemory) (info : InfoRecord)
    (entries : List ModuleEntry) (hflag : info.isSet 3 = true)
    (hcount : info.modulesCount.toNat = entries.length)
    (haddress : m.Covers (.ofWord info.modulesAddress))
    (htable : m.memory.Holds (m.mapping.place (.ofWord info.modulesAddress))
      (entries.flatMap ModuleEntry.bytes))
    (hfits : m.mapping.place (.ofWord info.modulesAddress) + 16 * entries.length < 2 ^ 64) :
    ∃ list, info.modules? m = .ok (some list) ∧
      (∀ n, (∀ e ∈ entries.take n, e.Complete m) → ∃ rest,
        list.calls m n =
          .ok ((List.range n).map ((entries.map ModuleEntry.toModule)[·]?), rest) ∧
        rest.sizeHint = (entries.length - n, some (entries.length - n)) ∧
        ∀ e, entries[n]? = some e → e.pointer ≠ 0 →
          m.mapping.contains (Address.ofWord e.pointer).extend = false →
          rest.next m = .error (.unmapped e.pointer.toNat)) ∧
      ∀ e ∈ entries,
        (e.toModule.length : Int) = max 0 ((e.stop.toNat : Int) - e.start.toNat) ∧
        (e.toModule.isEmpty = true ↔ e.stop.toNat ≤ e.start.toNat) := by
  refine ⟨_, modules?_of_covers hflag haddress, fun n hcomplete => ?_,
    fun e _ => ⟨e.toModule.length_eq_max, e.toModule.isEmpty_iff⟩⟩
  have hlists : ModuleList.Lists m.memory
      ⟨⟨m.mapping.place (.ofWord info.modulesAddress), haddress.2⟩, info.modulesCount.toNat⟩
      entries := ⟨htable, hcount, hfits⟩
  obtain ⟨rest, hrest, hcalls⟩ := ModuleList.calls_eq n hlists hcomplete
  refine ⟨rest, hcalls, ?_, fun e he hpointer hunmapped => ?_⟩
  · rw [ModuleList.sizeHint, hrest.remaining, List.length_drop]
  · have hfault : m.locate (.ofWord e.pointer) = .error (.unmapped e.pointer.toNat) :=
      DirectMapping.toVirtual_of_not_contains (Bool.eq_false_iff.mp hunmapped)
    obtain ⟨hn, rfl⟩ := List.getElem?_eq_some_iff.mp he
    rw [List.drop_eq_getElem_cons hn] at hrest
    obtain ⟨after, -, hnext⟩ := ModuleList.next_of_cons hrest
    rw [hnext, string_of_locate_error hpointer hfault]
    rfl

/-- A module with a command line, one that ends before it starts and has none, and one whose
command line lies outside the mapping. -/
def sampleEntries : List ModuleEntry :=
  [ ⟨0x00400000, 0x00401234, Bytes.ofText "initrd", 0x00200200, 0xEEEEEEEE⟩,
    ⟨0x00500000, 0x004FFFFF, [], 0, 0⟩,
    ⟨0x00600000, 0x00600000, [], 0x001FFFFF, 0⟩ ]

/-- A report on the first `count` of the modules. -/
def sampleModules (count : UInt32) : InfoRecord :=
  { InfoRecord.empty 8 with modulesCount := count, modulesAddress := 0x00200101 }

/-- The table at an odd address in the mapping and the command line behind it. -/
def moduleMemory : MappedMemory where
  memory :=
    { byteAt := fun a =>
        if a < 0x50000200 then (sampleEntries.flatMap ModuleEntry.bytes).getD (a - 0x50000101) 0
        else (Bytes.ofText "initrd").getD (a - 0x50000200) 0 }
  mapping := ⟨⟨0x50000000, by decide⟩, ⟨0x00200000, by decide⟩, 0x1000⟩

theorem modules_of_sampleEntries :
    moduleMemory.Covers (.ofWord 0x00200101) ∧
    moduleMemory.memory.Holds 0x50000101 (sampleEntries.flatMap ModuleEntry.bytes) ∧
    (∀ e ∈ sampleEntries.take 2, e.Complete moduleMemory) ∧
    (∃ list rest, (sampleModules 2).modules? moduleMemory = .ok (some list) ∧
      list.calls moduleMemory 4 =
        .ok ([some ⟨.ofWord 0x00400000, .ofWord 0x00401234, Bytes.ofText "initrd"⟩,
          some ⟨.ofWord 0x00500000, .ofWord 0x004FFFFF, []⟩, none, none], rest)) ∧
    ∃ list rest, (sampleModules 3).modules? moduleMemory = .ok (some list) ∧
      list.calls moduleMemory 2 =
        .ok ([some ⟨.ofWord 0x00400000, .ofWord 0x00401234, Bytes.ofText "initrd"⟩,
          some ⟨.ofWord 0x00500000, .ofWord 0x004FFFFF, []⟩], rest) ∧
      rest.sizeHint = (1, some 1) ∧ rest.next moduleMemory = .error (.unmapped 0x001FFFFF) := by
  have hcovers : moduleMemory.Covers (.ofWord 0x00200101) := ⟨by decide, by decide⟩
  have htable : moduleMemory.memory.Holds 0x50000101 (sampleEntries.flatMap ModuleEntry.bytes) := by
    unfold Memory.Holds
    decide +kernel
  have hcomplete : ∀ e ∈ sampleEntries.take 2, e.Complete moduleMemory := by
    refine List.forall_mem_cons.mpr ⟨?_, List.forall_mem_singleton.mpr rfl⟩
    have hheld : moduleMemory.memory.Holds 0x50000200 (Bytes.ofText "initrd" ++ [0]) := by
      unfold Memory.Holds
      decide +kernel
    exact ⟨⟨by decide, by decide⟩, hheld, by decide, by decide⟩
  have htwo : moduleMemory.memory.Holds 0x50000101
      ((sampleEntries.take 2).flatMap ModuleEntry.bytes) := by
    unfold Memory.Holds
    decide +kernel
  obtain ⟨two, hfound, hcalls, -⟩ := modules_read_as_written moduleMemory (sampleModules 2)
    (sampleEntries.take 2) rfl rfl hcovers htwo (by decide)
  obtain ⟨behind, hfour, -⟩ := hcalls 4 hcomplete
  obtain ⟨three, hlist, hmore, -⟩ := modules_read_as_written moduleMemory (sampleModules 3)
    sampleEntries rfl rfl hcovers htable (by decide)
  obtain ⟨rest, hread, hhint, hfault⟩ := hmore 2 hcomplete
  exact ⟨hcovers, htable, hcomplete, ⟨two, behind, hfound, hfour⟩, three, rest, hlist, hread,
    hhint, hfault _ rfl (by decide) (by decide)⟩

end MappedMemory

end EarlyBoot
