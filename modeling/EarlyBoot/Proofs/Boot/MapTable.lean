import EarlyBoot.Proofs.Boot.Filtering
import EarlyBoot.Proofs.Boot.Script
import EarlyBoot.Proofs.Console.Ring
import EarlyBoot.Proofs.Loader.Agreement
import EarlyBoot.Proofs.Numeral.Digits

/-!
The memory map on the screen. The table has a line for each region with everything in fixed
columns, so that each number can be read back from it. No line fills its row: a map of any length
runs around the screen row by row, and the lines that are still there at its end are the last
ones.
-/

namespace EarlyBoot

/-- The console shows `0x` and sixteen lowercase digits, which stand for this number. -/
def Console.ShowsLongWord (c : Console) (row column n : Nat) (colors : Attribute) : Prop :=
  ∃ digits : List Nat, digits.length = 16 ∧ (∀ d ∈ digits, d < 16) ∧
    Numeral.valueOf .hexadecimal digits = n ∧
    c.ShowsAt row column (Bytes.ofText "0x" ++ digits.map Numeral.digitByte) colors

/-- The console shows a region in a row, each part of it in its columns. -/
structure Console.ShowsRegion (c : Console) (row : Nat) (r : MemoryRegion) (colors : Attribute) :
    Prop where
  letter : c.ShowsAt row 1 [r.type.letter.toUInt8] colors
  base : c.ShowsLongWord row 5 r.base.toNat colors
  length : c.ShowsLongWord row 24 r.length.toNat colors
  description : c.ShowsAt row 43 (Bytes.ofText r.type.description) colors

namespace Boot.Report

/-- The lines of the table: the headings, one for each region, and the sum. -/
def tableTexts (regions : List MemoryRegion) (available : UInt64) : List String :=
  "Memory map:" :: tableHead :: (regions.map tableRow ++
    [" Available: " ++ Numeral.decimalText (available.toNat / 1024 / 1024) ++ " MiB"])

theorem length_tableTexts (regions : List MemoryRegion) (available : UInt64) :
    (tableTexts regions available).length = regions.length + 3 := by
  simp [tableTexts]

/-- The line of a region stands behind the two headings. -/
theorem getElem?_tableTexts {regions : List MemoryRegion} {available : UInt64} {i : Nat}
    (h : i < regions.length) :
    (tableTexts regions available)[2 + i]? = some (tableRow regions[i]) := by
  rw [tableTexts, Nat.add_comm, List.getElem?_cons_succ, List.getElem?_cons_succ,
    List.getElem?_append_left (by rwa [List.length_map]), List.getElem?_map,
    List.getElem?_eq_getElem h]
  rfl

theorem ofText_letter (t : RegionType) :
    Bytes.ofText (centered 4 t.letter.toString) =
      Bytes.ofText " " ++ ([t.letter.toUInt8] ++ Bytes.ofText "  ") := by
  unfold RegionType.letter
  split <;> decide +kernel

theorem ofText_longWord (n : Nat) :
    Bytes.ofText (Bytes.glyphs (Numeral.prefixedHex 16 n)) = Numeral.prefixedHex 16 n :=
  Bytes.ofText_glyphs fun _ hbyte =>
    Ascii.lt_of_isPrintable (Numeral.isPrintable_of_mem_prefixedHex hbyte)

theorem length_longWord {n : Nat} (h : n < 16 ^ (15 + 1)) :
    (Numeral.prefixedHex 16 n).length = 18 :=
  Numeral.length_prefixedHex h

theorem showsLongWord_of_prefixedHex {c : Console} {row column n : Nat} {colors : Attribute}
    (hn : n < 16 ^ (15 + 1)) (h : c.ShowsAt row column (Numeral.prefixedHex 16 n) colors) :
    c.ShowsLongWord row column n colors := by
  rw [Numeral.prefixedHex_eq hn] at h
  exact ⟨_, Numeral.length_fixedDigits _ _ _,
    fun _ hd => Numeral.lt_of_mem_fixedDigits .hexadecimal hd,
    Numeral.valueOf_fixedDigits _ hn, h⟩

/-- The bytes of a row, part by part. -/
theorem ofText_tableRow (r : MemoryRegion) :
    Bytes.ofText (tableRow r) =
      Bytes.ofText " " ++ ([r.type.letter.toUInt8] ++ (Bytes.ofText "   " ++
        (Numeral.prefixedHex 16 r.base.toNat ++ (Bytes.ofText " " ++
          (Numeral.prefixedHex 16 r.length.toNat ++ (Bytes.ofText " " ++
            Bytes.ofText r.type.description)))))) := by
  have hrow : tableRow r = centered 4 r.type.letter.toString ++ " "
      ++ Bytes.glyphs (Numeral.prefixedHex 16 r.base.toNat) ++ " "
      ++ Bytes.glyphs (Numeral.prefixedHex 16 r.length.toNat) ++ " "
      ++ r.type.description := rfl
  have hgap : Bytes.ofText "   " = Bytes.ofText "  " ++ Bytes.ofText " " := rfl
  simp only [hrow, hgap, Bytes.ofText_append, ofText_letter, ofText_longWord, List.append_assoc]

theorem fitsRow_tableRow (r : MemoryRegion) : Console.FitsRow (Bytes.ofText (tableRow r)) := by
  have hletter : Ascii.isPrintable r.type.letter.toUInt8 = true := by
    unfold RegionType.letter
    split <;> decide
  have hdescription : (∀ byte ∈ Bytes.ofText r.type.description, Ascii.isPrintable byte = true) ∧
      (Bytes.ofText r.type.description).length ≤ 16 := by
    unfold RegionType.description
    split <;> decide +kernel
  rw [ofText_tableRow]
  constructor
  · simp only [List.forall_mem_append, List.forall_mem_singleton]
    have hspace : ∀ byte ∈ Bytes.ofText " ", Ascii.isPrintable byte = true := by decide +kernel
    have hspaces : ∀ byte ∈ Bytes.ofText "   ", Ascii.isPrintable byte = true := by
      decide +kernel
    refine ⟨hspace, hletter, hspaces, ?_, hspace, ?_, hspace, hdescription.1⟩
    · exact fun byte hbyte => Numeral.isPrintable_of_mem_prefixedHex hbyte
    · exact fun byte hbyte => Numeral.isPrintable_of_mem_prefixedHex hbyte
  · have hgaps : (Bytes.ofText " ").length = 1 ∧ (Bytes.ofText "   ").length = 3 := ⟨rfl, rfl⟩
    simp only [List.length_append, List.length_singleton, hgaps, length_longWord r.base.isLt,
      length_longWord r.length.toNat_lt, Grid.width]
    omega

/-- The sum has at most twenty digits. -/
theorem fitsRow_available {mebibytes : Nat} (h : mebibytes < 2 ^ 64) :
    Console.FitsRow
      (Bytes.ofText (" Available: " ++ Numeral.decimalText mebibytes ++ " MiB")) := by
  have hplain : ∀ byte ∈ Numeral.digits .decimal mebibytes, byte.toNat < 128 :=
    fun _ hbyte => Ascii.lt_of_isPrintable (Numeral.isPrintable_of_mem_digits hbyte)
  have hdigits : (Numeral.digits .decimal mebibytes).length ≤ 20 :=
    Numeral.length_digits_le .decimal (Nat.lt_of_lt_of_le h (by decide))
  rw [Bytes.ofText_append, Bytes.ofText_append, Numeral.decimalText, Bytes.ofText_glyphs hplain]
  constructor
  · simp only [List.forall_mem_append]
    refine ⟨⟨by decide +kernel, ?_⟩, by decide +kernel⟩
    exact fun _ hbyte => Numeral.isPrintable_of_mem_digits hbyte
  · have hlabels : (Bytes.ofText " Available: ").length = 12 ∧ (Bytes.ofText " MiB").length = 4 :=
      ⟨rfl, rfl⟩
    simp only [List.length_append, hlabels, Grid.width]
    omega

theorem fitsRow_tableTexts (regions : List MemoryRegion) (available : UInt64) :
    ∀ text ∈ tableTexts regions available, Console.FitsRow (Bytes.ofText text) := by
  have htitle : Console.FitsRow (Bytes.ofText "Memory map:") := by decide +kernel
  have hhead : Console.FitsRow (Bytes.ofText tableHead) := by decide +kernel
  have hsum : available.toNat / 1024 / 1024 < 2 ^ 64 := by
    have hlt := available.toNat_lt
    omega
  rw [tableTexts, List.forall_mem_cons, List.forall_mem_cons, List.forall_mem_append,
    List.forall_mem_map, List.forall_mem_singleton]
  exact ⟨htitle, hhead, fun r _ => fitsRow_tableRow r, fitsRow_available hsum⟩

/-- A row in which the line of a region stands shows the region. -/
theorem showsRegion_of_tableRow {c : Console} {row : Nat} {r : MemoryRegion} {colors : Attribute}
    (h : c.ShowsAt row 0 (Bytes.ofText (tableRow r)) colors) : c.ShowsRegion row r colors := by
  rw [ofText_tableRow] at h
  obtain ⟨-, hletter⟩ := h.split
  obtain ⟨hletter, hgap⟩ := hletter.split
  obtain ⟨-, hfirst⟩ := hgap.split
  obtain ⟨hfirst, hgap⟩ := hfirst.split
  rw [length_longWord r.base.isLt] at hgap
  obtain ⟨-, hsecond⟩ := hgap.split
  obtain ⟨hsecond, hgap⟩ := hsecond.split
  rw [length_longWord r.length.toNat_lt] at hgap
  obtain ⟨-, hdescription⟩ := hgap.split
  exact ⟨hletter, showsLongWord_of_prefixedHex r.base.isLt hfirst,
    showsLongWord_of_prefixedHex r.length.toNat_lt hsecond, hdescription⟩

end Report

/-- The record with which a memory map is logged. -/
def mapRecord (entries : Nat) (available : UInt64) : LogRecord :=
  ⟨.info, Subsystems.logTarget,
    "memory map: " ++ Numeral.decimalText entries ++ " entries, "
      ++ Numeral.decimalText available.toNat ++ " bytes available"⟩

section

variable {m : LoadedMemory} {memory : Memory} {map : MemoryMap} {regions : List MemoryRegion}
  {available : UInt64} {record : Address .virtual}

theorem performs_tableRows {σ : Type} [Sink σ] {walk : MapWalk}
    (h : ∀ grid, memory.AgreeOn (m.showing grid).memory walk.position walk.stop) :
    Performs (Console.lineScript ((walk.regions memory).map Report.tableRow)) [] ()
      (Report.tableRows m walk : Boot σ Unit) := by
  induction hremaining : walk.remaining using Nat.strongRecOn generalizing walk with
  | ind remaining ih =>
      rw [Report.tableRows_eq]
      refine Performs.look_step fun grid => ?_
      rw [← MapWalk.next_congr (h grid), MapWalk.regions_eq]
      cases hnext : walk.next memory with
      | mk region after =>
          cases region with
          | none => exact Performs.pure ()
          | some region =>
              have hless := hremaining ▸ MapWalk.remaining_lt_of_next hnext
              have hrest := ih _ hless
                (fun now => MapWalk.agreeOn_behind (h now) hnext) rfl
              exact (Performs.print _).step hrest

variable (hmap : ∀ grid, (InfoRecord.readAt (m.showing grid).memory record.toNat).memoryMap?
  (m.showing grid) = .ok (some map))

include hmap in
theorem visits_memory_of_map (hroom : map.start.toNat + map.length < 2 ^ 64) (options : Options) :
    Visits m.mapping [] (fun _ => True) (Subsystems.memory ⟨m, record⟩ options) := by
  let report : LoaderReport := ⟨m, record⟩
  have hfound : Visits report.memory.mapping []
      (fun map? => ∀ found ∈ map?, found.start.toNat + found.length < 2 ^ 64)
      (part? report InfoRecord.memoryMap?) := by
    refine (Visits.look m).bind_quiet ?_
    rintro _ ⟨grid, rfl⟩
    rw [hmap grid]
    exact Visits.pure fun found hsome => Option.some_inj.mp hsome ▸ hroom
  exact visits_memory hfound options

variable
  (hapart : ∀ grid, memory.AgreeOn (m.showing grid).memory map.start.toNat
    (map.start.toNat + map.length))
  (hregions : map.regions memory = .ok regions)
  (havailable : map.availableBytes memory = .ok available)

include hapart hregions havailable

theorem performs_table {σ : Type} [Sink σ] :
    Performs (Console.lineScript (Report.tableTexts regions available)) [] ()
      (Report.memoryMap map m : Boot σ Unit) := by
  obtain ⟨walk, hwalk, rfl⟩ := MemoryMap.exists_walk_of_regions hregions
  have hscript : Console.lineScript (Report.tableTexts (walk.regions memory) available) =
      .writeText "Memory map:\n" :: .writeText (Report.tableHead ++ "\n") ::
        (Console.lineScript ((walk.regions memory).map Report.tableRow) ++
          [.writeText (" Available: " ++ Numeral.decimalText (available.toNat / 1024 / 1024) ++
            " MiB\n")]) := by
    have htitle : "Memory map:" ++ "\n" = "Memory map:\n" := rfl
    have hunit : " MiB" ++ "\n" = " MiB\n" := rfl
    simp only [Console.lineScript, Report.tableTexts, List.map_cons, List.map_append,
      List.map_nil, htitle, String.append_assoc, hunit]
  rw [hscript]
  refine (Performs.print _).step ((Performs.print _).step (Performs.orStop_step hwalk ?_))
  refine (performs_tableRows fun grid => MemoryMap.agreeOn_walk (hapart grid) hwalk).bind ?_
  refine Performs.look_step fun grid => Performs.orStop_step ?_ (Performs.print _)
  rw [← MemoryMap.availableBytes_congr (hapart grid), havailable]

theorem logs_memoryMap (options : Options) :
    LeavesFilter (fun added _ => .record (mapRecord regions.length available) ∈ added)
      (Subsystems.memoryMap map m options) := by
  have hnow (grid : Grid) : map.regions (m.showing grid).memory = .ok regions ∧
      map.availableBytes (m.showing grid).memory = .ok available :=
    ⟨(MemoryMap.regions_congr (hapart grid)).symm.trans hregions,
      (MemoryMap.availableBytes_congr (hapart grid)).symm.trans havailable⟩
  have hsums : LeavesFilter (fun added _ => .record (mapRecord regions.length available) ∈ added)
      (Subsystems.sumsStage map m) := by
    refine LeavesFilter.logMade ((LeavesFilter.look m).bind ?_)
    rintro _ _ ⟨rfl, grid, rfl⟩
    obtain ⟨hregions, havailable⟩ := hnow grid
    simp only [hregions, havailable]
    exact LeavesFilter.pure ⟨rfl, List.mem_singleton_self _⟩
  rw [Subsystems.memoryMap_eq]
  exact hsums.mem_of_first fun _ => compositional_leavesFilter.regionsStage map m options

include hmap in
theorem logs_memory (options : Options) :
    LeavesFilter (fun added _ => .record (mapRecord regions.length available) ∈ added)
      (Subsystems.memory ⟨m, record⟩ options) := by
  have hstage : LeavesFilter
      (fun added _ => .record (mapRecord regions.length available) ∈ added)
      (Subsystems.mapStage ⟨m, record⟩ options) := by
    refine (LeavesFilter.part? ⟨m, record⟩ InfoRecord.memoryMap?).bind ?_
    rintro _ found ⟨rfl, grid, hfound⟩
    cases (hmap grid).symm.trans hfound
    exact logs_memoryMap hapart hregions havailable options
  rw [Subsystems.memory_eq]
  refine LeavesFilter.mem_of_second (compositional_leavesFilter.print _) fun _ => ?_
  refine LeavesFilter.mem_of_second (compositional_leavesFilter.sizesStage _) fun _ => ?_
  exact hstage.mem_of_first fun _ => compositional_leavesFilter.print _

end

/-- A memory map is shown so that it can be read back. From the start of any row, the table of a
map that the screen does not reach takes a row for each of its lines, of which none is full; every
region whose line is less than a screen away from the end is there to be read, with its type, its
numbers and its description in their columns. The log counts as many regions as the table shows. -/
theorem table_shows_regions {m : LoadedMemory} {console : Console} {map : MemoryMap}
    {regions : List MemoryRegion} (hrow : console.row < Grid.height) (hcolumn : console.column = 0)
    (hapart : ∀ grid, (m.showing console.grid).memory.AgreeOn (m.showing grid).memory
      map.start.toNat (map.start.toNat + map.length))
    (hregions : map.regions (m.showing console.grid).memory = .ok regions) :
    ∃ available after,
      map.availableBytes (m.showing console.grid).memory = .ok available ∧
      (∀ (σ : Type) [Sink σ] (log : σ) (performed : Array Console.Operation),
        (Report.memoryMap map m).run.run ⟨console, log, performed⟩ =
          (.ok (), ⟨after, log, performed ++
            (Console.lineScript (Report.tableTexts regions available)).toArray⟩)) ∧
      after.row = (console.row + regions.length + 3) % Grid.height ∧ after.column = 0 ∧
      (∀ (σ : Type) [Sink σ],
        Performs (Console.lineScript (Report.tableTexts regions available)) [] ()
          (Report.memoryMap map m : Boot σ Unit)) ∧
      (∀ text ∈ Report.tableTexts regions available, Console.FitsRow (Bytes.ofText text)) ∧
      (∀ i (hi : i < regions.length), regions.length - i < Grid.height →
        after.ShowsRegion ((console.row + 2 + i) % Grid.height) regions[i] console.colors) ∧
      ∀ (record : Address .virtual) (options : Options) (before : Run Journal),
        (∀ grid, (InfoRecord.readAt (m.showing grid).memory record.toNat).memoryMap?
          (m.showing grid) = .ok (some map)) →
        before.console.WellPlaced →
        ∃ (last : Run Journal) (added : List Entry),
          (Subsystems.memory ⟨m, record⟩ options).run.run before = (.ok (), last) ∧
          last.log = before.log ++ added.toArray ∧
          .record (mapRecord regions.length available) ∈ added ∧
          ∀ log : SerialLog,
            (Subsystems.memory ⟨m, record⟩ options).run.run
                ⟨before.console, log, before.performed⟩ =
              (.ok (), ⟨last.console, ⟨log.filter, log.sent ++ ((added.filterMap
                Entry.record?).filter (·.level.rank ≤ log.filter.rank)).toArray⟩,
                last.performed⟩) := by
  obtain ⟨walk, hwalk, -⟩ := MemoryMap.exists_walk_of_regions hregions
  have hroom := MemoryMap.lt_of_walk hwalk
  obtain ⟨available, havailable⟩ :=
    MemoryMap.exists_availableBytes hroom (m.showing console.grid).memory
  have htable (σ : Type) [Sink σ] :
      Performs (Console.lineScript (Report.tableTexts regions available)) [] ()
        (Report.memoryMap map m : Boot σ Unit) := performs_table hapart hregions havailable
  have hfits := Report.fitsRow_tableTexts regions available
  obtain ⟨after, hplay, hprinted⟩ := (Console.printsLines_lineScript hfits).play hrow hcolumn
  refine ⟨available, after, havailable, ?_, ?_, hprinted.column, htable, hfits, ?_, ?_⟩
  · intro σ _ log performed
    exact (htable σ).run_of_play ⟨console, log, performed⟩ hplay
  · rw [hprinted.row, List.length_map, Report.length_tableTexts, Nat.add_assoc]
  · intro i hi hlast
    have hline : ((Report.tableTexts regions available).map Bytes.ofText)[2 + i]? =
        some (Bytes.ofText (Report.tableRow regions[i])) := by
      rw [List.getElem?_map, Report.getElem?_tableTexts hi]
      rfl
    have hshown := hprinted.shown (2 + i) _ hline (by
      rw [List.length_map, Report.length_tableTexts]
      omega)
    rw [← Nat.add_assoc] at hshown
    exact Report.showsRegion_of_tableRow hshown
  · intro record options before hmap hplaced
    obtain ⟨last, -, -, value, -, hrun⟩ :=
      visits_memory_of_map hmap hroom options before hplaced
    obtain ⟨added, hlog, hsteady, hmem⟩ :=
      logs_memory hmap hapart hregions havailable options before _ last hrun
    refine ⟨last, added, hrun, hlog, hmem value rfl, fun log => ?_⟩
    rw [(compositional_impartial.memory ⟨m, record⟩ options).run_of_steady hrun hlog hsteady]
    rfl

/-- A report on a memory map of thirty regions, which are more than the screen has rows. -/
def longLayout : MapLayout where
  records := (List.range 30).map fun i =>
    ⟨littleEndianBytes 8 (i * 0x100000) ++ littleEndianBytes 8 0x80000
      ++ littleEndianBytes 4 (i % 6), by simp⟩
  tail := []
  ends := .inl (by decide)

def longReport : LoadedMemory where
  memory :=
    { byteAt := fun a =>
        if 0x1000 ≤ a then longLayout.bytes.getD (a - 0x1000) 0
        else
          match a with
          | 0x00 => 0x40 | 0x2C => 0xD0 | 0x2D => 0x02 | 0x31 => 0x10
          | _ => 0 }
  mapping := .identity

theorem table_of_longReport :
    let console : Console := ⟨.filled (.blank .default), 20, 0, .default⟩
    let map : MemoryMap := ⟨⟨0x1000, by decide⟩, 720⟩
    let memory := (longReport.showing console.grid).memory
    (∀ grid, memory.AgreeOn (longReport.showing grid).memory map.start.toNat
      (map.start.toNat + map.length)) ∧
    map.regions memory = .ok longLayout.regions ∧
    (∀ grid, (InfoRecord.readAt (longReport.showing grid).memory 0).memoryMap?
      (longReport.showing grid) = .ok (some map)) ∧
    ∃ (after : Console) (performed : Array Console.Operation),
      (Report.memoryMap map longReport).run.run ⟨console, (#[] : Journal), #[]⟩ =
        (.ok (), ⟨after, #[], performed⟩) ∧
      after.row = 3 ∧
      after.ShowsRegion 1 ⟨20, ⟨0x1D00000, by decide⟩, 0x80000, ⟨5⟩⟩ .default ∧
      ∃ last : Run Journal,
        (Subsystems.memory ⟨longReport, ⟨0, by decide⟩⟩ {}).run.run ⟨console, #[], #[]⟩ =
          (.ok (), last) ∧
        .record (mapRecord 30 0x280000) ∈ last.log.toList := by
  intro console map memory
  have hapart : ∀ grid, memory.AgreeOn (longReport.showing grid).memory map.start.toNat
      (map.start.toNat + map.length) := fun _ _ _ _ => rfl
  have hlength : longLayout.bytes.length = 720 := by decide +kernel
  have hheld : memory.Holds 0x1000 longLayout.bytes := by
    refine Memory.holds_of_byteAt fun i hi => ?_
    have hbyte : memory.byteAt (0x1000 + i) = longLayout.bytes.getD (0x1000 + i - 0x1000) 0 :=
      if_pos (Nat.le_add_right _ _)
    rw [hbyte, Nat.add_sub_cancel_left, List.getD_eq_getElem _ _ hi]
  have hregions : map.regions memory = .ok longLayout.regions := by
    have hahead : MapWalk.Ahead memory ⟨0x1000, 0x1000 + 720⟩ longLayout.bytes :=
      ⟨hheld, by rw [hlength]; rfl⟩
    rw [MemoryMap.regions, MemoryMap.walk_of_lt (by decide)]
    exact congrArg Except.ok (MapWalk.regions_of_records longLayout.ends hahead)
  have hmap : ∀ grid, (InfoRecord.readAt (longReport.showing grid).memory 0).memoryMap?
      (longReport.showing grid) = .ok (some map) := by
    intro grid
    rw [LoadedMemory.showing_of_no_screen rfl]
    decide +kernel
  have hcount : longLayout.regions.length = 30 := by decide +kernel
  have hlast : longLayout.regions[29]? =
      some ⟨20, ⟨0x1D00000, by decide⟩, 0x80000, ⟨5⟩⟩ := by
    decide +kernel
  obtain ⟨hlt, hlast⟩ := List.getElem?_eq_some_iff.mp hlast
  have hsum : map.availableBytes memory = .ok 0x280000 := by
    rw [MemoryMap.availableBytes, hregions]
    exact congrArg Except.ok (by decide +kernel)
  obtain ⟨available, after, havailable, hrun, hrow, -, -, -, hshown, hlog⟩ :=
    table_shows_regions (by decide) rfl hapart hregions
  cases hsum.symm.trans havailable
  obtain ⟨last, added, hmemory, hadded, hmem, -⟩ :=
    hlog ⟨0, by decide⟩ {} ⟨console, #[], #[]⟩ hmap ⟨by decide, by decide⟩
  have hstart : console.row = 20 := rfl
  refine ⟨hapart, hregions, hmap, after, _, hrun Journal #[] #[], ?_, ?_, last, hmemory, ?_⟩
  · rw [hrow, hcount, hstart]
    rfl
  · have hfound := hshown 29 hlt (by rw [hcount]; decide)
    rw [hlast, hstart] at hfound
    exact hfound
  · rw [hadded]
    rw [hcount] at hmem
    simpa using hmem

end Boot

end EarlyBoot
