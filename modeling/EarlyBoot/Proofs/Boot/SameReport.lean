import EarlyBoot.Proofs.Boot.Ending
import EarlyBoot.Proofs.Boot.Outcome
import EarlyBoot.Proofs.Boot.Stages
import EarlyBoot.Proofs.Loader.Announced

/-!
Boots from two memories with the same report. What no flag announces has no influence: where two
records differ in nothing else, each part of the boot is the same action from both memories, and
so is the whole boot.
-/

namespace EarlyBoot

/-- Whether a byte is on the screen does not depend on what the screen shows. -/
theorem Grid.byteAt?_isSome (g g' : Grid) (i : Nat) :
    (g.byteAt? i).isSome = (g'.byteAt? i).isSome := by
  unfold Grid.byteAt?
  rw [Option.isSome_map, Option.isSome_map]
  by_cases hi : i / 2 < Grid.size
  · simp [hi]
  · simp [Nat.le_of_not_lt hi]

theorem Memory.byteAt_withScreen_congr {m m' : Memory} {address a : Nat} (g g' : Grid)
    (h : (m.withScreen address g).byteAt a = (m'.withScreen address g).byteAt a) :
    (m.withScreen address g').byteAt a = (m'.withScreen address g').byteAt a := by
  unfold Memory.withScreen at *
  simp only at *
  split
  · rename_i hbehind
    rw [if_pos hbehind, if_pos hbehind] at h
    have hshown := Grid.byteAt?_isSome g g' (a - address)
    cases hbyte : g'.byteAt? (a - address) with
    | some byte => rfl
    | none =>
        rw [hbyte, Option.isSome_none, Option.isSome_eq_false_iff,
          Option.isNone_iff_eq_none] at hshown
        rw [hshown] at h
        exact h
  · rename_i hbefore
    rw [if_neg hbefore, if_neg hbefore] at h
    exact h

namespace LoadedMemory

/-- Two memories around the same screen that have the same report whatever the screen shows. -/
structure SameReport (m m' : LoadedMemory) (record : Nat) : Prop where
  screen : m.screen = m'.screen
  shown : ∀ grid, (m.showing grid).SameReport (m'.showing grid) record

theorem sameReport_of_no_screen {m m' : LoadedMemory} {record : Nat} (hscreen : m.screen = none)
    (hscreen' : m'.screen = none) (h : m.apart.SameReport m'.apart record) :
    m.SameReport m' record where
  screen := hscreen.trans hscreen'.symm
  shown grid := by
    rw [showing_of_no_screen hscreen, showing_of_no_screen hscreen']
    exact h

variable {m m' : LoadedMemory} {record : Nat} (h : m.SameReport m' record)

include h

/-- Memories that agree somewhere while the screen shows one thing agree there forever. -/
theorem SameReport.agreeOn {grid : Grid} {start stop : Nat}
    (hagree : (m.showing grid).memory.AgreeOn (m'.showing grid).memory start stop) (now : Grid) :
    (m.showing now).memory.AgreeOn (m'.showing now).memory start stop := by
  intro a hstart hstop
  have hbyte := hagree a hstart hstop
  unfold showing at hbyte ⊢
  rw [← h.screen] at hbyte ⊢
  cases hscreen : m.screen with
  | none =>
      rw [hscreen] at hbyte
      exact hbyte
  | some address =>
      rw [hscreen] at hbyte
      exact Memory.byteAt_withScreen_congr grid now hbyte

end LoadedMemory

namespace Boot

variable {σ α : Type}

section

variable {m m' : LoadedMemory}

theorem look_bind_congr {f f' : MappedMemory → Boot σ α}
    (h : ∀ grid, f (m.showing grid) = f' (m'.showing grid)) :
    (look m >>= f) = (look m' >>= f') := by
  funext before
  exact congrFun (h before.console.grid) before

theorem forM_congr {items : List α} {action action' : α → Boot σ Unit}
    (h : ∀ item ∈ items, action item = action' item) : items.forM action = items.forM action' := by
  induction items with
  | nil => rfl
  | cons item rest ih =>
      obtain ⟨hitem, hrest⟩ := List.forall_mem_cons.mp h
      change (action item >>= fun _ => rest.forM action) =
        (action' item >>= fun _ => rest.forM action')
      rw [hitem, ih hrest]

variable {block : MemoryBlock}
  (h : ∀ grid, (m.showing grid).memory.AgreeAt (m'.showing grid).memory block)

include h

theorem contents_congr : (contents m block : Boot σ Bytes) = contents m' block :=
  look_bind_congr fun grid => congrArg Pure.pure (h grid).bytes

theorem writeBlock_congr : (writeBlock m block : Boot σ Unit) = writeBlock m' block := by
  refine forM_congr fun i hi => look_bind_congr fun grid => ?_
  rw [h grid (block.start + i) (Nat.le_add_right _ _)
    (Nat.add_lt_add_left (List.mem_range.mp hi) _)]

end

theorem orStop_bind_congr {β : Type} {x : Except Fault α} {f f' : α → Boot σ β}
    (h : ∀ value, x = .ok value → f value = f' value) :
    (orStop x >>= f) = (orStop x >>= f') := by
  cases x with
  | error fault => rfl
  | ok value => exact h value rfl

/-- The modules in a table, from memories that agree on the table and on the strings in it. -/
theorem modules_congr [Sink σ] {m m' : MappedMemory} (count : Nat) (list : ModuleList)
    (hcount : list.remaining = count)
    (htable : m.memory.AgreeOn m'.memory list.position.toNat
      (list.position.toNat + ModuleList.entrySize * count))
    (hlines : ∀ i < count,
      m.string (m.memory.word32 (list.position.toNat + ModuleList.entrySize * i + 8)) =
        m'.string (m.memory.word32 (list.position.toNat + ModuleList.entrySize * i + 8))) :
    (Report.modules m count list : Boot σ Unit) = Report.modules m' count list := by
  induction count generalizing list with
  | zero => rfl
  | succ count ih =>
      simp only [ModuleList.entrySize] at htable hlines ih
      have hnext : list.next m = list.next m' :=
        ModuleList.next_congr (htable.within (Nat.le_refl _) (by omega))
          (hlines 0 (Nat.succ_pos count))
      unfold Report.modules
      rw [← hnext]
      refine orStop_bind_congr fun next? hfound => ?_
      cases next? with
      | none => rfl
      | some next =>
          obtain ⟨first, rest⟩ := next
          obtain ⟨hposition, hremaining⟩ := ModuleList.rest_of_next hfound
          simp only [ModuleList.entrySize] at hposition
          have hrest : (Report.modules m count rest : Boot σ Unit) =
              Report.modules m' count rest := by
            refine ih rest (by omega) ?_ ?_
            · rw [hposition]
              exact htable.within (by omega) (by omega)
            · intro i hi
              have hline := hlines (i + 1) (by omega)
              have hoffset : list.position.toNat + 16 * (i + 1) + 8 =
                  rest.position.toNat + 16 * i + 8 := by omega
              rwa [hoffset] at hline
          exact bind_congr fun _ => hrest

section

variable {m m' : LoadedMemory}

theorem tableRows_congr {walk : MapWalk} (h : ∀ grid,
    (m.showing grid).memory.AgreeOn (m'.showing grid).memory walk.position walk.stop) :
    (Report.tableRows m walk : Boot σ Unit) = Report.tableRows m' walk := by
  induction hremaining : walk.remaining using Nat.strongRecOn generalizing walk with
  | ind remaining ih =>
      rw [Report.tableRows_eq, Report.tableRows_eq]
      refine look_bind_congr fun grid => ?_
      rw [← MapWalk.next_congr (h grid)]
      cases hnext : walk.next (m.showing grid).memory with
      | mk region after =>
          cases region with
          | none => rfl
          | some region =>
              have hless := hremaining ▸ MapWalk.remaining_lt_of_next hnext
              obtain ⟨hposition, hstop⟩ := MapWalk.ahead_of_next hnext
              have hrest : (Report.tableRows m after : Boot σ Unit) =
                  Report.tableRows m' after :=
                ih _ hless (fun now => (h now).within hposition (Nat.le_of_eq hstop)) rfl
              exact bind_congr fun _ => hrest

variable {map : MemoryMap} (h : ∀ grid, (m.showing grid).memory.AgreeOn (m'.showing grid).memory
  map.start.toNat (map.start.toNat + map.length))

include h

theorem table_congr : (Report.memoryMap map m : Boot σ Unit) = Report.memoryMap map m' := by
  unfold Report.memoryMap
  refine bind_congr fun _ => bind_congr fun _ => orStop_bind_congr fun walk hwalk => ?_
  rw [tableRows_congr fun grid => MemoryMap.agreeOn_walk (h grid) hwalk]
  refine bind_congr fun _ => look_bind_congr fun grid => ?_
  rw [MemoryMap.availableBytes_congr (h grid)]

theorem memoryMap_congr [Sink σ] (options : Options) :
    (Subsystems.memoryMap map m options : Boot σ Unit) = Subsystems.memoryMap map m' options := by
  have hsums : (Subsystems.sumsStage map m : Boot σ Unit) = Subsystems.sumsStage map m' := by
    refine congrArg (logMade _ _) (look_bind_congr fun grid => ?_)
    simp only [MemoryMap.regions_congr (h grid), MemoryMap.availableBytes_congr (h grid)]
  have hregions : (Subsystems.regionsStage map m options : Boot σ Unit) =
      Subsystems.regionsStage map m' options := by
    unfold Subsystems.regionsStage
    rw [table_congr h]
    refine look_bind_congr fun grid => ?_
    rw [MemoryMap.regions_congr (h grid)]
  rw [Subsystems.memoryMap_eq, Subsystems.memoryMap_eq, hsums, hregions]

end

section

variable {m m' : LoadedMemory} {record : Address .virtual}

theorem record_bind_congr {f f' : InfoRecord → Boot σ α}
    (h : ∀ grid, f (.readAt (m.showing grid).memory record.toNat) =
      f' (.readAt (m'.showing grid).memory record.toNat)) :
    (Boot.record ⟨m, record⟩ >>= f) = (Boot.record ⟨m', record⟩ >>= f') := by
  unfold Boot.record
  rw [bind_assoc, bind_assoc]
  refine look_bind_congr fun grid => ?_
  rw [pure_bind, pure_bind]
  exact h grid

theorem part?_bind_congr {β : Type} {part : InfoRecord → MappedMemory → Except Fault (Option α)}
    {f f' : Option α → Boot σ β}
    (hpart : ∀ grid, part (.readAt (m.showing grid).memory record.toNat) (m.showing grid) =
      part (.readAt (m'.showing grid).memory record.toNat) (m'.showing grid))
    (h : ∀ grid value,
      part (.readAt (m.showing grid).memory record.toNat) (m.showing grid) = .ok value →
        f value = f' value) :
    (part? ⟨m, record⟩ part >>= f) = (part? ⟨m', record⟩ part >>= f') := by
  unfold part?
  rw [bind_assoc, bind_assoc]
  refine look_bind_congr fun grid => ?_
  have hvalue := h grid
  rw [← hpart]
  cases hfound : part (.readAt (m.showing grid).memory record.toNat) (m.showing grid) with
  | error fault => rfl
  | ok value => exact hvalue value hfound

theorem run_part? (report : LoaderReport)
    (part : InfoRecord → MappedMemory → Except Fault (Option α)) (before : Run σ) :
    (part? report part).run.run before =
      (part (.readAt (report.memory.showing before.console.grid).memory report.record.toNat)
        (report.memory.showing before.console.grid), before) := by
  change (orStop (part (.readAt (report.memory.showing before.console.grid).memory
    report.record.toNat) (report.memory.showing before.console.grid))).run.run before = _
  cases part (.readAt (report.memory.showing before.console.grid).memory report.record.toNat)
    (report.memory.showing before.console.grid) <;> rfl

/-- Something that is done with a part of the report, from the run in which the part was found. -/
theorem part?_forM_congr {part : InfoRecord → MappedMemory → Except Fault (Option α)}
    {action action' : α → Boot σ Unit}
    (hpart : ∀ grid, part (.readAt (m.showing grid).memory record.toNat) (m.showing grid) =
      part (.readAt (m'.showing grid).memory record.toNat) (m'.showing grid))
    (h : ∀ (before : Run σ) value,
      part (.readAt (m.showing before.console.grid).memory record.toNat)
        (m.showing before.console.grid) = .ok (some value) →
      (action value).run.run before = (action' value).run.run before) :
    (do (← part? ⟨m, record⟩ part).forM action) =
      (do (← part? ⟨m', record⟩ part).forM action') := by
  funext before
  have hrun := run_part? ⟨m, record⟩ part before
  have hrun' := run_part? ⟨m', record⟩ part before
  rw [← hpart] at hrun'
  cases hfound : part (.readAt (m.showing before.console.grid).memory record.toNat)
      (m.showing before.console.grid) with
  | error fault =>
      rw [hfound] at hrun hrun'
      exact (run_bind_of_error hrun _).trans (run_bind_of_error hrun' _).symm
  | ok value? =>
      rw [hfound] at hrun hrun'
      refine (run_bind_of_ok hrun _).trans (Eq.trans ?_ (run_bind_of_ok hrun' _).symm)
      cases value? with
      | none => rfl
      | some value => exact h before value hfound

variable (h : m.SameReport m' record.toNat)

include h

theorem readOptions_congr [Sink σ] :
    (readOptions ⟨m, record⟩ : Boot σ Options) = readOptions ⟨m', record⟩ :=
  part?_bind_congr (fun grid => (h.shown grid).commandLine?_eq) fun _ _ _ => rfl

theorem loader_congr : (Report.loader ⟨m, record⟩ : Boot σ Unit) = Report.loader ⟨m', record⟩ := by
  refine part?_bind_congr (fun grid => (h.shown grid).bootLoaderNameBlock?_eq) ?_
  intro grid name hname
  cases name with
  | none =>
      refine bind_congr fun _ => record_bind_congr fun grid => ?_
      rw [(h.shown grid).flags]
  | some name =>
      have hblock := (h.shown grid).apart name (.inl (.loaderName hname))
      have hwrite : (writeBlock m name : Boot σ Unit) = writeBlock m' name :=
        writeBlock_congr fun now => h.agreeOn hblock now
      refine bind_congr fun _ => ?_
      rw [hwrite]
      refine bind_congr fun _ => bind_congr fun _ => record_bind_congr fun grid => ?_
      rw [(h.shown grid).flags]

theorem lineStage_congr [Sink σ] (options : Options) :
    (Report.lineStage ⟨m, record⟩ options : Boot σ Unit) =
      Report.lineStage ⟨m', record⟩ options := by
  refine part?_forM_congr (fun grid => (h.shown grid).commandLineBlock?_eq) ?_
  intro before line hline
  have hblock := (h.shown _).apart line (.inl (.commandLine hline))
  have hread : (contents m line : Boot σ Bytes) = contents m' line :=
    contents_congr fun now => h.agreeOn hblock now
  have hwrite : (writeBlock m line : Boot σ Unit) = writeBlock m' line :=
    writeBlock_congr fun now => h.agreeOn hblock now
  unfold Report.commandLine
  rw [hread, hwrite]

theorem deviceStage_congr [Sink σ] :
    (Report.deviceStage ⟨m, record⟩ : Boot σ Unit) = Report.deviceStage ⟨m', record⟩ :=
  record_bind_congr fun grid => by rw [(h.shown grid).bootDevice?_eq]

theorem framebufferStage_congr [Sink σ] :
    (Report.framebufferStage ⟨m, record⟩ : Boot σ Unit) = Report.framebufferStage ⟨m', record⟩ :=
  record_bind_congr fun grid => by rw [(h.shown grid).framebuffer?_eq]

theorem modulesStage_congr [Sink σ] :
    (Report.modulesStage ⟨m, record⟩ : Boot σ Unit) = Report.modulesStage ⟨m', record⟩ := by
  refine part?_forM_congr (fun grid => (h.shown grid).modules?_eq) ?_
  intro before list hlist
  have hshown := h.shown before.console.grid
  have hmodules : (Report.modules (m.showing before.console.grid) list.remaining list :
      Boot σ Unit) = Report.modules (m'.showing before.console.grid) list.remaining list :=
    modules_congr list.remaining list rfl (hshown.apart _ (.inl (.modules hlist)))
      fun i hi => hshown.moduleLine_eq hlist hi
  -- Nothing is written in between: the table is read from the memory in which the list was found.
  obtain ⟨log, hlogged⟩ := exists_run_submit
    ⟨.info, Report.logTarget, Numeral.decimalText list.remaining ++ " boot modules"⟩ before
  refine (run_bind_of_ok hlogged _).trans (Eq.trans ?_ (run_bind_of_ok hlogged _).symm)
  exact congrFun hmodules _

theorem mapStage_congr [Sink σ] (options : Options) :
    (Subsystems.mapStage ⟨m, record⟩ options : Boot σ Unit) =
      Subsystems.mapStage ⟨m', record⟩ options := by
  refine part?_forM_congr (fun grid => (h.shown grid).memoryMap?_eq) ?_
  intro before map hmap
  have hblock := (h.shown _).apart _ (.inl (.memoryMap hmap))
  rw [memoryMap_congr (fun now => h.agreeOn hblock now) options]

/-- The total is read again later, and is the same then: its fields are announced for good. -/
theorem memorySizes_congr [Sink σ] {grid : Grid} {sizes : MemorySizes}
    (hsizes : (InfoRecord.readAt (m.showing grid).memory record.toNat).memorySizes? = some sizes) :
    (Subsystems.memorySizes ⟨m, record⟩ sizes : Boot σ Unit) =
      Subsystems.memorySizes ⟨m', record⟩ sizes := by
  have hset : (InfoRecord.readAt (m.showing grid).memory record.toNat).has .memory := by
    unfold InfoRecord.memorySizes? InfoRecord.part? at hsizes
    split at hsizes
    · assumption
    · cases hsizes
  have htotal (now : Grid) :
      (InfoRecord.readAt (m.showing now).memory record.toNat).totalMemory =
        (InfoRecord.readAt (m'.showing now).memory record.toNat).totalMemory := by
    have hfields : (m.showing now).memory.AgreeOn (m'.showing now).memory (record.toNat + 4)
        (record.toNat + 12) := h.agreeOn ((h.shown grid).agreeOn_fields hset) now
    exact congrArg₂ (· + ·) (hfields.within (by omega) (by omega)).word32
      (hfields.within (by omega) (by omega)).word32
  unfold Subsystems.memorySizes
  refine bind_congr fun _ => bind_congr fun _ => bind_congr fun _ => bind_congr fun _ =>
    bind_congr fun _ => record_bind_congr fun now => ?_
  rw [htotal now]

theorem sizesStage_congr [Sink σ] :
    (Subsystems.sizesStage ⟨m, record⟩ : Boot σ Unit) = Subsystems.sizesStage ⟨m', record⟩ := by
  refine record_bind_congr fun grid => ?_
  rw [← (h.shown grid).memorySizes?_eq]
  cases hsizes : (InfoRecord.readAt (m.showing grid).memory record.toNat).memorySizes? with
  | none => rfl
  | some sizes => exact memorySizes_congr h hsizes

theorem closing_congr [Sink σ] (infoAddress : Address .loader) (options : Options) :
    (closing infoAddress ⟨m, record⟩ options : Boot σ BootState) =
      closing infoAddress ⟨m', record⟩ options := by
  have hinfo : (Report.info ⟨m, record⟩ options : Boot σ Unit) =
      Report.info ⟨m', record⟩ options := by
    rw [Report.info_eq, Report.info_eq, loader_congr h, lineStage_congr h, deviceStage_congr h,
      modulesStage_congr h, framebufferStage_congr h]
  have hmemory : (Subsystems.memory ⟨m, record⟩ options : Boot σ Unit) =
      Subsystems.memory ⟨m', record⟩ options := by
    rw [Subsystems.memory_eq, Subsystems.memory_eq, sizesStage_congr h, mapStage_congr h]
  unfold closing setUp
  rw [hinfo, hmemory]
  refine congrArg₂ (· >>= ·) (congrArg (logMade _ _) (record_bind_congr fun grid => ?_)) rfl
  rw [(h.shown grid).text_eq]

end

/-- From two memories with the same report a boot is the same action. -/
theorem boot_congr [Sink σ] (handoff : Handoff) {m m' : LoadedMemory}
    (hmapping : m.mapping = m'.mapping)
    (h : ∀ record : Address .virtual,
      m.mapping.toVirtual handoff.infoAddress.extend = .ok record →
        m.SameReport m' record.toNat) :
    (boot handoff m : Boot σ BootState) = boot handoff m' := by
  by_cases hmagic : handoff.magic = Handoff.loaderMagic
  · rw [boot_eq hmagic, boot_eq hmagic]
    unfold opening LoadedMemory.report
    rw [← hmapping]
    simp only [bind_assoc]
    refine bind_congr fun _ => ?_
    cases hrecord : m.mapping.toVirtual handoff.infoAddress.extend with
    | error fault => rfl
    | ok record =>
        have hreport := h record hrecord
        change (readOptions ⟨m, record⟩ >>= _) = (readOptions ⟨m', record⟩ >>= _)
        rw [readOptions_congr hreport]
        refine bind_congr fun options => ?_
        rw [pure_bind, pure_bind]
        exact bind_congr fun _ => closing_congr hreport handoff.infoAddress options
  · have hverify : handoff.verify = .error (.invalidMagic handoff.magic) := if_neg hmagic
    unfold boot
    rw [hverify]

/-- The bytes of the record that no flag announces do not matter for any boot. -/
theorem ending_of_same_report (handoff : Handoff) {m m' : LoadedMemory}
    (hmapping : m.mapping = m'.mapping)
    (h : ∀ record : Address .virtual,
      m.mapping.toVirtual handoff.infoAddress.extend = .ok record → m.SameReport m' record.toNat)
    (console : Console) (filter : LogFilter) :
    ending handoff m console filter = ending handoff m' console filter := by
  unfold ending
  rw [boot_congr handoff hmapping h]

/-- A report on a command line and nothing else, with some byte in all fields without a flag. -/
def noisyReport (noise : UInt8) : LoadedMemory where
  memory :=
    { byteAt := fun a =>
        if a < InfoRecord.size then
          match a with
          | 0 => 0x04 | 1 => 0 | 2 => 0 | 3 => 0
          | 16 => 0x80 | 17 => 0 | 18 => 0 | 19 => 0
          | _ => noise
        else (Bytes.ofText "quiet").getD (a - 0x80) 0 }
  mapping := .identity

theorem pointsTo_noisyReport {noise : UInt8} (hnoise : noise ∈ [0, 0xFF]) {block : MemoryBlock}
    (h : (noisyReport noise).apart.PointsTo (.readAt (noisyReport noise).apart.memory 0) block) :
    block = ⟨0x80, 5⟩ := by
  have hline : ∀ n ∈ [0, 0xFF], (InfoRecord.readAt (noisyReport n).apart.memory 0).commandLineBlock?
      (noisyReport n).apart = .ok (some ⟨0x80, 5⟩) := by decide +kernel
  have hname : ∀ n ∈ [0, 0xFF],
      (InfoRecord.readAt (noisyReport n).apart.memory 0).bootLoaderNameBlock?
        (noisyReport n).apart = .ok none := by decide +kernel
  have hmodules : ∀ n ∈ [0, 0xFF], (InfoRecord.readAt (noisyReport n).apart.memory 0).modules?
      (noisyReport n).apart = .ok none := by decide +kernel
  have hmap : ∀ n ∈ [0, 0xFF], (InfoRecord.readAt (noisyReport n).apart.memory 0).memoryMap?
      (noisyReport n).apart = .ok none := by decide +kernel
  cases h with
  | commandLine h =>
      cases (hline noise hnoise).symm.trans h
      rfl
  | loaderName h => cases (hname noise hnoise).symm.trans h
  | modules h => cases (hmodules noise hnoise).symm.trans h
  | moduleLine h => cases (hmodules noise hnoise).symm.trans h
  | memoryMap h => cases (hmap noise hnoise).symm.trans h

theorem sameReport_noisyReport : (noisyReport 0).SameReport (noisyReport 0xFF) 0 := by
  have hbehind : ∀ a, InfoRecord.size ≤ a →
      (noisyReport 0).memory.byteAt a = (noisyReport 0xFF).memory.byteAt a := by
    intro a hsize
    simp only [noisyReport, if_neg (Nat.not_lt.mpr hsize)]
  have hunannounced : ∀ a < InfoRecord.size,
      (noisyReport 0).memory.byteAt a ≠ (noisyReport 0xFF).memory.byteAt a →
        InfoFlag.commandLine.governs a = false := by
    decide +kernel
  have hflags : ∀ flag, (InfoRecord.readAt (noisyReport 0).memory 0).has flag →
      flag = .commandLine := by
    intro flag
    cases flag <;> decide +kernel
  refine LoadedMemory.sameReport_of_no_screen rfl rfl ?_
  refine ⟨rfl, by decide +kernel, ?_, ?_⟩
  · intro a hdiffer
    have hsize : a < InfoRecord.size := Nat.lt_of_not_le fun hle => hdiffer (hbehind a hle)
    refine ⟨a, hsize, (Nat.zero_add a).symm, fun flag hset => ?_⟩
    rw [hflags flag hset]
    exact hunannounced a hsize hdiffer
  · intro block hpoints a hstart _
    have hblock : block = ⟨0x80, 5⟩ :=
      hpoints.elim (pointsTo_noisyReport (by decide)) (pointsTo_noisyReport (by decide))
    rw [hblock] at hstart
    exact hbehind a (Nat.le_trans (by decide) hstart)

theorem ending_of_noisyReport :
    let handoff : Handoff := ⟨Handoff.loaderMagic, .ofWord 0⟩
    (noisyReport 0).mapping = (noisyReport 0xFF).mapping ∧
    (∀ record : Address .virtual,
      (noisyReport 0).mapping.toVirtual handoff.infoAddress.extend = .ok record →
        (noisyReport 0).SameReport (noisyReport 0xFF) record.toNat) ∧
    ∀ console filter,
      ending handoff (noisyReport 0) console filter =
        ending handoff (noisyReport 0xFF) console filter := by
  intro handoff
  have hsame : ∀ record : Address .virtual,
      (noisyReport 0).mapping.toVirtual handoff.infoAddress.extend = .ok record →
        (noisyReport 0).SameReport (noisyReport 0xFF) record.toNat := by
    intro record hrecord
    have hplace : record.toNat = 0 :=
      (DirectMapping.place_of_toVirtual hrecord).trans (by decide)
    rw [hplace]
    exact sameReport_noisyReport
  have hmapping : (noisyReport 0).mapping = (noisyReport 0xFF).mapping := rfl
  exact ⟨hmapping, hsame, ending_of_same_report handoff hmapping hsame⟩

end Boot

end EarlyBoot
