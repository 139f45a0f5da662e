import EarlyBoot.Proofs.Boot.PlainScreen
import EarlyBoot.Proofs.Console.Lines
import EarlyBoot.Proofs.Numeral.Reading

/-!
The complete screen of a plain boot on a fresh console. With the memory sizes and without a name
for the loader, such a boot writes 23 lines, whatever the numbers in them are: none of them fills
its row, so each line has a row of its own and nothing is printed over.
-/

namespace EarlyBoot.Boot

def bannerLines : List Bytes :=
  [ Bytes.ofText "nekkoOS Kernel v0.1",
    Bytes.ofText "==================",
    [] ]

def verifiedLines : List Bytes :=
  [Bytes.ofText "Multiboot magic verified."]

def flagsLines (flags : Bytes) : List Bytes :=
  [Bytes.ofText "Boot flags: " ++ flags]

def startLines : List Bytes :=
  [ [],
    Bytes.ofText "Initializing kernel subsystems...",
    Bytes.ofText "==================================",
    Bytes.ofText "Initializing memory management..." ]

def sizesLines (lower upper total megabytes : Bytes) : List Bytes :=
  [ Bytes.ofText "Memory: Lower = " ++ lower ++ Bytes.ofText "KB, Upper = " ++ upper
      ++ Bytes.ofText "KB",
    Bytes.ofText "Total conventional memory: " ++ total ++ Bytes.ofText "KB (" ++ megabytes
      ++ Bytes.ofText "MB)" ]

def subsystemLines : List Bytes :=
  [ Bytes.ofText "Memory management initialized.",
    Bytes.ofText "Initializing Global Descriptor Table...",
    Bytes.ofText "GDT initialized.",
    Bytes.ofText "Initializing Interrupt Descriptor Table...",
    Bytes.ofText "IDT initialized.",
    Bytes.ofText "Initializing interrupt handlers...",
    Bytes.ofText "Interrupts initialized." ]

def completionLines : List Bytes :=
  [ [],
    Bytes.ofText "Kernel initialization complete!",
    Bytes.ofText "===============================" ]

def readyLines : List Bytes :=
  [ [],
    Bytes.ofText "System ready. Entering idle loop..." ]

/-- The lines of a plain boot with their colors, around the five numerals in them. -/
def plainLines (flags lower upper total megabytes : Bytes) : List (Bytes × Color) :=
  bannerLines.map (·, .lightGreen) ++
  ((verifiedLines ++ (flagsLines flags ++ (startLines ++ (sizesLines lower upper total megabytes
    ++ subsystemLines)))).map (·, .white) ++
  (completionLines.map (·, .lightGreen) ++
  readyLines.map (·, .yellow)))

section

variable (flags lower upper total megabytes : Bytes)

theorem length_plainLines : (plainLines flags lower upper total megabytes).length = 23 :=
  rfl

theorem colors_plainLines : (plainLines flags lower upper total megabytes).map Prod.snd =
    List.replicate 3 .lightGreen ++ List.replicate 15 .white ++ List.replicate 3 .lightGreen ++
      List.replicate 2 .yellow :=
  rfl

theorem plainLines_flags : (plainLines flags lower upper total megabytes)[4]? =
    some (Bytes.ofText "Boot flags: " ++ flags, .white) :=
  rfl

theorem plainLines_sizes : (plainLines flags lower upper total megabytes)[9]? =
    some (Bytes.ofText "Memory: Lower = " ++ lower ++ Bytes.ofText "KB, Upper = " ++ upper
      ++ Bytes.ofText "KB", .white) :=
  rfl

theorem plainLines_total : (plainLines flags lower upper total megabytes)[10]? =
    some (Bytes.ofText "Total conventional memory: " ++ total ++ Bytes.ofText "KB ("
      ++ megabytes ++ Bytes.ofText "MB)", .white) :=
  rfl

end

/-- The rows that lines fill in their colors on black. -/
def rowsOf (lines : List (Bytes × Color)) : List (List Cell) :=
  lines.map fun line => line.1.map (.of · (.of line.2 .black))

theorem rowsOf_append (xs ys : List (Bytes × Color)) :
    rowsOf (xs ++ ys) = rowsOf xs ++ rowsOf ys :=
  List.map_append

/-- Lines in one color, once it is set. -/
theorem fills_inColor {operations : List Console.Operation} {lines : List Bytes}
    (h : Console.PrintsLines operations lines) (color : Color) (before : Attribute) :
    Page.Fills (.setColors (.of color .black) :: operations) before
      (rowsOf (lines.map (·, color))) (.of color .black) := by
  have hrows : rowsOf (lines.map (·, color)) = lines.map (·.map (.of · (.of color .black))) := by
    rw [rowsOf, List.map_map]
    rfl
  rw [hrows]
  exact Page.Fills.setColors.append (.of_printsLines h _)

theorem printsLines_opening : Console.PrintsLines
    [.writeText "nekkoOS Kernel v0.1\n", .writeText "==================\n\n"] bannerLines := by
  decide +kernel

theorem printsLines_verified :
    Console.PrintsLines [.writeText "Multiboot magic verified.\n"] verifiedLines := by
  decide +kernel

theorem fitsRow_flags (flags : UInt32) :
    ∀ line ∈ flagsLines (Numeral.wordHex flags true), Console.FitsRow line := by
  rw [flagsLines, List.forall_mem_singleton]
  constructor
  · refine List.forall_mem_append.mpr ⟨by decide +kernel, ?_⟩
    exact fun byte hbyte => Numeral.isPrintable_of_mem_wordHex hbyte
  · have hlabel : (Bytes.ofText "Boot flags: ").length = 12 := rfl
    rw [List.length_append, hlabel, Numeral.length_wordHex]
    decide

theorem printsLines_flags (flags : UInt32) : Console.PrintsLines (loaderScript flags none)
    (flagsLines (Numeral.wordHex flags true)) where
  writes := by simp [loaderScript, Console.Operation.writes]
  fit := fitsRow_flags flags
  printed := by
    simp only [loaderScript, flagsLines, List.flatMap_cons, List.flatMap_nil, List.append_assoc]
    rfl

theorem printsLines_start : Console.PrintsLines
    [ .writeText "\nInitializing kernel subsystems...\n",
      .writeText "==================================\n",
      .writeText "Initializing memory management...\n" ] startLines := by
  decide +kernel

theorem isPrintable_of_mem_decimal {value : UInt32} {byte : UInt8}
    (h : byte ∈ Numeral.unsigned value 10) : Ascii.isPrintable byte = true :=
  Numeral.isPrintable_of_mem_digits ((Numeral.unsigned_value .decimal value) ▸ h)

theorem length_decimal_le (value : UInt32) : (Numeral.unsigned value 10).length ≤ 10 := by
  rw [show Numeral.unsigned value 10 = _ from Numeral.unsigned_value .decimal value]
  exact Numeral.length_digits_le .decimal (Nat.lt_trans value.toNat_lt (by decide))

theorem fitsRow_sizes (lower upper total megabytes : UInt32) :
    ∀ line ∈ sizesLines (Numeral.unsigned lower 10) (Numeral.unsigned upper 10)
      (Numeral.unsigned total 10) (Numeral.unsigned megabytes 10), Console.FitsRow line := by
  have hdecimal (value : UInt32) : ∀ byte ∈ Numeral.unsigned value 10,
      Ascii.isPrintable byte = true := fun byte hbyte => isPrintable_of_mem_decimal hbyte
  have hlower := length_decimal_le lower
  have hupper := length_decimal_le upper
  have htotal := length_decimal_le total
  have hmegabytes := length_decimal_le megabytes
  rw [sizesLines, List.forall_mem_cons, List.forall_mem_singleton]
  constructor
  · constructor
    · simp only [List.forall_mem_append]
      exact ⟨⟨⟨⟨by decide +kernel, hdecimal lower⟩, by decide +kernel⟩, hdecimal upper⟩,
        by decide +kernel⟩
    · have hlabel : (Bytes.ofText "Memory: Lower = ").length = 16 := rfl
      have hmiddle : (Bytes.ofText "KB, Upper = ").length = 12 := rfl
      have hunit : (Bytes.ofText "KB").length = 2 := rfl
      simp only [List.length_append, hlabel, hmiddle, hunit, Grid.width]
      omega
  · constructor
    · simp only [List.forall_mem_append]
      exact ⟨⟨⟨⟨by decide +kernel, hdecimal total⟩, by decide +kernel⟩, hdecimal megabytes⟩,
        by decide +kernel⟩
    · have hlabel : (Bytes.ofText "Total conventional memory: ").length = 27 := rfl
      have hmiddle : (Bytes.ofText "KB (").length = 4 := rfl
      have hunit : (Bytes.ofText "MB)").length = 3 := rfl
      simp only [List.length_append, hlabel, hmiddle, hunit, Grid.width]
      omega

theorem printsLines_sizes (sizes : MemorySizes) :
    Console.PrintsLines (sizesScript (some sizes))
      (sizesLines (Numeral.unsigned sizes.lower 10) (Numeral.unsigned sizes.upper 10)
        (Numeral.unsigned sizes.total 10) (Numeral.unsigned (sizes.total / 1024) 10)) where
  writes := by simp [sizesScript, Console.Operation.writes]
  fit := fitsRow_sizes _ _ _ _
  printed := by
    simp only [sizesScript, sizesLines, List.flatMap_cons, List.flatMap_nil, List.append_assoc]
    rfl

theorem printsLines_subsystems : Console.PrintsLines
    [ .writeText "Memory management initialized.\n",
      .writeText "Initializing Global Descriptor Table...\n",
      .writeText "GDT initialized.\n",
      .writeText "Initializing Interrupt Descriptor Table...\n",
      .writeText "IDT initialized.\n",
      .writeText "Initializing interrupt handlers...\n",
      .writeText "Interrupts initialized.\n" ] subsystemLines := by
  decide +kernel

theorem printsLines_completion : Console.PrintsLines
    [ .writeText "\nKernel initialization complete!\n",
      .writeText "===============================\n" ] completionLines := by
  decide +kernel

theorem printsLines_ready : Console.PrintsLines
    [.writeText "\nSystem ready. Entering idle loop...\n"] readyLines := by
  decide +kernel

/-- The script of a plain boot writes the lines of a plain boot. -/
theorem fills_plainScript {summary : Summary} (hmemory : summary.announces .memory = true)
    (hname : summary.announces .bootLoaderName = false) (before : Attribute) :
    Page.Fills (plainScript summary) before
      (rowsOf (plainLines (Numeral.wordHex summary.flags true)
        (Numeral.unsigned summary.sizes.lower 10) (Numeral.unsigned summary.sizes.upper 10)
        (Numeral.unsigned summary.sizes.total 10)
        (Numeral.unsigned (summary.sizes.total / 1024) 10)))
      .default := by
  have hsizes : summary.sizes? = some summary.sizes := if_pos hmemory
  have hloader : summary.loaderName? = none := if_neg (by rw [hname]; decide)
  have hreport := printsLines_verified.append ((printsLines_flags summary.flags).append
    (printsLines_start.append ((printsLines_sizes summary.sizes).append printsLines_subsystems)))
  have hreset : Page.Fills [.setColors .default] (.of .yellow .black) [] .default := .setColors
  have hwhole := (fills_inColor printsLines_opening .lightGreen before).append
    ((fills_inColor hreport .white _).append
      ((fills_inColor printsLines_completion .lightGreen _).append
        ((fills_inColor printsLines_ready .yellow _).append hreset)))
  rw [List.append_nil] at hwhole
  simp only [plainScript, hsizes, hloader, plainLines, rowsOf_append]
  exact hwhole

theorem length_rowsOf (lines : List (Bytes × Color)) : (rowsOf lines).length = lines.length :=
  List.length_map _

theorem rows_getD (lines : List (Bytes × Color)) (row : Nat) :
    (rowsOf lines ++ [[]])[row]?.getD [] =
      (lines[row]?.getD ([], .black)).1.map
        (.of · (.of (lines[row]?.getD ([], .black)).2 .black)) := by
  rcases Nat.lt_trichotomy row lines.length with hlt | heq | hgt
  · have hrow : row < (rowsOf lines).length := by rwa [length_rowsOf]
    rw [List.getElem?_append_left hrow, rowsOf, List.getElem?_map,
      List.getElem?_eq_getElem hlt]
    rfl
  · have hrow : row = (rowsOf lines).length := by rwa [length_rowsOf]
    rw [List.getElem?_eq_none (Nat.le_of_eq heq.symm), hrow, List.getElem?_concat_length]
    rfl
  · have hrow : (rowsOf lines ++ [[]]).length ≤ row := by
      rw [List.length_append, length_rowsOf]
      exact hgt
    rw [List.getElem?_eq_none (Nat.le_of_lt hgt), List.getElem?_eq_none hrow]
    rfl

/-- The complete screen of a plain boot on a fresh console. There are 23 lines in the first rows
and blanks everywhere else, and the cursor stands behind the last line in the colors of the
beginning. The boot writes each cell at most once: what it has performed is its script, from which
the console has become what it is, and a teletype that is given the same strikes no cell twice. The
numerals read back as the flags, the two sizes, their sum as a word, and that in MiB. -/
theorem plain_boot_fills_rows {handoff : Handoff} {m : LoadedMemory} {grid : Grid}
    {filter : LogFilter} {state : BootState}
    (h : PlainBoot handoff m (.new grid) filter state) {summary : Summary}
    (hsummary : m.SummedUp handoff.infoAddress summary)
    (hmemory : summary.announces .memory = true)
    (hname : summary.announces .bootLoaderName = false) :
    let after := (ending handoff m (.new grid) filter).console
    let performed := (ending handoff m (.new grid) filter).performed
    let flags := Numeral.wordHex summary.flags true
    let lower := Numeral.unsigned summary.sizes.lower 10
    let upper := Numeral.unsigned summary.sizes.upper 10
    let total := Numeral.unsigned summary.sizes.total 10
    let megabytes := Numeral.unsigned (summary.sizes.total / 1024) 10
    let lines := plainLines flags lower upper total megabytes
    state = .idle ∧
    lines.length = 23 ∧
    lines.map Prod.snd = List.replicate 3 .lightGreen ++ List.replicate 15 .white ++
      List.replicate 3 .lightGreen ++ List.replicate 2 .yellow ∧
    (∀ row < Grid.height, after.RowShows row (lines[row]?.getD ([], .black)).1
      (.of (lines[row]?.getD ([], .black)).2 .black) .default) ∧
    Cell.blank .default = ⟨0x0720⟩ ∧
    after.row = 23 ∧ after.column = 0 ∧ after.colors = ⟨0x07⟩ ∧
    (∀ (σ : Type) [Sink σ], Draws (plainScript summary) (fun state => state = .idle)
      (boot handoff m : Boot σ BootState)) ∧
    performed = plainScript summary ∧
    (Console.new grid).play performed = .ok after ∧
    ((Teletype.start .default).performAll performed).StrikesOnce ∧
    lines[4]? = some (Bytes.ofText "Boot flags: " ++ flags, .white) ∧
    lines[9]? = some (Bytes.ofText "Memory: Lower = " ++ lower ++ Bytes.ofText "KB, Upper = "
      ++ upper ++ Bytes.ofText "KB", .white) ∧
    lines[10]? = some (Bytes.ofText "Total conventional memory: " ++ total
      ++ Bytes.ofText "KB (" ++ megabytes ++ Bytes.ofText "MB)", .white) ∧
    Numeral.readUnsigned (flags.drop 2) 16 = summary.flags ∧
    Numeral.readUnsigned lower 10 = summary.sizes.lower ∧
    Numeral.readUnsigned upper 10 = summary.sizes.upper ∧
    (Numeral.readUnsigned total 10).toNat =
      (summary.sizes.lower.toNat + summary.sizes.upper.toNat) % 2 ^ 32 ∧
    (Numeral.readUnsigned megabytes 10).toNat =
      (summary.sizes.lower.toNat + summary.sizes.upper.toNat) % 2 ^ 32 / 1024 := by
  intro after performed flags lower upper total megabytes lines
  have hdecimal (value : UInt32) :
      Numeral.readUnsigned (Numeral.unsigned value 10) 10 = value :=
    Numeral.readUnsigned_unsigned .decimal value
  have htotal : summary.sizes.total.toNat =
      (summary.sizes.lower.toNat + summary.sizes.upper.toNat) % 2 ^ 32 :=
    UInt32.toNat_add _ _
  have hplay : (Console.new grid).play performed = .ok after :=
    play_performed handoff m (.new grid) filter
  obtain ⟨hperformed, hidle⟩ : performed = plainScript summary ∧ state = .idle :=
    h.performed hsummary
  have hlength : (rowsOf lines).length = 23 := (length_rowsOf lines).trans (length_plainLines ..)
  obtain ⟨⟨shown, hshown, hdisplays⟩, hstrikes⟩ :=
    (fills_plainScript hmemory hname .default).displays
      (Nat.lt_of_le_of_lt (Nat.le_of_eq hlength) (by decide)) grid
  rw [← hperformed] at hshown hstrikes
  have hsame : shown = after := Except.ok.inj (hshown.symm.trans hplay)
  rw [hsame] at hdisplays
  obtain ⟨hrow, hcolumn⟩ := hdisplays.cursor (Nat.zero_lt_succ 79)
  refine ⟨hidle, length_plainLines .., colors_plainLines .., ?_, by decide, hrow.trans hlength,
    hcolumn, hdisplays.colors, fun _ _ => h.draws hsummary, hperformed, hplay,
    hstrikes, plainLines_flags .., plainLines_sizes .., plainLines_total ..,
    Numeral.readUnsigned_wordHex _ true, hdecimal _, hdecimal _, ?_, ?_⟩
  · intro row hlt
    exact hdisplays.rowShows_getD hlt (rows_getD lines row)
  · rw [hdecimal, htotal]
  · rw [hdecimal, UInt32.toNat_div, htotal]
    rfl

/-- A report of nothing but memory sizes, whose sum is no word, with all flags set that have no
meaning. -/
def hugeReport : LoadedMemory where
  memory :=
    { byteAt := fun a =>
        [0x01, 0xE0, 0xFF, 0xFF, 0x7F, 0x02, 0, 0, 0xFF, 0xFF, 0xFF, 0xFF].getD a 0 }
  mapping := .identity

def hugeSummary : Summary where
  flags := 0xFFFFE001
  sizes := ⟨639, 0xFFFFFFFF⟩
  loaderName := []

theorem plain_boot_of_hugeReport :
    let grid : Grid := .filled ⟨0xDEAD⟩
    let handoff : Handoff := ⟨Handoff.loaderMagic, .ofWord 0⟩
    let after := (ending handoff hugeReport (.new grid) .off).console
    PlainBoot handoff hugeReport (.new grid) .off .idle ∧
    hugeReport.SummedUp handoff.infoAddress hugeSummary ∧
    hugeSummary.announces .memory = true ∧
    hugeSummary.announces .bootLoaderName = false ∧
    after.RowShows 4 (Bytes.ofText "Boot flags: 0xFFFFE001") (.of .white .black) .default ∧
    after.RowShows 9 (Bytes.ofText "Memory: Lower = 639KB, Upper = 4294967295KB")
      (.of .white .black) .default ∧
    after.RowShows 10 (Bytes.ofText "Total conventional memory: 638KB (0MB)")
      (.of .white .black) .default ∧
    after.row = 23 := by
  intro grid handoff after
  have hboot : PlainBoot handoff hugeReport (.new grid) .off .idle :=
    plainBoot_of_no_screen rfl rfl (by decide) (by decide +kernel) (Console.clear_wellPlaced _)
      [] (by decide +kernel) (by decide) .off
  have hmemory : hugeSummary.announces .memory = true := by decide
  have hname : hugeSummary.announces .bootLoaderName = false := by decide
  have hsummary : hugeReport.SummedUp handoff.infoAddress hugeSummary :=
    LoadedMemory.summedUp_of_no_screen rfl (by decide +kernel) (fun _ => by decide +kernel)
      (fun hset => by rw [hname] at hset; cases hset)
  obtain ⟨-, -, -, hrows, -, hrow, -⟩ := plain_boot_fills_rows hboot hsummary hmemory hname
  have hflags : Bytes.ofText "Boot flags: 0xFFFFE001" =
      Bytes.ofText "Boot flags: " ++ Numeral.wordHex 0xFFFFE001 true := by decide +kernel
  have hsizes : Bytes.ofText "Memory: Lower = 639KB, Upper = 4294967295KB" =
      Bytes.ofText "Memory: Lower = " ++ Numeral.unsigned 639 10 ++ Bytes.ofText "KB, Upper = "
        ++ Numeral.unsigned 0xFFFFFFFF 10 ++ Bytes.ofText "KB" := by decide +kernel
  have htotal : Bytes.ofText "Total conventional memory: 638KB (0MB)" =
      Bytes.ofText "Total conventional memory: " ++ Numeral.unsigned 638 10
        ++ Bytes.ofText "KB (" ++ Numeral.unsigned 0 10 ++ Bytes.ofText "MB)" := by
    decide +kernel
  refine ⟨hboot, hsummary, hmemory, hname, ?_, ?_, ?_, hrow⟩
  · rw [hflags]
    exact hrows 4 (by decide)
  · rw [hsizes]
    exact hrows 9 (by decide)
  · rw [htotal]
    exact hrows 10 (by decide)

end EarlyBoot.Boot
