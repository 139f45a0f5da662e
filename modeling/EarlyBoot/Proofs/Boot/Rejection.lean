import EarlyBoot.Loader.ImageHeader
import EarlyBoot.Proofs.Boot.Ending
import EarlyBoot.Proofs.Boot.Script
import EarlyBoot.Proofs.Numeral.Reading

/-!
Boots with the wrong magic number. Such a boot reads nothing, so it does the same whatever is in
memory, and all of it fits on one page: what the screen shows in the end can be read off the
script.
-/

namespace EarlyBoot.Boot

def complaintScript : List Console.Operation :=
  [ .setColors (.of failureColor .black),
    .writeText "ERROR: Invalid multiboot magic number!\n",
    .writeText "Expected: ",
    .writeHex Handoff.loaderMagic,
    .writeText ", Got: " ]

def haltScript (magic : UInt32) : List Console.Operation :=
  [.writeHex magic, .writeText "\n", .writeText "System halted.\n"]

def rejectionScript (magic : UInt32) : List Console.Operation :=
  openingScript ++ complaintScript ++ haltScript magic

def rejectionEntries (magic : UInt32) : List Entry :=
  [ .entered .booting,
    .entered .verifying,
    .record ⟨.error, logTarget, (HandoffError.invalidMagic magic).message⟩,
    .entered .halted ]

theorem performs_rejection (handoff : Handoff) (h : handoff.magic ≠ Handoff.loaderMagic)
    (m : LoadedMemory) :
    Performs (rejectionScript handoff.magic) (rejectionEntries handoff.magic) .halted
      (boot handoff m : Boot SerialLog BootState) := by
  have hverify : handoff.verify = .error (.invalidMagic handoff.magic) := if_neg h
  simp only [boot, hverify, reject, rejection, bind_assoc]
  apply Performs.enter_step
  apply Performs.step (Performs.useColor _)
  apply Performs.step (Performs.print _)
  apply Performs.step (Performs.print _)
  apply Performs.enter_step
  apply Performs.log_step
  apply Performs.step (Performs.useColor _)
  apply Performs.step (Performs.print _)
  apply Performs.step (Performs.print _)
  apply Performs.step (Performs.writeHex _)
  apply Performs.step (Performs.print _)
  apply Performs.step (Performs.writeHex _)
  apply Performs.step (Performs.print _)
  apply Performs.step (Performs.print _)
  apply Performs.enter_step
  exact Performs.pure _

/-- The cells that spell a text. -/
def spelled (text : Bytes) (colors : Attribute) : List Cell :=
  text.map (.of · colors)

/-- The text of the line with both magic numbers. -/
def magicLine (magic : UInt32) : Bytes :=
  Bytes.ofText "Expected: 0x2BADB002, Got: " ++ Numeral.wordHex magic true

/-- The page that a rejection fills. -/
def rejectionPage (magic : UInt32) : Page where
  above :=
    [ spelled (Bytes.ofText "nekkoOS Kernel v0.1") (.of .lightGreen .black),
      spelled (Bytes.ofText "==================") (.of .lightGreen .black),
      [],
      spelled (Bytes.ofText "ERROR: Invalid multiboot magic number!") (.of .lightRed .black),
      spelled (magicLine magic) (.of .lightRed .black),
      spelled (Bytes.ofText "System halted.") (.of .lightRed .black) ]
  line := []
  colors := .of .lightRed .black

theorem performAll_complaint :
    (⟨[], [], .default⟩ : Page).performAll (openingScript ++ complaintScript) =
      { above := (rejectionPage 0).above.take 4
        line := spelled (Bytes.ofText "Expected: 0x2BADB002, Got: ") (.of .lightRed .black)
        colors := .of .lightRed .black } := by
  rfl

theorem performAll_rejectionScript (magic : UInt32) :
    (⟨[], [], .default⟩ : Page).performAll (rejectionScript magic) = rejectionPage magic := by
  have hfeed : '\n'.toUInt8 ∉ Numeral.wordHex magic true := fun hmem =>
    absurd (Numeral.le_of_mem_wordHex hmem) (by decide)
  have hhex (p : Page) : p.perform (.writeHex magic) =
      { p with line := p.line ++ spelled (Numeral.wordHex magic true) p.colors } :=
    Page.write_of_notMem hfeed
  rw [rejectionScript, Page.performAll_append, performAll_complaint, haltScript,
    Page.performAll_cons, hhex]
  simp only [spelled, ← List.map_append]
  rfl

theorem fits_rejectionPage (magic : UInt32) : (rejectionPage magic).Fits where
  rows_le := (by decide : 7 ≤ Grid.height)
  line_lt := by
    intro line hline
    have hmagic : (magicLine magic).length = 37 := by
      rw [magicLine, List.length_append, Numeral.length_wordHex]
      rfl
    simp only [rejectionPage, Page.rows, List.cons_append, List.nil_append, List.mem_cons,
      List.not_mem_nil, or_false] at hline
    rcases hline with rfl | rfl | rfl | rfl | rfl | rfl | rfl
    case inr.inr.inr.inr.inl => rw [spelled, List.length_map, hmagic]; decide
    all_goals decide

theorem staysOnPage_rejectionScript (magic : UInt32) :
    (rejectionScript magic).all Console.Operation.staysOnPage := by
  have hfixed : (openingScript ++ complaintScript).all Console.Operation.staysOnPage := by decide
  have hhex : (Console.Operation.writeHex magic).staysOnPage = true := by
    refine List.all_eq_true.mpr fun byte hbyte => ?_
    have hle := Numeral.le_of_mem_wordHex hbyte
    rw [Bool.and_eq_true, decide_eq_true_eq, decide_eq_true_eq]
    constructor
    · rintro rfl
      exact absurd hle (by decide)
    · rintro rfl
      exact absurd hle (by decide)
  rw [rejectionScript, List.all_append, hfixed, haltScript, List.all_cons, hhex]
  decide

theorem message_invalidMagic (magic : UInt32) :
    (HandoffError.invalidMagic magic).message =
      "invalid multiboot magic: expected 0x2BADB002, got "
        ++ Bytes.glyphs (Numeral.wordHex magic true) := by
  have htext (word : UInt32) :
      Handoff.magicText word = Bytes.glyphs (Numeral.wordHex word true) :=
    congrArg Bytes.glyphs (Numeral.prefixedUpperHex_eq_wordHex word)
  have hexpected : "invalid multiboot magic: expected "
      ++ Handoff.magicText Handoff.loaderMagic ++ ", got " =
        "invalid multiboot magic: expected 0x2BADB002, got " := by
    rw [htext]
    decide
  exact congrArg₂ (· ++ ·) hexpected (htext magic)

/-- What a rejection makes for the log. Its only error names the magic number. -/
def rejectionRecords (magic : UInt32) : List LogRecord :=
  [ ⟨.debug, logTarget, "boot state Booting"⟩,
    ⟨.debug, logTarget, "boot state Verifying"⟩,
    ⟨.error, logTarget, (HandoffError.invalidMagic magic).message⟩,
    ⟨.debug, logTarget, "boot state Halted"⟩ ]

theorem filterMap_rejectionEntries (magic : UInt32) :
    (rejectionEntries magic).filterMap Entry.record? = rejectionRecords magic :=
  rfl

theorem errors_of_rejectionRecords (magic : UInt32) (filter : LogFilter) :
    ((rejectionRecords magic).filter (·.level.rank ≤ filter.rank)).filter (·.level = .error) =
      if LogLevel.error.rank ≤ filter.rank then
        [⟨.error, logTarget, "invalid multiboot magic: expected 0x2BADB002, got "
          ++ Bytes.glyphs (Numeral.wordHex magic true)⟩]
      else [] := by
  rw [← message_invalidMagic, List.filter_filter]
  by_cases hadmits : LogLevel.error.rank ≤ filter.rank <;> simp [rejectionRecords, hadmits]

/-- A rejection on a fresh console, whatever is in memory. -/
theorem ending_of_rejection {magic : UInt32} (hmagic : magic ≠ Handoff.loaderMagic)
    (grid : Grid) {after : Console}
    (hplay : (Console.new grid).play (rejectionScript magic) = .ok after)
    (infoAddress : Address .loader) (m : LoadedMemory) (filter : LogFilter) :
    ending ⟨magic, infoAddress⟩ m (Console.new grid) filter =
      ⟨.ok .halted, after, rejectionScript magic, filter,
        (rejectionRecords magic).filter (·.level.rank ≤ filter.rank)⟩ := by
  have hrun := (performs_rejection ⟨magic, infoAddress⟩ hmagic m).run_of_play
    ⟨Console.new grid, ⟨filter, #[]⟩, #[]⟩ hplay
  have hsteady : Steady (rejectionEntries magic) := by
    simp [Steady, rejectionEntries, Entry.filter?]
  rw [ending_of_run hrun, foldl_hear_serialLog, hsteady.filterAfter, hsteady.emitted,
    filterMap_rejectionEntries, Array.empty_append, Array.empty_append]
  rfl

/-- A rejected hand-off is the end of the boot, without a fault. All that others see of it is made
from the magic number alone: the address, the memory and the mapping do not matter, and nobody
changes the filter. The screen shows the number, and so does the one error in the log. -/
theorem boot_of_wrong_magic (magic : UInt32) (hmagic : magic ≠ Handoff.loaderMagic) :
    ∃ (after : Console) (performed : List Console.Operation) (made : List LogRecord),
      (∀ infoAddress m grid filter,
        ending ⟨magic, infoAddress⟩ m (Console.new grid) filter =
          ⟨.ok .halted, after, performed, filter, made.filter (·.level.rank ≤ filter.rank)⟩) ∧
      after.row = 6 ∧ after.column = 0 ∧ after.colors = .of .lightRed .black ∧
      after.RowShows 3 (Bytes.ofText "ERROR: Invalid multiboot magic number!")
        (.of .lightRed .black) .default ∧
      after.RowShows 4 (Bytes.ofText "Expected: 0x2BADB002, Got: " ++ Numeral.wordHex magic true)
        (.of .lightRed .black) .default ∧
      after.RowShows 5 (Bytes.ofText "System halted.") (.of .lightRed .black) .default ∧
      (Numeral.wordHex magic true).length = 10 ∧
      Numeral.readUnsigned ((Numeral.wordHex magic true).drop 2) 16 = magic ∧
      ∀ filter : LogFilter,
        (made.filter (·.level.rank ≤ filter.rank)).filter (·.level = .error) =
          if LogLevel.error.rank ≤ filter.rank then
            [⟨.error, logTarget, "invalid multiboot magic: expected 0x2BADB002, got "
              ++ Bytes.glyphs (Numeral.wordHex magic true)⟩]
          else [] := by
  have hfits : ((⟨[], [], .default⟩ : Page).performAll (rejectionScript magic)).Fits := by
    rw [performAll_rejectionScript]
    exact fits_rejectionPage magic
  obtain ⟨after, hplay, hafter⟩ :=
    (Console.displays_new (.filled (.blank .default))).play
      (staysOnPage_rejectionScript magic) hfits
  rw [performAll_rejectionScript] at hafter
  obtain ⟨hrow, hcolumn⟩ := hafter.cursor (by decide : 0 < Grid.width)
  refine ⟨after, rejectionScript magic, rejectionRecords magic, ?_, hrow, hcolumn,
    hafter.colors, ?_, ?_, ?_, Numeral.length_wordHex magic true,
    Numeral.readUnsigned_wordHex magic true, errors_of_rejectionRecords magic⟩
  · exact fun infoAddress m grid filter =>
      ending_of_rejection hmagic grid hplay infoAddress m filter
  · exact hafter.rowShows (by decide) rfl
  · exact hafter.rowShows (by decide) rfl
  · exact hafter.rowShows (by decide) rfl

/-- The signature of an image header is one digit away from the right number. -/
theorem boot_of_signature :
    ImageHeader.signature ≠ Handoff.loaderMagic ∧
    ∃ (after : Console) (performed : List Console.Operation),
      (∀ infoAddress m grid,
        ending ⟨ImageHeader.signature, infoAddress⟩ m (Console.new grid) .off =
          ⟨.ok .halted, after, performed, .off, []⟩) ∧
      after.RowShows 4 (Bytes.ofText "Expected: 0x2BADB002, Got: 0x1BADB002")
        (.of .lightRed .black) .default := by
  have hsignature : ImageHeader.signature ≠ Handoff.loaderMagic := by decide
  have hline : Bytes.ofText "Expected: 0x2BADB002, Got: 0x1BADB002" =
      Bytes.ofText "Expected: 0x2BADB002, Got: "
        ++ Numeral.wordHex ImageHeader.signature true := by decide
  obtain ⟨after, performed, made, hending, -, -, -, -, hmagicRow, -⟩ :=
    boot_of_wrong_magic ImageHeader.signature hsignature
  have hnothing : made.filter (·.level.rank ≤ LogFilter.off.rank) = [] :=
    List.filter_eq_nil_iff.mpr fun r _ => by cases hlevel : r.level <;> decide
  refine ⟨hsignature, after, performed, ?_, ?_⟩
  · intro infoAddress m grid
    rw [hending, hnothing]
  · rw [hline]
    exact hmagicRow

end EarlyBoot.Boot
