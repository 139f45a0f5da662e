import EarlyBoot.Proofs.Console.Page
import EarlyBoot.Proofs.Console.Teletype

/-!
Output in whole lines. Text that begins and ends at the start of a line adds its lines to any page
alike, whatever pieces it is written in. As long as the page fits on the screen, nothing that was
printed is ever printed over: a teletype that is given the same operations strikes every cell at
most once.
-/

namespace EarlyBoot

namespace Console

/-- A text that takes up less than a row: it neither moves the cursor elsewhere nor fills the
row. -/
structure FitsRow (text : Bytes) : Prop where
  printable : ∀ byte ∈ text, Ascii.isPrintable byte = true
  short : text.length < Grid.width

instance (text : Bytes) : Decidable (FitsRow text) :=
  decidable_of_iff (text.all Ascii.isPrintable = true ∧ text.length < Grid.width)
    ⟨fun h => ⟨List.all_eq_true.mp h.1, h.2⟩, fun h => ⟨List.all_eq_true.mpr h.printable, h.short⟩⟩

theorem isControl_of_isPrintable {byte : UInt8} (h : Ascii.isPrintable byte = true) :
    isControl byte = false := by
  have hle : 32 ≤ byte.toNat := (decide_eq_true_eq.mp (Bool.and_eq_true_iff.mp h).1)
  simp only [isControl, decide_eq_false_iff_not, not_or]
  refine ⟨?_, ?_, ?_⟩ <;> rintro rfl <;> exact absurd hle (by decide)

theorem FitsRow.feed_notMem {text : Bytes} (h : FitsRow text) : '\n'.toUInt8 ∉ text := by
  intro hmem
  have hcontrol := isControl_of_isPrintable (h.printable _ hmem)
  exact absurd hcontrol (by decide)

/-- Whether all that an operation does is to write. -/
def Operation.writes : Operation → Bool
  | .setColors _ => false
  | .setForeground _ => false
  | .setBackground _ => false
  | .clear => false
  | .moveTo _ _ => false
  | .cell _ _ => false
  | _ => true

theorem Operation.staysOnPage_of_writes {operation : Operation} (h : operation.writes = true)
    (hprinted : ∀ byte ∈ operation.printed, byte = '\n'.toUInt8 ∨ Ascii.isPrintable byte = true) :
    operation.staysOnPage = true := by
  have hall : operation.printed.all fun byte => byte ≠ '\r'.toUInt8 && byte ≠ '\t'.toUInt8 := by
    refine List.all_eq_true.mpr fun byte hbyte => ?_
    rw [Bool.and_eq_true, decide_eq_true_eq, decide_eq_true_eq]
    rcases hprinted byte hbyte with rfl | hprintable
    · decide
    · have hcontrol := isControl_of_isPrintable hprintable
      simp only [isControl, decide_eq_false_iff_not, not_or] at hcontrol
      exact hcontrol.2
  cases operation <;> first | exact hall | cases h

/-- Operations that write these lines, each with a line feed behind it, and do nothing else. Where
one of them ends and the next one begins does not matter. -/
structure PrintsLines (operations : List Operation) (lines : List Bytes) : Prop where
  writes : ∀ operation ∈ operations, operation.writes = true
  fit : ∀ line ∈ lines, FitsRow line
  printed : operations.flatMap Operation.printed = lines.flatMap (· ++ ['\n'.toUInt8])

instance (operations : List Operation) (lines : List Bytes) :
    Decidable (PrintsLines operations lines) :=
  decidable_of_iff ((∀ operation ∈ operations, operation.writes = true) ∧
      (∀ line ∈ lines, FitsRow line) ∧
      operations.flatMap Operation.printed = lines.flatMap (· ++ ['\n'.toUInt8]))
    ⟨fun h => ⟨h.1, h.2.1, h.2.2⟩, fun h => ⟨h.writes, h.fit, h.printed⟩⟩

theorem PrintsLines.append {xs ys : List Operation} {lines lines' : List Bytes}
    (hxs : PrintsLines xs lines) (hys : PrintsLines ys lines') :
    PrintsLines (xs ++ ys) (lines ++ lines') where
  writes := List.forall_mem_append.mpr ⟨hxs.writes, hys.writes⟩
  fit := List.forall_mem_append.mpr ⟨hxs.fit, hys.fit⟩
  printed := by rw [List.flatMap_append, List.flatMap_append, hxs.printed, hys.printed]

end Console

namespace Page

/-- Operations that only write do so all together. -/
theorem performAll_of_writes {operations : List Console.Operation}
    (h : ∀ operation ∈ operations, operation.writes = true) (p : Page) :
    p.performAll operations = p.write (operations.flatMap Console.Operation.printed) := by
  induction operations generalizing p with
  | nil => rfl
  | cons operation rest ih =>
      obtain ⟨hoperation, hrest⟩ := List.forall_mem_cons.mp h
      have hperform : p.perform operation = p.write operation.printed := by
        cases operation <;> first | rfl | cases hoperation
      rw [performAll_cons, hperform, ih hrest, List.flatMap_cons, write, write, write,
        List.foldl_append]

/-- What is written up to a line feed ends the line. -/
theorem write_line {text : Bytes} (h : '\n'.toUInt8 ∉ text) (p : Page) (rest : Bytes) :
    p.write (text ++ '\n'.toUInt8 :: rest) =
      (⟨p.above ++ [p.line ++ text.map (.of · p.colors)], [], p.colors⟩ : Page).write rest := by
  have hsplit : p.write (text ++ '\n'.toUInt8 :: rest) =
      (p.write text).write ('\n'.toUInt8 :: rest) := List.foldl_append
  rw [hsplit, write_of_notMem h]
  rfl

theorem write_lines {lines : List Bytes} (h : ∀ line ∈ lines, Console.FitsRow line)
    (above : List (List Cell)) {colors : Attribute} :
    (⟨above, [], colors⟩ : Page).write (lines.flatMap (· ++ ['\n'.toUInt8])) =
      ⟨above ++ lines.map (·.map (.of · colors)), [], colors⟩ := by
  induction lines generalizing above with
  | nil => simp [write]
  | cons line rest ih =>
      obtain ⟨hline, hrest⟩ := List.forall_mem_cons.mp h
      rw [List.flatMap_cons, List.append_assoc, List.singleton_append,
        write_line hline.feed_notMem, List.nil_append, ih hrest, List.map_cons, List.append_assoc,
        List.singleton_append]

/-- Operations that add these rows to any page, from the start of a row to the start of another
one, and leave the colors like this. -/
structure Fills (operations : List Console.Operation) (colors : Attribute)
    (rows : List (List Cell)) (colors' : Attribute) : Prop where
  stays : operations.all Console.Operation.staysOnPage
  short : ∀ row ∈ rows, row.length < Grid.width
  performAll_eq : ∀ above,
    (⟨above, [], colors⟩ : Page).performAll operations = ⟨above ++ rows, [], colors'⟩

namespace Fills

variable {xs ys : List Console.Operation} {colors colors' colors'' : Attribute}
  {rows rows' : List (List Cell)}

theorem setColors : Fills [.setColors colors'] colors [] colors' where
  stays := rfl
  short := by simp
  performAll_eq above := by rw [List.append_nil]; rfl

theorem append (hxs : Fills xs colors rows colors') (hys : Fills ys colors' rows' colors'') :
    Fills (xs ++ ys) colors (rows ++ rows') colors'' where
  stays := by rw [List.all_append, hxs.stays, hys.stays]; rfl
  short row hrow := (List.mem_append.mp hrow).elim (hxs.short row) (hys.short row)
  performAll_eq above := by
    rw [performAll_append, hxs.performAll_eq, hys.performAll_eq, List.append_assoc]

/-- Writing lines and nothing else adds a row for each line, in the colors that are set. -/
theorem of_printsLines {lines : List Bytes} (h : Console.PrintsLines xs lines)
    (colors : Attribute) :
    Fills xs colors (lines.map (·.map (.of · colors))) colors where
  stays := by
    refine List.all_eq_true.mpr fun operation hoperation =>
      Console.Operation.staysOnPage_of_writes (h.writes operation hoperation) fun byte hbyte => ?_
    have hmem : byte ∈ lines.flatMap (· ++ ['\n'.toUInt8]) :=
      h.printed ▸ List.mem_flatMap.mpr ⟨operation, hoperation, hbyte⟩
    obtain ⟨line, hline, hbyte⟩ := List.mem_flatMap.mp hmem
    rcases List.mem_append.mp hbyte with hshown | hfeed
    · exact .inr ((h.fit line hline).printable byte hshown)
    · exact .inl (List.mem_singleton.mp hfeed)
  short row hrow := by
    obtain ⟨line, hline, rfl⟩ := List.mem_map.mp hrow
    rw [List.length_map]
    exact (h.fit line hline).short
  performAll_eq above := by
    rw [performAll_of_writes h.writes, h.printed]
    exact write_lines h.fit above

theorem fits (h : Fills xs colors rows colors') (hroom : rows.length < Grid.height) :
    ((⟨[], [], colors⟩ : Page).performAll xs).Fits := by
  rw [h.performAll_eq, List.nil_append]
  constructor
  · rw [Page.rows, List.length_append]
    exact hroom
  · intro line hline
    rcases List.mem_append.mp hline with hrow | hlast
    · exact h.short line hrow
    · rw [List.mem_singleton.mp hlast]
      exact Nat.zero_lt_succ 79

end Fills

end Page

namespace Teletype

/-- No cell of the screen was struck twice. -/
def StrikesOnce (t : Teletype) : Prop :=
  (t.strikes.map (·.counter % Grid.size)).Nodup

/-- A teletype that has typed a page: it stands at the end of the page, and has never gone back. -/
structure Typed (t : Teletype) (p : Page) : Prop where
  counter : t.counter = Grid.width * p.above.length + p.line.length
  ahead : ∀ strike ∈ t.strikes, strike.counter < t.counter
  order : t.strikes.Pairwise fun late early => early.counter < late.counter

theorem typed_start (colors : Attribute) : (start colors).Typed ⟨[], [], colors⟩ :=
  ⟨rfl, by simp [start], List.Pairwise.nil⟩

namespace Typed

variable {t : Teletype} {p : Page}

theorem put (h : t.Typed p) {byte : UInt8} (hreturn : byte ≠ '\r'.toUInt8)
    (htab : byte ≠ '\t'.toUInt8) (hline : p.line.length < Grid.width) :
    (t.put byte).Typed (p.put byte) := by
  have hcounter := h.counter
  by_cases hfeed : byte = '\n'.toUInt8
  · subst hfeed
    have hmoved : (t.put '\n'.toUInt8).counter = Grid.width * (p.above.length + 1) := by
      simp only [Teletype.put, Console.advance, if_true, Grid.width] at *
      omega
    refine ⟨?_, ?_, h.order⟩
    · rw [hmoved]
      simp [Page.put, Page.rows]
    · intro strike hstrike
      have hbefore := h.ahead strike hstrike
      rw [hmoved]
      simp only [Grid.width] at *
      omega
  · have hcontrol : Console.isControl byte = false := by
      simp [Console.isControl, hfeed, hreturn, htab]
    have hmoved : (t.put byte).counter = t.counter + 1 := by
      simp [Teletype.put, Console.advance, hfeed, hreturn, htab]
    have hstrikes : (t.put byte).strikes = ⟨t.counter, byte, t.colors⟩ :: t.strikes := by
      simp [Teletype.put, hcontrol]
    refine ⟨?_, ?_, ?_⟩
    · rw [hmoved, hcounter]
      simp [Page.put, hfeed, Nat.add_assoc]
    · rw [hmoved, hstrikes]
      intro strike hstrike
      rcases List.mem_cons.mp hstrike with rfl | hearlier
      · exact Nat.lt_succ_self _
      · exact Nat.lt_succ_of_lt (h.ahead strike hearlier)
    · rw [hstrikes]
      exact List.pairwise_cons.mpr ⟨h.ahead, h.order⟩

theorem write (h : t.Typed p) {bytes : Bytes}
    (hplain : bytes.all fun byte => byte ≠ '\r'.toUInt8 && byte ≠ '\t'.toUInt8)
    (hfits : (p.write bytes).Fits) : (t.write bytes).Typed (p.write bytes) := by
  induction bytes generalizing t p with
  | nil => exact h
  | cons byte rest ih =>
      simp only [List.all_cons, Bool.and_eq_true, decide_eq_true_eq] at hplain
      obtain ⟨⟨hreturn, htab⟩, hrest⟩ := hplain
      have hbefore := Page.fits_of_put (Page.fits_of_write hfits)
      exact ih (h.put hreturn htab hbefore.lt_of_line) hrest hfits

theorem perform (h : t.Typed p) {operation : Console.Operation}
    (hpage : operation.staysOnPage = true) (hfits : (p.perform operation).Fits) :
    (t.perform operation).Typed (p.perform operation) := by
  cases operation with
  | put byte => exact h.write hpage hfits
  | write bytes => exact h.write hpage hfits
  | writeString buffer => exact h.write hpage hfits
  | writeText text => exact h.write hpage hfits
  | writeChar char => exact h.write hpage hfits
  | writeDecimal value => exact h.write hpage hfits
  | writeSigned value base => exact h.write hpage hfits
  | writeHex value => exact h.write hpage hfits
  | setColors colors => exact ⟨h.counter, h.ahead, h.order⟩
  | setForeground color => cases hpage
  | setBackground color => cases hpage
  | clear => cases hpage
  | moveTo row column => cases hpage
  | cell row column => cases hpage

theorem performAll (h : t.Typed p) {operations : List Console.Operation}
    (hpage : operations.all Console.Operation.staysOnPage)
    (hfits : (p.performAll operations).Fits) :
    (t.performAll operations).Typed (p.performAll operations) := by
  induction operations generalizing t p with
  | nil => exact h
  | cons operation rest ih =>
      simp only [List.all_cons, Bool.and_eq_true] at hpage
      exact ih (h.perform hpage.1 (Page.fits_of_performAll hfits)) hpage.2 hfits

/-- On a page that fits on the screen the counter never comes to a cell again. -/
theorem strikesOnce (h : t.Typed p) (hfits : p.Fits) : t.StrikesOnce := by
  have hsize : t.counter < Grid.size := by
    have hrow := hfits.above_lt
    have hcolumn := hfits.lt_of_line
    rw [h.counter]
    simp only [Grid.size, Grid.width, Grid.height] at *
    omega
  have hoffset : ∀ strike ∈ t.strikes, strike.counter % Grid.size = strike.counter :=
    fun strike hstrike => Nat.mod_eq_of_lt (Nat.lt_trans (h.ahead strike hstrike) hsize)
  refine List.pairwise_map.mpr (h.order.imp_of_mem ?_)
  intro late early hlate hearly hlt
  rw [hoffset late hlate, hoffset early hearly]
  exact Nat.ne_of_gt hlt

end Typed

end Teletype

/-- Whole lines on a fresh console, fewer than the screen has rows: all of them are shown from the
top on, and no cell is printed twice. -/
theorem Page.Fills.displays {operations : List Console.Operation} {rows : List (List Cell)}
    {colors : Attribute} (h : Fills operations .default rows colors)
    (hroom : rows.length < Grid.height) (grid : Grid) :
    (∃ after, (Console.new grid).play operations = .ok after ∧
      after.Displays .default ⟨rows, [], colors⟩) ∧
    ((Teletype.start .default).performAll operations).StrikesOnce := by
  have hfits := h.fits hroom
  constructor
  · obtain ⟨after, hplay, hafter⟩ := (Console.displays_new grid).play h.stays hfits
    rw [h.performAll_eq, List.nil_append] at hafter
    exact ⟨after, hplay, hafter⟩
  · exact ((Teletype.typed_start .default).performAll h.stays hfits).strikesOnce hfits

end EarlyBoot
