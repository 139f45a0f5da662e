import EarlyBoot.Proofs.Console.Steps

/-!
Output that fits on one screen. As long as no line is full and the last row is not left, the rows
of the screen are the lines that were written, from the top on, and nothing is overwritten. A page
is these lines; performing operations on a page is performing them on a console that displays it.
-/

namespace EarlyBoot

namespace Console

/-- The bytes that an operation writes. -/
def Operation.printed : Operation → Bytes
  | .put byte => [byte]
  | .write bytes => bytes
  | .writeString buffer => Terminated.content buffer
  | .writeText text => (Bytes.ofText text).filter (· ≤ 0x7F)
  | .writeChar char => (Bytes.ofText char.toString).filter (· ≤ 0x7F)
  | .writeDecimal value => Numeral.unsigned value 10
  | .writeSigned value base => Numeral.signed value base
  | .writeHex value => Numeral.wordHex value true
  | _ => []

/-- Whether an operation sets the colors, or writes text without carriage returns and tabs. -/
def Operation.staysOnPage : Operation → Bool
  | .setColors _ => true
  | .setForeground _ => false
  | .setBackground _ => false
  | .clear => false
  | .moveTo _ _ => false
  | .cell _ _ => false
  | operation => operation.printed.all fun byte => byte ≠ '\r'.toUInt8 && byte ≠ '\t'.toUInt8

/-- The console after operations one after the other. Here a fault is the result. -/
def play (c : Console) (operations : List Operation) : Except Fault Console :=
  operations.foldlM (fun console operation => Prod.snd <$> console.perform operation) c

theorem play_nil (c : Console) : c.play [] = .ok c :=
  rfl

theorem play_cons (c : Console) (operation : Operation) (rest : List Operation) :
    c.play (operation :: rest) =
      (Prod.snd <$> c.perform operation) >>= fun after => after.play rest :=
  List.foldlM_cons

theorem play_append (c : Console) (xs ys : List Operation) :
    c.play (xs ++ ys) = c.play xs >>= fun after => after.play ys :=
  List.foldlM_append

end Console

/-- Lines from the top of the screen on, the last of them where the cursor is, and the colors of
what is written next. -/
structure Page where
  above : List (List Cell)
  line : List Cell
  colors : Attribute

namespace Page

def rows (p : Page) : List (List Cell) :=
  p.above ++ [p.line]

def put (p : Page) (byte : UInt8) : Page :=
  if byte = '\n'.toUInt8 then { p with above := p.rows, line := [] }
  else { p with line := p.line ++ [.of byte p.colors] }

def write (p : Page) (bytes : Bytes) : Page :=
  bytes.foldl put p

def perform (p : Page) : Console.Operation → Page
  | .setColors colors => { p with colors := colors }
  | operation => p.write operation.printed

def performAll (p : Page) (operations : List Console.Operation) : Page :=
  operations.foldl perform p

/-- There is a row for every line, and room for one more cell in each line. -/
structure Fits (p : Page) : Prop where
  rows_le : p.rows.length ≤ Grid.height
  line_lt : ∀ line ∈ p.rows, line.length < Grid.width

instance (p : Page) : Decidable p.Fits :=
  decidable_of_iff (p.rows.length ≤ Grid.height ∧ ∀ line ∈ p.rows, line.length < Grid.width)
    ⟨fun h => ⟨h.1, h.2⟩, fun h => ⟨h.rows_le, h.line_lt⟩⟩

/-- The cell that a page puts at an offset of the screen. -/
def cell? (p : Page) (q : Nat) : Option Cell :=
  p.rows[q / Grid.width]?.bind (·[q % Grid.width]?)

theorem Fits.above_lt {p : Page} (h : p.Fits) : p.above.length < Grid.height := by
  have hrows := h.rows_le
  rw [rows, List.length_append, List.length_singleton] at hrows
  exact hrows

theorem Fits.lt_of_line {p : Page} (h : p.Fits) : p.line.length < Grid.width :=
  h.line_lt p.line (List.mem_append_right _ (List.mem_singleton_self _))

/-- The line that is begun is empty, like all the rows below it. -/
theorem cell?_put_feed (p : Page) (q : Nat) : (p.put '\n'.toUInt8).cell? q = p.cell? q := by
  simp only [cell?, put, if_true, rows]
  rcases Nat.lt_trichotomy (q / Grid.width) (p.above ++ [p.line]).length with hlt | heq | hgt
  · rw [List.getElem?_append_left hlt]
  · rw [List.getElem?_append_right (Nat.le_of_eq heq.symm), heq, Nat.sub_self,
      List.getElem?_eq_none (Nat.le_refl _)]
    rfl
  · rw [List.getElem?_eq_none (Nat.le_of_lt hgt), List.getElem?_eq_none]
    rw [List.length_append, List.length_singleton]
    exact hgt

theorem cell?_put (p : Page) {byte : UInt8} (hfeed : byte ≠ '\n'.toUInt8)
    (hline : p.line.length < Grid.width) (q : Nat) :
    (p.put byte).cell? q =
      if q = Grid.width * p.above.length + p.line.length then some (.of byte p.colors)
      else p.cell? q := by
  simp only [cell?, put, if_neg hfeed, rows]
  rcases Nat.lt_trichotomy (q / Grid.width) p.above.length with hlt | heq | hgt
  · rw [if_neg (by simp only [Grid.width] at *; omega), List.getElem?_append_left hlt,
      List.getElem?_append_left hlt]
  · have hbehind := Nat.le_of_eq heq.symm
    rw [List.getElem?_append_right hbehind, List.getElem?_append_right hbehind, heq,
      Nat.sub_self]
    simp only [List.getElem?_cons_zero, Option.bind_some]
    by_cases hend : q % Grid.width = p.line.length
    · rw [if_pos (by simp only [Grid.width] at *; omega), hend]
      simp
    · rw [if_neg (by simp only [Grid.width] at *; omega), List.getElem?_append]
      split
      · rfl
      · rename_i hpast
        rw [List.getElem?_eq_none (by rw [List.length_singleton]; omega),
          List.getElem?_eq_none (Nat.le_of_not_lt hpast)]
  · rw [if_neg (by simp only [Grid.width] at *; omega), List.getElem?_eq_none,
      List.getElem?_eq_none]
    all_goals
      rw [List.length_append, List.length_singleton]
      exact hgt

theorem performAll_cons (p : Page) (operation : Console.Operation)
    (rest : List Console.Operation) :
    p.performAll (operation :: rest) = (p.perform operation).performAll rest :=
  rfl

theorem performAll_append (p : Page) (xs ys : List Console.Operation) :
    p.performAll (xs ++ ys) = (p.performAll xs).performAll ys :=
  List.foldl_append

/-- Text without line feeds goes on in the line. -/
theorem write_of_notMem {p : Page} {bytes : Bytes} (h : '\n'.toUInt8 ∉ bytes) :
    p.write bytes = { p with line := p.line ++ bytes.map (.of · p.colors) } := by
  induction bytes generalizing p with
  | nil => simp [write]
  | cons byte rest ih =>
      have hbyte : byte ≠ '\n'.toUInt8 := fun heq => h (by simp [heq])
      have hrest : '\n'.toUInt8 ∉ rest := fun hmem => h (List.mem_cons_of_mem _ hmem)
      have hput : p.put byte = { p with line := p.line ++ [.of byte p.colors] } := if_neg hbyte
      change (p.put byte).write rest = _
      rw [ih hrest, hput]
      simp

theorem fits_of_put {p : Page} {byte : UInt8} (h : (p.put byte).Fits) : p.Fits := by
  have hrows := h.rows_le
  have hlines := h.line_lt
  simp only [put] at hrows hlines
  split at hrows
  · rename_i hfeed
    simp only [hfeed, if_true, rows, List.length_append, List.length_cons,
      List.length_nil] at hrows hlines
    refine ⟨?_, ?_⟩
    · simp only [rows, List.length_append, List.length_cons, List.length_nil]
      omega
    · intro line hline
      exact hlines line (List.mem_append_left _ hline)
  · rename_i hshown
    simp only [hshown, if_false, rows, List.length_append, List.length_cons,
      List.length_nil] at hrows hlines
    refine ⟨by simpa [rows] using hrows, ?_⟩
    intro line hline
    simp only [rows, List.mem_append, List.mem_singleton] at hline
    rcases hline with habove | rfl
    · exact hlines line (List.mem_append_left _ habove)
    · have hlonger := hlines _ (List.mem_append_right _ (List.mem_singleton_self _))
      simp only [List.length_append, List.length_cons, List.length_nil] at hlonger
      omega

theorem fits_of_write {p : Page} {bytes : Bytes} (h : (p.write bytes).Fits) : p.Fits := by
  induction bytes generalizing p with
  | nil => exact h
  | cons byte rest ih => exact fits_of_put (ih h)

theorem fits_of_perform {p : Page} {operation : Console.Operation}
    (h : (p.perform operation).Fits) : p.Fits := by
  cases operation
  case setColors => exact ⟨h.rows_le, h.line_lt⟩
  all_goals exact fits_of_write h

theorem fits_of_performAll {p : Page} {operations : List Console.Operation}
    (h : (p.performAll operations).Fits) : p.Fits := by
  induction operations generalizing p with
  | nil => exact h
  | cons operation rest ih => exact fits_of_perform (ih h)

end Page

namespace Console

/-- The console displays a page on blanks of some color, and goes on at its end. -/
structure Displays (c : Console) (ground : Attribute) (p : Page) : Prop where
  wellPlaced : c.WellPlaced
  offset : c.offset = Grid.width * p.above.length + p.line.length
  colors : c.colors = p.colors
  cells : ∀ q < Grid.size, c.grid.read q = .ok ((p.cell? q).getD (.blank ground))

theorem displays_new (grid : Grid) : (new grid).Displays .default ⟨[], [], .default⟩ where
  wellPlaced := clear_wellPlaced _
  offset := rfl
  colors := rfl
  cells q hq := by
    change (Grid.filled (.blank .default)).read q = _
    rw [Grid.read_filled hq]
    simp only [Page.cell?, Page.rows, List.nil_append]
    cases q / Grid.width with
    | zero => rfl
    | succ row => rfl

/-- The console shows a text from the start of a row on, and blanks behind it. -/
def RowShows (c : Console) (row : Nat) (text : Bytes) (colors ground : Attribute) : Prop :=
  ∀ column < Grid.width,
    c.cell row column = .ok ((text[column]?.map (.of · colors)).getD (.blank ground))

namespace Displays

variable {c : Console} {ground : Attribute} {p : Page}

theorem put (h : c.Displays ground p) {byte : UInt8} (hreturn : byte ≠ '\r'.toUInt8)
    (htab : byte ≠ '\t'.toUInt8) (hfits : (p.put byte).Fits) :
    ∃ after, c.put byte = .ok after ∧ after.Displays ground (p.put byte) := by
  have hbefore := Page.fits_of_put hfits
  have hrow := hbefore.above_lt
  have hcolumn := hbefore.lt_of_line
  obtain ⟨after, hput, hwritten⟩ := put_written h.wellPlaced byte
  refine ⟨after, hput, hwritten.wellPlaced, ?_, hwritten.colors.trans ?_, ?_⟩
  · have hnextRow := hfits.above_lt
    have hnextColumn := hfits.lt_of_line
    rw [hwritten.offset, h.offset]
    by_cases hfeed : byte = '\n'.toUInt8
    · simp only [advance, Page.put, Page.rows, hfeed, if_true, List.length_append,
        List.length_cons, List.length_nil, Grid.size, Grid.width, Grid.height] at *
      omega
    · simp only [advance, Page.put, hfeed, hreturn, htab, if_false, List.length_append,
        List.length_cons, List.length_nil, Grid.size, Grid.width, Grid.height] at *
      omega
  · rw [h.colors, Page.put]
    split <;> rfl
  · intro q hq
    rw [hwritten.cells, h.cells q hq, h.offset, h.colors]
    by_cases hfeed : byte = '\n'.toUInt8
    · have hcontrol : isControl byte = true := by simp [isControl, hfeed]
      rw [if_neg (by simp [hcontrol]), hfeed, p.cell?_put_feed]
    · have hcontrol : isControl byte = false := by simp [isControl, hfeed, hreturn, htab]
      simp only [hcontrol, true_and, p.cell?_put hfeed hcolumn]
      split <;> rfl

theorem write (h : c.Displays ground p) {bytes : Bytes}
    (hplain : bytes.all fun byte => byte ≠ '\r'.toUInt8 && byte ≠ '\t'.toUInt8)
    (hfits : (p.write bytes).Fits) :
    ∃ after, c.write bytes = .ok after ∧ after.Displays ground (p.write bytes) := by
  induction bytes generalizing c p with
  | nil => exact ⟨c, rfl, h⟩
  | cons byte rest ih =>
      simp only [List.all_cons, Bool.and_eq_true, decide_eq_true_eq] at hplain
      obtain ⟨⟨hreturn, htab⟩, hrest⟩ := hplain
      obtain ⟨next, hput, hnext⟩ := h.put hreturn htab (Page.fits_of_write hfits)
      obtain ⟨after, hwrite, hafter⟩ := ih hnext hrest hfits
      exact ⟨after, by rw [write_cons, hput]; exact hwrite, hafter⟩

private theorem of_write (h : c.Displays ground p) {bytes : Bytes}
    (hplain : bytes.all fun byte => byte ≠ '\r'.toUInt8 && byte ≠ '\t'.toUInt8)
    (hfits : (p.write bytes).Fits) :
    ∃ after, Prod.snd <$> ((fun next => (Reply.done, next)) <$> c.write bytes) = .ok after ∧
      after.Displays ground (p.write bytes) := by
  obtain ⟨after, hwrite, hafter⟩ := h.write hplain hfits
  exact ⟨after, by rw [hwrite]; rfl, hafter⟩

theorem perform (h : c.Displays ground p) {operation : Operation}
    (hpage : operation.staysOnPage = true) (hfits : (p.perform operation).Fits) :
    ∃ after, Prod.snd <$> c.perform operation = .ok after ∧
      after.Displays ground (p.perform operation) := by
  cases operation with
  | put byte =>
      have hsingle : c.write [byte] = c.put byte := by
        rw [write_cons]
        cases c.put byte <;> rfl
      rw [Console.perform, ← hsingle]
      exact h.of_write hpage hfits
  | write bytes => exact h.of_write hpage hfits
  | writeString buffer => exact h.of_write hpage hfits
  | writeText text => exact h.of_write hpage hfits
  | writeChar char => exact h.of_write hpage hfits
  | writeDecimal value => exact h.of_write hpage hfits
  | writeSigned value base => exact h.of_write hpage hfits
  | writeHex value => exact h.of_write hpage hfits
  | setColors colors =>
      exact ⟨c.setColors colors, rfl, ⟨h.wellPlaced.row_lt, h.wellPlaced.column_lt⟩, h.offset,
        rfl, h.cells⟩
  | setForeground color => cases hpage
  | setBackground color => cases hpage
  | clear => cases hpage
  | moveTo row column => cases hpage
  | cell row column => cases hpage

/-- Operations whose output fits on the page never fail, and the console then displays the page
that they make. -/
theorem play (h : c.Displays ground p) {operations : List Operation}
    (hpage : operations.all Operation.staysOnPage) (hfits : (p.performAll operations).Fits) :
    ∃ after, c.play operations = .ok after ∧ after.Displays ground (p.performAll operations) := by
  induction operations generalizing c p with
  | nil => exact ⟨c, rfl, h⟩
  | cons operation rest ih =>
      simp only [List.all_cons, Bool.and_eq_true] at hpage
      obtain ⟨next, hperform, hnext⟩ := h.perform hpage.1 (Page.fits_of_performAll hfits)
      obtain ⟨after, hplay, hafter⟩ := ih hnext hpage.2 hfits
      exact ⟨after, by rw [play_cons, hperform]; exact hplay, hafter⟩

/-- The row of a line shows that line, and a row below the page shows nothing. -/
theorem rowShows_getD (h : c.Displays ground p) {row : Nat} {text : Bytes} {colors : Attribute}
    (hrow : row < Grid.height) (htext : p.rows[row]?.getD [] = text.map (.of · colors)) :
    c.RowShows row text colors ground := by
  intro column hcolumn
  have hlt : Grid.width * row + column < Grid.size := by
    simp only [Grid.size, Grid.width, Grid.height] at *
    omega
  have hquotient : (Grid.width * row + column) / Grid.width = row := by
    simp only [Grid.width] at *
    omega
  have hremainder : (Grid.width * row + column) % Grid.width = column := by
    simp only [Grid.width] at *
    omega
  rw [cell_eq_read c hrow hcolumn, h.cells _ hlt, Page.cell?, hquotient, hremainder,
    ← List.getElem?_map, ← htext]
  cases p.rows[row]? <;> rfl

theorem rowShows (h : c.Displays ground p) {row : Nat} {text : Bytes} {colors : Attribute}
    (hrow : row < Grid.height) (htext : p.rows[row]? = some (text.map (.of · colors))) :
    c.RowShows row text colors ground :=
  h.rowShows_getD hrow (by rw [htext]; rfl)

/-- The cursor is at the end of the last line. -/
theorem cursor (h : c.Displays ground p) (hline : p.line.length < Grid.width) :
    c.row = p.above.length ∧ c.column = p.line.length := by
  have hcolumn := h.wellPlaced.column_lt
  have hoffset := h.offset
  simp only [Console.offset, Grid.width] at *
  omega

end Displays

end Console

end EarlyBoot
