import EarlyBoot.Proofs.Console.Teletype
import EarlyBoot.Proofs.Numeral.Digits

/-!
Sessions at the console are safe. Whatever is asked of a console, in whatever order, its cursor
stays on the screen, every byte that is shown is stored in a cell that exists, and nothing fails
but a question for a cell that does not exist, which leaves the console alone.
-/

namespace EarlyBoot.Console

theorem Operation.eq_cell_of_asks {operation : Operation} (h : operation.asks = true) :
    ∃ row column, operation = .cell row column := by
  cases operation <;> first | exact ⟨_, _, rfl⟩ | cases h

/-- The question for a cell is checked twice: the offset has to be a word, and on the screen. A
column past the end of its row is no mistake of itself. -/
theorem perform_cell (c : Console) (row column : Nat) :
    c.perform (.cell row column) =
      if h : row * Grid.width + column < Grid.size then
        .ok (.shown c.grid.cells[row * Grid.width + column], c)
      else if row * Grid.width + column < 2 ^ Word.bits then
        .error (.offScreen (row * Grid.width + column))
      else .error .overflow := by
  rw [perform, cell, Grid.offsetAt]
  by_cases hword : row * Grid.width + column < 2 ^ Word.bits
  · rw [Word.fit_of_lt hword, if_pos hword]
    change (Reply.shown · , c) <$> c.grid.read (row * Grid.width + column) = _
    rw [Grid.read]
    split <;> rfl
  · have hsize : ¬ row * Grid.width + column < Grid.size := fun hlt =>
      hword (Nat.lt_trans hlt (by decide))
    rw [Word.fit_of_le (Nat.le_of_not_lt hword), dif_neg hsize, if_neg hword]
    rfl

/-- A move is accepted if there is such a position on the screen, and otherwise nothing happens. -/
theorem perform_moveTo (c : Console) (row column : Nat) :
    c.perform (.moveTo row column) =
      if row < Grid.height ∧ column < Grid.width then
        .ok (.moved true, { c with row := row, column := column })
      else .ok (.moved false, c) := by
  simp only [perform, moveTo]
  by_cases hinside : row < Grid.height ∧ column < Grid.width
  · rw [if_pos hinside, if_neg (by omega)]
  · rw [if_neg hinside, if_pos (by omega)]

section

variable {c : Console} (h : c.WellPlaced)

include h

private theorem done_of_write (bytes : Bytes) :
    ∃ after, (fun next => (Reply.done, next)) <$> c.write bytes = .ok (.done, after) ∧
      after.WellPlaced := by
  obtain ⟨after, hwrite, hafter⟩ := write_wellPlaced h bytes
  exact ⟨after, by rw [hwrite]; rfl, hafter⟩

/-- One step of a session: only the question for a cell can fail. -/
theorem perform_wellPlaced {operation : Operation} (hwriting : operation.asks = false) :
    ∃ reply after, c.perform operation = .ok (reply, after) ∧ after.WellPlaced := by
  cases operation with
  | put byte =>
      obtain ⟨after, hput, hwritten⟩ := put_written h byte
      exact ⟨.done, after, by rw [perform, hput]; rfl, hwritten.wellPlaced⟩
  | write bytes => exact ⟨.done, done_of_write h bytes⟩
  | writeString buffer => exact ⟨.done, done_of_write h _⟩
  | writeText text => exact ⟨.done, done_of_write h _⟩
  | writeChar char => exact ⟨.done, done_of_write h _⟩
  | writeDecimal value => exact ⟨.done, done_of_write h _⟩
  | writeSigned value base => exact ⟨.done, done_of_write h _⟩
  | writeHex value => exact ⟨.done, done_of_write h _⟩
  | setColors colors => exact ⟨.done, _, rfl, h.row_lt, h.column_lt⟩
  | setForeground color => exact ⟨.done, _, rfl, h.row_lt, h.column_lt⟩
  | setBackground color => exact ⟨.done, _, rfl, h.row_lt, h.column_lt⟩
  | clear => exact ⟨.done, _, rfl, clear_wellPlaced c⟩
  | moveTo row column => exact ⟨_, _, rfl, moveTo_wellPlaced h row column⟩
  | cell row column => cases hwriting

/-- A whole session, which a question for a missing cell may end early. -/
theorem performAll_wellPlaced (operations : List Operation) :
    (c.performAll operations).WellPlaced := by
  induction operations generalizing c with
  | nil => exact h
  | cons operation rest ih =>
      cases hasks : operation.asks with
      | false =>
          obtain ⟨reply, after, hperform, hafter⟩ := perform_wellPlaced h hasks
          simp only [performAll, hperform]
          exact ih hafter
      | true =>
          obtain ⟨row, column, rfl⟩ := Operation.eq_cell_of_asks hasks
          simp only [performAll, perform]
          cases c.cell row column with
          | error fault => exact h
          | ok shown => exact ih h

/-- Writing some bytes goes through consoles that putting them one by one goes through. -/
theorem write_eq_performAll (bytes : Bytes) :
    c.write bytes = .ok (c.performAll (bytes.map .put)) := by
  induction bytes generalizing c with
  | nil => rfl
  | cons byte rest ih =>
      obtain ⟨after, hput, hwritten⟩ := put_written h byte
      have hperform : c.perform (.put byte) = .ok (.done, after) := by rw [perform, hput]; rfl
      rw [write_cons, hput, List.map_cons]
      simp only [performAll, hperform]
      exact ih hwritten.wellPlaced

end

/-- At every moment of a session the cursor is on the screen. A byte is stored there and nowhere
else, and a string of bytes is stored byte after byte. The numerals that are written are no longer
than the room for them. No operation fails but the question for a cell: that fails exactly where
there is no such cell, in one of two ways, and changes nothing. A move is accepted exactly if it
stays on the screen, and changes nothing otherwise. -/
theorem performAll_safe (grid : Grid) (colors : Attribute) (operations : List Operation) :
    let console := (withColors grid colors).performAll operations
    let offset := Grid.width * console.row + console.column
    console.row < Grid.height ∧ console.column < Grid.width ∧ offset < Grid.size ∧
    (∀ byte, ∃ after, console.put byte = .ok after ∧
      ∀ q, after.grid.read q =
        if isControl byte = false ∧ q = offset then .ok (.of byte console.colors)
        else console.grid.read q) ∧
    (∀ bytes, console.write bytes = .ok (console.performAll (bytes.map .put))) ∧
    (∀ value base, (Numeral.unsigned value base).length ≤ Numeral.capacity) ∧
    (∀ value base, (Numeral.signed value base).length ≤ Numeral.capacity) ∧
    (∀ operation : Operation, operation.asks = false →
      ∃ reply after, console.perform operation = .ok (reply, after)) ∧
    (∀ row column, console.perform (.cell row column) =
      if h : row * Grid.width + column < Grid.size then
        .ok (.shown console.grid.cells[row * Grid.width + column], console)
      else if row * Grid.width + column < 2 ^ Word.bits then
        .error (.offScreen (row * Grid.width + column))
      else .error .overflow) ∧
    (∀ row column, console.perform (.moveTo row column) =
      if row < Grid.height ∧ column < Grid.width then
        .ok (.moved true, { console with row := row, column := column })
      else .ok (.moved false, console)) := by
  intro console offset
  have h : console.WellPlaced := performAll_wellPlaced (clear_wellPlaced _) operations
  refine ⟨h.row_lt, h.column_lt, h.offset_lt, ?_, write_eq_performAll h,
    Numeral.length_unsigned_le, Numeral.length_signed_le, ?_, perform_cell console,
    perform_moveTo console⟩
  · intro byte
    obtain ⟨after, hput, hwritten⟩ := put_written h byte
    exact ⟨after, hput, hwritten.cells⟩
  · intro operation hwriting
    obtain ⟨reply, after, hperform, -⟩ := perform_wellPlaced h hwriting
    exact ⟨reply, after, hperform⟩

end EarlyBoot.Console
