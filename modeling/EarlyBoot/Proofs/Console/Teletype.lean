import EarlyBoot.Proofs.Console.Steps

/-!
The console as a teletype. A teletype has one counter that is never reduced and remembers every
byte it has struck; the screen is what is left of this when positions a whole screen apart fall
on the same cell. The console keeps a row, a column and 2000 cells and nothing else, and shows
exactly that.
-/

namespace EarlyBoot

/-- One struck byte: what the counter was, and the colors at that moment. -/
structure Strike where
  counter : Nat
  byte : UInt8
  colors : Attribute
deriving DecidableEq

structure Teletype where
  counter : Nat
  /-- What was struck since the paper was last cleared, the latest first. -/
  strikes : List Strike
  /-- The colors in which the paper was last cleared. -/
  ground : Attribute
  colors : Attribute
deriving DecidableEq

namespace Teletype

def start (colors : Attribute) : Teletype :=
  ⟨0, [], colors, colors⟩

def put (t : Teletype) (byte : UInt8) : Teletype :=
  { t with
    counter := Console.advance t.counter byte
    strikes :=
      if Console.isControl byte then t.strikes else ⟨t.counter, byte, t.colors⟩ :: t.strikes }

def write (t : Teletype) (bytes : Bytes) : Teletype :=
  bytes.foldl put t

def clear (t : Teletype) : Teletype :=
  { t with counter := 0, strikes := [], ground := t.colors }

def accepts (row column : Nat) : Bool :=
  row < Grid.height ∧ column < Grid.width

def moveTo (t : Teletype) (row column : Nat) : Teletype :=
  if accepts row column then { t with counter := Grid.width * row + column } else t

def setColors (t : Teletype) (colors : Attribute) : Teletype :=
  { t with colors := colors }

def perform (t : Teletype) : Console.Operation → Teletype
  | .put byte => t.put byte
  | .write bytes => t.write bytes
  | .writeString buffer => t.write (Terminated.content buffer)
  | .writeText text => t.write ((Bytes.ofText text).filter (· ≤ 0x7F))
  | .writeChar char => t.write ((Bytes.ofText char.toString).filter (· ≤ 0x7F))
  | .writeDecimal value => t.write (Numeral.unsigned value 10)
  | .writeSigned value base => t.write (Numeral.signed value base)
  | .writeHex value => t.write (Numeral.wordHex value true)
  | .setColors colors => t.setColors colors
  | .setForeground color => t.setColors (.of color t.colors.background)
  | .setBackground color => t.setColors (.of t.colors.foreground color)
  | .clear => t.clear
  | .moveTo row column => t.moveTo row column
  | .cell _ _ => t

def performAll (t : Teletype) (operations : List Console.Operation) : Teletype :=
  operations.foldl perform t

/-- The answer to an operation: only a move has one. -/
def reply : Console.Operation → Console.Reply
  | .moveTo row column => .moved (accepts row column)
  | _ => .done

/-- What a cell of the screen shows: the latest byte that was struck at its offset, and where
there is none the blank that clearing left. -/
def shown (t : Teletype) (q : Nat) : UInt8 × Attribute :=
  match t.strikes.find? (·.counter % Grid.size = q) with
  | some strike => (strike.byte, strike.colors)
  | none => (' '.toUInt8, t.ground)

theorem shown_put (t : Teletype) (byte : UInt8) (q : Nat) :
    (t.put byte).shown q =
      if Console.isControl byte = false ∧ q = t.counter % Grid.size then (byte, t.colors)
      else t.shown q := by
  cases hbyte : Console.isControl byte with
  | true => simp [shown, put, hbyte]
  | false =>
      by_cases hq : q = t.counter % Grid.size
      · simp [shown, put, hbyte, hq]
      · have hother : ¬ t.counter % Grid.size = q := fun h => hq h.symm
        simp [shown, put, hbyte, hq, hother]

end Teletype

namespace Console

/-- Whether an operation only asks for a cell. -/
def Operation.asks : Operation → Bool
  | .cell _ _ => true
  | _ => false

/-- The console shows what a teletype has printed, and will go on where that stands. -/
structure Shows (c : Console) (t : Teletype) : Prop where
  wellPlaced : c.WellPlaced
  offset : c.offset = t.counter % Grid.size
  colors : c.colors = t.colors
  cells : ∀ q < Grid.size, c.grid.read q = .ok (.of (t.shown q).1 (t.shown q).2)

theorem shows_start (grid : Grid) (colors : Attribute) :
    (withColors grid colors).Shows (.start colors) where
  wellPlaced := clear_wellPlaced _
  offset := rfl
  colors := rfl
  cells _ h := Grid.read_filled h _

namespace Shows

variable {c : Console} {t : Teletype}

theorem put (h : c.Shows t) (byte : UInt8) :
    ∃ after, c.put byte = .ok after ∧ after.Shows (t.put byte) := by
  obtain ⟨after, hput, hwritten⟩ := put_written h.wellPlaced byte
  refine ⟨after, hput, hwritten.wellPlaced, ?_, hwritten.colors.trans h.colors, ?_⟩
  · rw [hwritten.offset, h.offset, advance_mod]
    rfl
  · intro q hq
    rw [hwritten.cells, Teletype.shown_put, h.offset, h.colors]
    split
    · rfl
    · exact h.cells q hq

theorem write (h : c.Shows t) (bytes : Bytes) :
    ∃ after, c.write bytes = .ok after ∧ after.Shows (t.write bytes) := by
  induction bytes generalizing c t with
  | nil => exact ⟨c, rfl, h⟩
  | cons byte rest ih =>
      obtain ⟨next, hput, hnext⟩ := h.put byte
      obtain ⟨after, hrest, hafter⟩ := ih hnext
      exact ⟨after, by rw [write_cons, hput]; exact hrest, hafter⟩

theorem clear (h : c.Shows t) : c.clear.Shows t.clear where
  wellPlaced := clear_wellPlaced c
  offset := rfl
  colors := h.colors
  cells q hq := by
    change (Grid.filled (.blank c.colors)).read q = _
    rw [Grid.read_filled hq, h.colors]
    rfl

theorem setColors (h : c.Shows t) (colors : Attribute) :
    (c.setColors colors).Shows (t.setColors colors) where
  wellPlaced := ⟨h.wellPlaced.row_lt, h.wellPlaced.column_lt⟩
  offset := h.offset
  colors := rfl
  cells := h.cells

theorem setForeground (h : c.Shows t) (color : Color) :
    (c.setForeground color).Shows (t.setColors (.of color t.colors.background)) := by
  rw [← h.colors]
  exact h.setColors _

theorem setBackground (h : c.Shows t) (color : Color) :
    (c.setBackground color).Shows (t.setColors (.of t.colors.foreground color)) := by
  rw [← h.colors]
  exact h.setColors _

theorem moveTo (h : c.Shows t) (row column : Nat) :
    (c.moveTo row column).1 = Teletype.accepts row column ∧
      (c.moveTo row column).2.Shows (t.moveTo row column) := by
  have hplaced := moveTo_wellPlaced h.wellPlaced row column
  by_cases hinside : row < Grid.height ∧ column < Grid.width
  · have houtside : ¬ (Grid.height ≤ row ∨ Grid.width ≤ column) := by omega
    have haccepts : Teletype.accepts row column = true := decide_eq_true hinside
    simp only [Console.moveTo, if_neg houtside, Teletype.moveTo, haccepts, if_true] at hplaced ⊢
    refine ⟨trivial, hplaced, ?_, h.colors, h.cells⟩
    exact (Nat.mod_eq_of_lt hplaced.offset_lt).symm
  · have houtside : Grid.height ≤ row ∨ Grid.width ≤ column := by omega
    have haccepts : Teletype.accepts row column = false := decide_eq_false hinside
    simp only [Console.moveTo, if_pos houtside, Teletype.moveTo, haccepts]
    exact ⟨trivial, h⟩

private theorem of_write (h : c.Shows t) (bytes : Bytes) :
    ∃ after, (fun next => (Reply.done, next)) <$> c.write bytes = .ok (.done, after) ∧
      after.Shows (t.write bytes) := by
  obtain ⟨after, hwrite, hafter⟩ := h.write bytes
  exact ⟨after, by rw [hwrite]; rfl, hafter⟩

theorem perform (h : c.Shows t) (operation : Operation) (hwriting : operation.asks = false) :
    ∃ after, c.perform operation = .ok (Teletype.reply operation, after) ∧
      after.Shows (t.perform operation) := by
  cases operation with
  | put byte =>
      obtain ⟨after, hput, hafter⟩ := h.put byte
      exact ⟨after, by rw [Console.perform, hput]; rfl, hafter⟩
  | write bytes => exact h.of_write bytes
  | writeString buffer => exact h.of_write _
  | writeText text => exact h.of_write _
  | writeChar char => exact h.of_write _
  | writeDecimal value => exact h.of_write _
  | writeSigned value base => exact h.of_write _
  | writeHex value => exact h.of_write _
  | setColors colors => exact ⟨_, rfl, h.setColors colors⟩
  | setForeground color => exact ⟨_, rfl, h.setForeground color⟩
  | setBackground color => exact ⟨_, rfl, h.setBackground color⟩
  | clear => exact ⟨_, rfl, h.clear⟩
  | moveTo row column =>
      obtain ⟨hreply, hafter⟩ := h.moveTo row column
      exact ⟨_, by rw [Console.perform, Teletype.reply, ← hreply], hafter⟩
  | cell row column => cases hwriting

theorem performAll (h : c.Shows t) (operations : List Operation)
    (hwriting : ∀ operation ∈ operations, operation.asks = false) :
    (c.performAll operations).Shows (t.performAll operations) := by
  induction operations generalizing c t with
  | nil => exact h
  | cons operation rest ih =>
      obtain ⟨after, hperform, hafter⟩ := h.perform operation (hwriting operation (by simp))
      simp only [Console.performAll, hperform]
      exact ih hafter fun next hnext => hwriting next (by simp [hnext])

end Shows

/-- At every moment of a session the cursor is the counter of a teletype that was given the same
operations, modulo the size of the screen, and each cell shows the latest byte struck there in the
colors of its moment. No operation fails, and a byte changes no cell but the one under the
counter. -/
theorem performAll_prints_as_teletype (grid : Grid) (colors : Attribute)
    (operations : List Operation)
    (hwriting : ∀ operation ∈ operations, operation.asks = false) :
    let console := (withColors grid colors).performAll operations
    let teletype := (Teletype.start colors).performAll operations
    Grid.width * console.row + console.column = teletype.counter % Grid.size ∧
    console.colors = teletype.colors ∧
    (∀ q < Grid.size, ∃ cell, console.grid.read q = .ok cell ∧
      (cell.character, cell.colors) = teletype.shown q) ∧
    (∀ operation : Operation, operation.asks = false →
      ∃ after, console.perform operation = .ok (Teletype.reply operation, after)) ∧
    (∀ byte, ∃ after, console.put byte = .ok after ∧
      ∀ q, isControl byte = true ∨ q ≠ teletype.counter % Grid.size →
        after.grid.read q = console.grid.read q) := by
  intro console teletype
  have h : console.Shows teletype := (shows_start grid colors).performAll operations hwriting
  refine ⟨h.offset, h.colors, ?_, ?_, ?_⟩
  · intro q hq
    exact ⟨_, h.cells q hq, by simp⟩
  · intro operation hoperation
    obtain ⟨after, hperform, _⟩ := h.perform operation hoperation
    exact ⟨after, hperform⟩
  · intro byte
    obtain ⟨after, hput, hwritten⟩ := put_written h.wellPlaced byte
    refine ⟨after, hput, ?_⟩
    intro q hq
    rw [hwritten.cells, if_neg]
    rintro ⟨hbyte, hcursor⟩
    rcases hq with hcontrol | hother
    · rw [hbyte] at hcontrol
      cases hcontrol
    · exact hother (hcursor.trans h.offset)

/-- A session that clears the screen, fills its last cell and goes on with a tab. -/
def cornerSession : List Operation :=
  [ .put 'a'.toUInt8, .clear, .moveTo 24 79, .setForeground .yellow, .put 'x'.toUInt8,
    .put '\t'.toUInt8 ]

theorem performAll_cornerSession :
    let console := (withColors (.filled ⟨0xDEAD⟩) .default).performAll cornerSession
    (∀ operation ∈ cornerSession, operation.asks = false) ∧
    Grid.width * console.row + console.column = 8 ∧
    (∃ cell, console.grid.read 0 = .ok cell ∧
      (cell.character, cell.colors) = (' '.toUInt8, .default)) ∧
    (∃ cell, console.grid.read 1999 = .ok cell ∧
      (cell.character, cell.colors) = ('x'.toUInt8, .of .yellow .black)) := by
  have hwriting : ∀ operation ∈ cornerSession, operation.asks = false := by decide
  obtain ⟨hcursor, _, hcells, _⟩ :=
    performAll_prints_as_teletype (.filled ⟨0xDEAD⟩) .default cornerSession hwriting
  refine ⟨hwriting, hcursor.trans (by decide), ?_, ?_⟩
  · obtain ⟨cell, hread, hshown⟩ := hcells 0 (by decide)
    exact ⟨cell, hread, hshown.trans (by decide)⟩
  · obtain ⟨cell, hread, hshown⟩ := hcells 1999 (by decide)
    exact ⟨cell, hread, hshown.trans (by decide)⟩

end Console

end EarlyBoot
