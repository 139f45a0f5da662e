import EarlyBoot.Console.Operation
import EarlyBoot.Proofs.Word

/-!
What one step of the console does while the cursor is on the screen. No step fails, the cursor
stays on the screen, and a byte changes at most the cell under the cursor. The cursor is one
number here, its offset, and every rule that moves it is a rule of one counter modulo the size of
the screen.
-/

namespace EarlyBoot

namespace Cell

private theorem word_toNat (byte : UInt8) (colors : Attribute) :
    (Cell.of byte colors).word.toNat = colors.byte.toNat * 256 + byte.toNat := by
  have hcolors := colors.byte.toNat_lt
  have hshift : colors.byte.toNat <<< 8 % 2 ^ 16 = colors.byte.toNat <<< 8 := by
    apply Nat.mod_eq_of_lt
    rw [Nat.shiftLeft_eq]
    omega
  simp only [Cell.of, UInt16.toNat_or, UInt16.toNat_shiftLeft, UInt8.toNat_toUInt16]
  change byte.toNat ||| colors.byte.toNat <<< 8 % 2 ^ 16 = _
  rw [hshift, Nat.or_comm, ← Nat.shiftLeft_add_eq_or_of_lt byte.toNat_lt, Nat.shiftLeft_eq]

@[simp] theorem character_of (byte : UInt8) (colors : Attribute) :
    (Cell.of byte colors).character = byte := by
  have hbyte := byte.toNat_lt
  apply UInt8.toNat_inj.mp
  change ((Cell.of byte colors).word.toNat &&& (2 ^ 8 - 1)) % 2 ^ 8 = _
  rw [Nat.and_two_pow_sub_one_eq_mod, word_toNat]
  omega

@[simp] theorem colors_of (byte : UInt8) (colors : Attribute) :
    (Cell.of byte colors).colors = colors := by
  have hcolors := colors.byte.toNat_lt
  have hbyte := byte.toNat_lt
  obtain ⟨value⟩ := colors
  simp only [Cell.colors, Attribute.mk.injEq]
  apply UInt8.toNat_inj.mp
  change ((Cell.of byte ⟨value⟩).word.toNat >>> 8) % 2 ^ 8 = _
  rw [Nat.shiftRight_eq_div_pow, word_toNat]
  simp only at hcolors ⊢
  omega

end Cell

namespace Grid

/-- A write on the screen succeeds and is seen at its own offset only. -/
theorem write_of_lt (g : Grid) {offset : Nat} (h : offset < size) (c : Cell) :
    ∃ after, g.write offset c = .ok after ∧
      ∀ q, after.read q = if q = offset then .ok c else g.read q := by
  refine ⟨⟨g.cells.set offset c h⟩, dif_pos h, ?_⟩
  intro q
  by_cases hq : q = offset
  · subst hq
    simp [read, h]
  · simp only [read, if_neg hq]
    split
    · rw [Vector.getElem_set_ne (h := fun heq => hq heq.symm)]
    · rfl

theorem read_filled {q : Nat} (h : q < size) (c : Cell) : (filled c).read q = .ok c := by
  simp [read, filled, h]

end Grid

namespace Console

structure WellPlaced (c : Console) : Prop where
  row_lt : c.row < Grid.height
  column_lt : c.column < Grid.width

def offset (c : Console) : Nat :=
  Grid.width * c.row + c.column

theorem WellPlaced.offset_lt {c : Console} (h : c.WellPlaced) : c.offset < Grid.size := by
  have hrow := h.row_lt
  have hcolumn := h.column_lt
  simp only [offset, Grid.size, Grid.width, Grid.height] at *
  omega

/-- The bytes that move the cursor and show nothing. -/
def isControl (byte : UInt8) : Bool :=
  byte = '\n'.toUInt8 ∨ byte = '\r'.toUInt8 ∨ byte = '\t'.toUInt8

/-- One counter for the cursor: a line feed goes to the next multiple of the width, a carriage
return back to the last one, a tab to the next tab stop, and any other byte one further. -/
def advance (counter : Nat) (byte : UInt8) : Nat :=
  if byte = '\n'.toUInt8 then (counter / Grid.width + 1) * Grid.width
  else if byte = '\r'.toUInt8 then counter / Grid.width * Grid.width
  else if byte = '\t'.toUInt8 then (counter / tabWidth + 1) * tabWidth
  else counter + 1

theorem advance_of_shown {byte : UInt8} (hshown : isControl byte = false) (counter : Nat) :
    advance counter byte = counter + 1 := by
  simp only [isControl, decide_eq_false_iff_not, not_or] at hshown
  simp [advance, hshown]

/-- The screen holds whole rows and whole tab stops, so only the counter modulo the size of the
screen matters for where it goes. -/
theorem advance_mod (counter : Nat) (byte : UInt8) :
    advance (counter % Grid.size) byte % Grid.size = advance counter byte % Grid.size := by
  simp only [advance, tabWidth, Grid.size, Grid.width, Grid.height]
  split
  · omega
  · split
    · omega
    · split <;> omega

theorem nextLine_wellPlaced (c : Console) : c.nextLine.WellPlaced :=
  ⟨Nat.mod_lt _ (by decide), by simp [nextLine]⟩

/-- Past the last row comes the first, and past the last offset the offset zero. -/
theorem offset_nextLine (c : Console) :
    c.nextLine.offset = Grid.width * (c.row + 1) % Grid.size := by
  simp only [offset, nextLine, Grid.size, Grid.width, Grid.height]
  omega

theorem tab_eq {c : Console} (h : c.WellPlaced) :
    c.tab = .ok (if Grid.width ≤ (c.column / tabWidth + 1) * tabWidth then c.nextLine
      else { c with column := (c.column / tabWidth + 1) * tabWidth }) := by
  have hcolumn := h.column_lt
  have hstop : Word.alignUp Word.bits (c.column + 1) tabWidth =
      .ok ((c.column / tabWidth + 1) * tabWidth) := by
    change Word.alignUp Word.bits (c.column + 1) (2 ^ 3) = _
    rw [Word.alignUp_two_pow, Word.fit_of_lt]
    · simp only [tabWidth]
      congr 1
      omega
    · simp only [Word.bits, Grid.width] at *
      omega
  rw [tab, hstop]
  rfl

theorem offsetAt_cursor {c : Console} (h : c.WellPlaced) :
    Grid.offsetAt c.row c.column = .ok c.offset := by
  have hlt := h.offset_lt
  rw [Grid.offsetAt, Nat.mul_comm c.row, ← offset, Word.fit_of_lt]
  simp only [Word.bits, Grid.size, Grid.width, Grid.height] at *
  omega

/-- At a position on the screen there always is a cell. -/
theorem cell_eq_read (c : Console) {row column : Nat} (hrow : row < Grid.height)
    (hcolumn : column < Grid.width) :
    c.cell row column = c.grid.read (Grid.width * row + column) := by
  have hoffset : Grid.offsetAt row column = .ok (Grid.width * row + column) := by
    rw [Grid.offsetAt, Nat.mul_comm row]
    apply Word.fit_of_lt
    simp only [Word.bits, Grid.width, Grid.height] at *
    omega
  rw [cell, hoffset]
  rfl

/-- What writing a byte leaves behind, in terms of the offset of the cursor. -/
structure Written (c : Console) (byte : UInt8) (after : Console) : Prop where
  wellPlaced : after.WellPlaced
  colors : after.colors = c.colors
  offset : after.offset = advance c.offset byte % Grid.size
  cells : ∀ q, after.grid.read q =
    if isControl byte = false ∧ q = c.offset then .ok (.of byte c.colors) else c.grid.read q

theorem Written.offset_of_shown {c after : Console} {byte : UInt8} (h : c.Written byte after)
    (hshown : isControl byte = false) : after.offset = (c.offset + 1) % Grid.size := by
  rw [h.offset, advance_of_shown hshown]

theorem Written.read_of_shown {c after : Console} {byte : UInt8} (h : c.Written byte after)
    (hshown : isControl byte = false) (q : Nat) :
    after.grid.read q = if q = c.offset then .ok (.of byte c.colors) else c.grid.read q := by
  rw [h.cells]
  simp only [hshown, true_and]

theorem place_written {c : Console} (h : c.WellPlaced) {byte : UInt8}
    (hbyte : isControl byte = false) :
    ∃ after, c.place byte = .ok after ∧ c.Written byte after := by
  obtain ⟨grid, hwrite, hcells⟩ := c.grid.write_of_lt h.offset_lt (.of byte c.colors)
  have hadvance := advance_of_shown hbyte c.offset
  have hrow := h.row_lt
  have hcolumn := h.column_lt
  let moved : Console := { c with grid := grid, column := c.column + 1 }
  refine ⟨if moved.column = Grid.width then moved.nextLine else moved, ?_, ?_⟩
  · rw [place, offsetAt_cursor h]
    change (c.grid.write c.offset (.of byte c.colors) >>= _) = _
    rw [hwrite]
    rfl
  · split
    · rename_i hfull
      refine ⟨moved.nextLine_wellPlaced, rfl, ?_, fun q => by simp [nextLine, moved, hcells, hbyte]⟩
      rw [offset_nextLine, hadvance]
      simp only [offset, moved, Grid.width] at *
      congr 1
      omega
    · rename_i hroom
      refine ⟨⟨hrow, by simp only [moved, Grid.width] at *; omega⟩, rfl, ?_,
        fun q => by simp [moved, hcells, hbyte]⟩
      rw [hadvance]
      simp only [offset, moved, Grid.size, Grid.width, Grid.height] at *
      omega

theorem put_written {c : Console} (h : c.WellPlaced) (byte : UInt8) :
    ∃ after, c.put byte = .ok after ∧ c.Written byte after := by
  have hrow := h.row_lt
  have hcolumn := h.column_lt
  by_cases hfeed : byte = '\n'.toUInt8
  · subst hfeed
    refine ⟨c.nextLine, rfl, c.nextLine_wellPlaced, rfl, ?_, fun q => by simp [isControl, nextLine]⟩
    rw [offset_nextLine]
    simp only [advance, offset, Grid.size, Grid.width, Grid.height, if_true] at *
    omega
  by_cases hreturn : byte = '\r'.toUInt8
  · subst hreturn
    refine ⟨{ c with column := 0 }, rfl, ⟨hrow, Nat.zero_lt_succ 79⟩, rfl, ?_,
      fun q => by simp [isControl]⟩
    simp only [advance, offset, Grid.size, Grid.width, Grid.height, if_neg hfeed, if_true] at *
    omega
  by_cases htab : byte = '\t'.toUInt8
  · subst htab
    have hput : c.put '\t'.toUInt8 = c.tab := rfl
    rw [hput, tab_eq h]
    refine ⟨_, rfl, ?_⟩
    split
    · refine ⟨c.nextLine_wellPlaced, rfl, ?_, fun q => by simp [isControl, nextLine]⟩
      rw [offset_nextLine]
      simp only [advance, offset, tabWidth, Grid.size, Grid.width, Grid.height, if_neg hfeed,
        if_neg hreturn, if_true] at *
      omega
    · refine ⟨⟨hrow, by simp only [Grid.width] at *; omega⟩, rfl, ?_,
        fun q => by simp [isControl]⟩
      simp only [advance, offset, tabWidth, Grid.size, Grid.width, Grid.height, if_neg hfeed,
        if_neg hreturn, if_true] at *
      omega
  · have hput : c.put byte = c.place byte := by simp [put, hfeed, hreturn, htab]
    rw [hput]
    exact place_written h (by simp [isControl, hfeed, hreturn, htab])

theorem write_cons (c : Console) (byte : UInt8) (bytes : Bytes) :
    c.write (byte :: bytes) = c.put byte >>= fun after => after.write bytes := by
  simp [write]

theorem write_append (c : Console) (xs ys : Bytes) :
    c.write (xs ++ ys) = c.write xs >>= fun after => after.write ys :=
  List.foldlM_append

/-- Writing never fails on a console whose cursor is on the screen, and keeps it there. -/
theorem write_wellPlaced {c : Console} (h : c.WellPlaced) (bytes : Bytes) :
    ∃ after, c.write bytes = .ok after ∧ after.WellPlaced := by
  induction bytes generalizing c with
  | nil => exact ⟨c, rfl, h⟩
  | cons byte rest ih =>
      obtain ⟨next, hput, hwritten⟩ := put_written h byte
      obtain ⟨after, hrest, hafter⟩ := ih hwritten.wellPlaced
      exact ⟨after, by rw [write_cons, hput]; exact hrest, hafter⟩

theorem moveTo_wellPlaced {c : Console} (h : c.WellPlaced) (row column : Nat) :
    (c.moveTo row column).2.WellPlaced := by
  unfold moveTo
  split
  · exact h
  · rename_i hinside
    exact ⟨Nat.lt_of_not_le fun hrow => hinside (.inl hrow),
      Nat.lt_of_not_le fun hcolumn => hinside (.inr hcolumn)⟩

theorem clear_wellPlaced (c : Console) : c.clear.WellPlaced :=
  ⟨Nat.zero_lt_succ 24, Nat.zero_lt_succ 79⟩

end Console

end EarlyBoot
