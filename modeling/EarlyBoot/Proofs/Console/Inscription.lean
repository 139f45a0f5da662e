import EarlyBoot.Proofs.Console.Lines
import EarlyBoot.Proofs.Console.Safety
import EarlyBoot.Proofs.Numeral.Reading

/-!
Texts without control bytes, wherever they are written. The cells of the screen form a ring, and
a text that is no longer than the ring takes up as many of its cells as it has bytes, from the
cursor on. So a number that was written on the screen can be read from it again, also where its
text goes on in the next row or in the first one.
-/

namespace EarlyBoot.Console

/-- The characters of some cells from an offset on. Behind the last cell comes the first. -/
def textFrom (c : Console) (start : Nat) : Nat → Except Fault Bytes
  | 0 => .ok []
  | count + 1 => do
    let cell ← c.grid.read (start % Grid.size)
    return cell.character :: (← c.textFrom (start + 1) count)

/-- What is left behind by a text without control bytes. -/
structure Inscribed (c : Console) (text : Bytes) (after : Console) : Prop where
  wellPlaced : after.WellPlaced
  offset : after.offset = (c.offset + text.length) % Grid.size
  colors : after.colors = c.colors
  shown : ∀ i (h : i < text.length),
    after.grid.read ((c.offset + i) % Grid.size) = .ok (.of text[i] c.colors)
  kept : ∀ q, (∀ i < text.length, q ≠ (c.offset + i) % Grid.size) →
    after.grid.read q = c.grid.read q

section

variable {c : Console}

theorem Inscribed.nil (h : c.WellPlaced) : c.Inscribed [] c where
  wellPlaced := h
  offset := (Nat.mod_eq_of_lt h.offset_lt).symm
  colors := rfl
  shown i hi := absurd hi (Nat.not_lt_zero i)
  kept _ _ := rfl

/-- A byte in front of a text. The text ends before it comes round to the cell of that byte. -/
theorem Written.inscribed {byte : UInt8} {rest : Bytes} {next after : Console} (h : c.WellPlaced)
    (hwritten : c.Written byte next) (hshown : isControl byte = false)
    (hrest : next.Inscribed rest after) (hroom : rest.length < Grid.size) :
    c.Inscribed (byte :: rest) after := by
  have hlt := h.offset_lt
  have hstart : (c.offset + 0) % Grid.size = c.offset := Nat.mod_eq_of_lt hlt
  have hread := hwritten.read_of_shown hshown
  have hahead (i : Nat) : (next.offset + i) % Grid.size = (c.offset + (i + 1)) % Grid.size := by
    rw [hwritten.offset_of_shown hshown, Nat.mod_add_mod, Nat.add_assoc, Nat.add_comm 1]
  refine ⟨hrest.wellPlaced, ?_, hrest.colors.trans hwritten.colors, ?_, ?_⟩
  · rw [hrest.offset, hahead, List.length_cons]
  · intro i hi
    cases i with
    | zero =>
        have hnever : ∀ i < rest.length, c.offset ≠ (next.offset + i) % Grid.size := by
          intro i hi
          rw [hahead]
          simp only [Grid.size, Grid.width, Grid.height] at *
          omega
        rw [hstart, hrest.kept c.offset hnever, hread, if_pos rfl]
        rfl
    | succ i =>
        have hlater := hrest.shown i (Nat.lt_of_succ_lt_succ hi)
        rw [hahead, hwritten.colors] at hlater
        exact hlater
  · intro q hq
    have hfirst := hq 0 (Nat.zero_lt_succ _)
    have hother : ∀ i < rest.length, q ≠ (next.offset + i) % Grid.size := by
      intro i hi
      rw [hahead]
      exact hq (i + 1) (Nat.succ_lt_succ hi)
    rw [hstart] at hfirst
    rw [hrest.kept q hother, hread, if_neg hfirst]

/-- A text that is no longer than the screen is written once around it at most. -/
theorem write_inscribed {text : Bytes} (h : c.WellPlaced)
    (hshown : ∀ byte ∈ text, isControl byte = false) (hroom : text.length ≤ Grid.size) :
    ∃ after, c.write text = .ok after ∧ c.Inscribed text after := by
  induction text generalizing c with
  | nil => exact ⟨c, rfl, .nil h⟩
  | cons byte rest ih =>
      obtain ⟨hbyte, hrest⟩ := List.forall_mem_cons.mp hshown
      obtain ⟨next, hput, hwritten⟩ := put_written h byte
      obtain ⟨after, hwrite, hafter⟩ := ih hwritten.wellPlaced hrest (Nat.le_of_succ_le hroom)
      refine ⟨after, ?_, hwritten.inscribed h hbyte hafter hroom⟩
      rw [write_cons, hput]
      exact hwrite

/-- Cells that show a text one after the other are read as that text. -/
theorem textFrom_of_read {text : Bytes} {start : Nat} {colors : Attribute}
    (h : ∀ i (hi : i < text.length),
      c.grid.read ((start + i) % Grid.size) = .ok (.of text[i] colors)) :
    c.textFrom start text.length = .ok text := by
  induction text generalizing start with
  | nil => rfl
  | cons byte rest ih =>
      have hfirst := h 0 (Nat.zero_lt_succ _)
      have hrest : c.textFrom (start + 1) rest.length = .ok rest := by
        refine ih fun i hi => ?_
        rw [Nat.add_assoc, Nat.add_comm 1]
        exact h (i + 1) (Nat.succ_lt_succ hi)
      rw [Nat.add_zero] at hfirst
      rw [List.length_cons, textFrom, hfirst]
      change (c.textFrom (start + 1) rest.length >>= _) = _
      rw [hrest]
      change Except.ok ((Cell.of byte colors).character :: rest) = _
      rw [Cell.character_of]

/-- A numeral has no control bytes and is shorter than the screen, so it is found where the cursor
was, and read there as it is read by itself. -/
theorem write_numeral {α : Type} {text : Bytes} {read : Bytes → α} {value : α} (h : c.WellPlaced)
    (hprintable : ∀ byte ∈ text, Ascii.isPrintable byte = true)
    (hlength : text.length ≤ Numeral.capacity) (hread : read text = value) :
    ∃ after, c.write text = .ok after ∧ c.Inscribed text after ∧
      read <$> after.textFrom c.offset text.length = .ok value := by
  obtain ⟨after, hwrite, hafter⟩ := write_inscribed h
    (fun byte hbyte => isControl_of_isPrintable (hprintable byte hbyte))
    (Nat.le_trans hlength (by decide))
  refine ⟨after, hwrite, hafter, ?_⟩
  rw [textFrom_of_read hafter.shown]
  exact congrArg Except.ok hread

end

/-- At every moment of a session a number can be written on the screen and read from it again. The
bytes of its numeral stand in the cells from the cursor on, in the current colors and also where
they come round to the first cell, the cursor is behind them, and all other cells are as before.
What stands there is the number, in decimal, in every base for a signed number, and behind the
marker of a hexadecimal word. -/
theorem numbers_read_back_from_screen (grid : Grid) (colors : Attribute)
    (operations : List Operation) :
    let console := (withColors grid colors).performAll operations
    (∀ value : UInt32,
      let text := Numeral.unsigned value 10
      ∃ after, console.writeDecimal value = .ok after ∧ console.Inscribed text after ∧
        (Numeral.readUnsigned · 10) <$> after.textFrom console.offset text.length =
          .ok value) ∧
    (∀ (base : Base) (value : Int32),
      let text := Numeral.signed value base.value
      ∃ after, console.writeSigned value base.value = .ok after ∧ console.Inscribed text after ∧
        (Numeral.readSigned · base.value) <$> after.textFrom console.offset text.length =
          .ok value) ∧
    ∀ value : UInt32,
      let text := Numeral.wordHex value true
      ∃ after, console.writeHex value = .ok after ∧ console.Inscribed text after ∧
        (fun digits => Numeral.readUnsigned (digits.drop 2) 16) <$>
          after.textFrom console.offset text.length = .ok value := by
  intro console
  have h : console.WellPlaced := performAll_wellPlaced (clear_wellPlaced _) operations
  refine ⟨fun value => ?_, fun base value => ?_, fun value => ?_⟩
  · exact write_numeral h (fun _ hbyte => Numeral.isPrintable_of_mem_unsigned hbyte)
      (Numeral.length_unsigned_le value 10) (Numeral.readUnsigned_unsigned .decimal value)
  · have hread := Numeral.readSigned_signed (List.forall_mem_nil _)
      (by simp [Numeral.StopsDigits] : Numeral.StopsDigits base []) value
    rw [List.append_nil, List.nil_append] at hread
    exact write_numeral h (fun _ hbyte => Numeral.isPrintable_of_mem_signed hbyte)
      (Numeral.length_signed_le value base.value) hread
  · have hlength := Numeral.length_wordHex value true
    exact write_numeral h (fun _ hbyte => Numeral.isPrintable_of_mem_wordHex hbyte)
      (Nat.le_trans (Nat.le_of_eq hlength) (by decide)) (Numeral.readUnsigned_wordHex value true)

end EarlyBoot.Console
