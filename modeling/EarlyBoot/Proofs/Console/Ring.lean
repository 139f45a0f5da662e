import EarlyBoot.Proofs.Bytes
import EarlyBoot.Proofs.Console.Lines

/-!
Any number of lines on the ring of rows. A line that fits into a row takes up that row and moves
the cursor to the start of the next one, past the last row to the first. So a line stays on the
screen until as many lines follow it as there are rows, and rows that no line comes to stay as
they were.
-/

namespace EarlyBoot.Console

variable {c : Console}

/-- The console shows a text from a position on, in these colors. -/
def ShowsAt (c : Console) (row column : Nat) (text : Bytes) (colors : Attribute) : Prop :=
  ∀ i (h : i < text.length), c.cell row (column + i) = .ok (.of text[i] colors)

theorem ShowsAt.split {row column : Nat} {xs ys : Bytes} {colors : Attribute}
    (h : c.ShowsAt row column (xs ++ ys) colors) :
    c.ShowsAt row column xs colors ∧ c.ShowsAt row (column + xs.length) ys colors := by
  constructor
  · intro i hi
    have hboth := h i (by rw [List.length_append]; omega)
    rwa [List.getElem_append_left hi] at hboth
  · intro i hi
    have hboth := h (xs.length + i) (by rw [List.length_append]; omega)
    rw [List.getElem_append_right (Nat.le_add_right _ _)] at hboth
    simpa only [Nat.add_assoc, Nat.add_sub_cancel_left] using hboth

/-- A text stays where it is shown as long as its row does not change. -/
theorem ShowsAt.of_row {c' : Console} {row column : Nat} {text : Bytes} {colors : Attribute}
    (h : c.ShowsAt row column text colors) (hroom : column + text.length ≤ Grid.width)
    (hrow : ∀ column < Grid.width, c'.cell row column = c.cell row column) :
    c'.ShowsAt row column text colors := by
  intro i hi
  rw [hrow (column + i) (by omega)]
  exact h i hi

theorem Written.cell {after : Console} {byte : UInt8} (h : c.Written byte after)
    (hshown : isControl byte = false) {row column : Nat} (hrow : row < Grid.height)
    (hcolumn : column < Grid.width) :
    after.cell row column =
      if Grid.width * row + column = c.offset then .ok (.of byte c.colors)
      else c.cell row column := by
  rw [cell_eq_read after hrow hcolumn, cell_eq_read c hrow hcolumn, h.read_of_shown hshown]

/-- A byte that is shown in front of the last column leaves the cursor in its row. -/
theorem put_of_room (h : c.WellPlaced) {byte : UInt8} (hshown : isControl byte = false)
    (hroom : c.column + 1 < Grid.width) :
    ∃ after, c.put byte = .ok after ∧ c.Written byte after ∧ after.row = c.row ∧
      after.column = c.column + 1 := by
  obtain ⟨after, hput, hwritten⟩ := put_written h byte
  have hoffset := hwritten.offset_of_shown hshown
  have hrow := h.row_lt
  have hcolumn := hwritten.wellPlaced.column_lt
  refine ⟨after, hput, hwritten, ?_, ?_⟩ <;>
  · simp only [offset, Grid.size, Grid.width, Grid.height] at *
    omega

/-- What is left behind by a text that ends in the row in which it begins. -/
structure Extended (c : Console) (text : Bytes) (after : Console) : Prop where
  row : after.row = c.row
  column : after.column = c.column + text.length
  colors : after.colors = c.colors
  shown : after.ShowsAt c.row c.column text c.colors
  kept : ∀ row < Grid.height, ∀ column < Grid.width, row ≠ c.row ∨ column < c.column →
    after.cell row column = c.cell row column

theorem write_of_room {text : Bytes} (hrow : c.row < Grid.height)
    (hshown : ∀ byte ∈ text, isControl byte = false)
    (hroom : c.column + text.length < Grid.width) :
    ∃ after, c.write text = .ok after ∧ c.Extended text after := by
  induction text generalizing c with
  | nil => exact ⟨c, rfl, rfl, rfl, rfl, fun i hi => absurd hi (Nat.not_lt_zero i),
      fun _ _ _ _ _ => rfl⟩
  | cons byte rest ih =>
      obtain ⟨hbyte, hrest⟩ := List.forall_mem_cons.mp hshown
      rw [List.length_cons] at hroom
      have hplaced : c.WellPlaced := ⟨hrow, by omega⟩
      obtain ⟨next, hput, hwritten, hnextRow, hnextColumn⟩ :=
        put_of_room hplaced hbyte (by omega)
      obtain ⟨after, hwrite, hafter⟩ := ih (hnextRow ▸ hrow) hrest (by rw [hnextColumn]; omega)
      refine ⟨after, by rw [write_cons, hput]; exact hwrite, hafter.row.trans hnextRow, ?_,
        hafter.colors.trans hwritten.colors, ?_, ?_⟩
      · rw [hafter.column, hnextColumn, List.length_cons]
        omega
      · intro i hi
        cases i with
        | zero =>
            rw [Nat.add_zero, hafter.kept c.row hrow c.column hplaced.column_lt (.inr (by omega)),
              hwritten.cell hbyte hrow hplaced.column_lt]
            exact if_pos rfl
        | succ i =>
            have hlater := hafter.shown i (Nat.lt_of_succ_lt_succ hi)
            rw [hnextRow, hnextColumn, hwritten.colors, Nat.add_right_comm] at hlater
            exact hlater
      · intro row hr column hc hother
        have hoffset : Grid.width * row + column ≠ c.offset := by
          simp only [offset, Grid.width] at *
          omega
        rw [hafter.kept row hr column hc (by rw [hnextRow, hnextColumn]; omega),
          hwritten.cell hbyte hr hc, if_neg hoffset]

/-- What is left behind by lines that are printed from the start of a row on. -/
structure Printed (c : Console) (lines : List Bytes) (after : Console) : Prop where
  short : ∀ line ∈ lines, line.length < Grid.width
  row : after.row = (c.row + lines.length) % Grid.height
  column : after.column = 0
  colors : after.colors = c.colors
  /-- A line is there until the ring has come round to its row. -/
  shown : ∀ j line, lines[j]? = some line → lines.length - j ≤ Grid.height →
    after.ShowsAt ((c.row + j) % Grid.height) 0 line c.colors
  kept : ∀ row < Grid.height, (∀ j < lines.length, row ≠ (c.row + j) % Grid.height) →
    ∀ column < Grid.width, after.cell row column = c.cell row column

theorem FitsRow.write_line {line : Bytes} (h : FitsRow line) (hrow : c.row < Grid.height)
    (hcolumn : c.column = 0) :
    ∃ after, c.write (line ++ ['\n'.toUInt8]) = .ok after ∧ c.Printed [line] after := by
  obtain ⟨filled, hwrite, hfilled⟩ := write_of_room hrow
    (fun byte hbyte => isControl_of_isPrintable (h.printable byte hbyte))
    (by rw [hcolumn, Nat.zero_add]; exact h.short)
  have hstart : (c.row + 0) % Grid.height = c.row := Nat.mod_eq_of_lt hrow
  refine ⟨filled.nextLine, ?_, List.forall_mem_singleton.mpr h.short, ?_, rfl, hfilled.colors,
    ?_, ?_⟩
  · rw [write_append, hwrite]
    rfl
  · rw [nextLine, hfilled.row]
    rfl
  · intro j shown hj _
    obtain ⟨rfl, rfl⟩ : j = 0 ∧ shown = line := by
      cases j with
      | zero => exact ⟨rfl, (Option.some.inj hj).symm⟩
      | succ j => cases hj
    have hline := hfilled.shown
    rw [hcolumn] at hline
    rw [hstart]
    exact hline
  · intro row hlt hother column hroom
    have hne := hother 0 Nat.zero_lt_one
    rw [hstart] at hne
    exact hfilled.kept row hlt column hroom (.inl hne)

namespace Printed

variable {middle after : Console} {xs ys : List Bytes}

theorem nil (hrow : c.row < Grid.height) (hcolumn : c.column = 0) : c.Printed [] c where
  short := List.forall_mem_nil _
  row := (Nat.mod_eq_of_lt hrow).symm
  column := hcolumn
  colors := rfl
  shown _ _ hj := nomatch hj
  kept _ _ _ _ _ := rfl

/-- Lines in two parts. The second part comes to a row of the first one only after a whole
round. -/
theorem append (hxs : c.Printed xs middle) (hys : middle.Printed ys after) :
    c.Printed (xs ++ ys) after where
  short := List.forall_mem_append.mpr ⟨hxs.short, hys.short⟩
  row := by
    rw [hys.row, hxs.row, List.length_append, Nat.mod_add_mod, Nat.add_assoc]
  column := hys.column
  colors := hys.colors.trans hxs.colors
  shown j line hj hround := by
    rw [List.length_append] at hround
    rcases Nat.lt_or_ge j xs.length with hfirst | hsecond
    · rw [List.getElem?_append_left hfirst] at hj
      have hline := hxs.short line (List.mem_of_getElem? hj)
      refine (hxs.shown j line hj (by omega)).of_row (by omega)
        (hys.kept _ (Nat.mod_lt _ (by decide)) fun k hk => ?_)
      rw [hxs.row]
      simp only [Grid.height] at *
      omega
    · have hrow : (middle.row + (j - xs.length)) % Grid.height = (c.row + j) % Grid.height := by
        rw [hxs.row, Nat.mod_add_mod]
        congr 1
        omega
      rw [List.getElem?_append_right hsecond] at hj
      have hshown := hys.shown (j - xs.length) line hj (by omega)
      rw [hrow, hxs.colors] at hshown
      exact hshown
  kept row hrow hother column hcolumn := by
    rw [List.length_append] at hother
    rw [hys.kept row hrow ?_ column hcolumn, hxs.kept row hrow ?_ column hcolumn]
    · exact fun j hj => hother j (by omega)
    · intro k hk
      rw [hxs.row, Nat.mod_add_mod, Nat.add_assoc]
      exact hother (xs.length + k) (by omega)

end Printed

theorem write_lines {lines : List Bytes} (h : ∀ line ∈ lines, FitsRow line)
    (hrow : c.row < Grid.height) (hcolumn : c.column = 0) :
    ∃ after, c.write (lines.flatMap (· ++ ['\n'.toUInt8])) = .ok after ∧ c.Printed lines after := by
  induction lines generalizing c with
  | nil => exact ⟨c, rfl, .nil hrow hcolumn⟩
  | cons line rest ih =>
      obtain ⟨hline, hrest⟩ := List.forall_mem_cons.mp h
      obtain ⟨middle, hfirst, hmiddle⟩ := hline.write_line hrow hcolumn
      have hlt : middle.row < Grid.height := by
        rw [hmiddle.row]
        exact Nat.mod_lt _ (by decide)
      obtain ⟨after, hwrite, hafter⟩ := ih hrest hlt hmiddle.column
      refine ⟨after, ?_, hmiddle.append hafter⟩
      rw [List.flatMap_cons, write_append, hfirst]
      exact hwrite

private theorem snd_map_done (result : Except Fault Console) :
    Prod.snd <$> ((fun next => (Reply.done, next)) <$> result) = result := by
  cases result <;> rfl

/-- Operations that only write do so all together. -/
theorem play_of_writes {operations : List Operation}
    (h : ∀ operation ∈ operations, operation.writes = true) (c : Console) :
    c.play operations = c.write (operations.flatMap Operation.printed) := by
  induction operations generalizing c with
  | nil => rfl
  | cons operation rest ih =>
      obtain ⟨hoperation, hrest⟩ := List.forall_mem_cons.mp h
      have hperform : Prod.snd <$> c.perform operation = c.write operation.printed := by
        cases operation with
        | put byte =>
            rw [perform, Operation.printed, write_cons]
            cases c.put byte <;> rfl
        | write bytes => exact snd_map_done _
        | writeString buffer => exact snd_map_done _
        | writeText text => exact snd_map_done _
        | writeChar char => exact snd_map_done _
        | writeDecimal value => exact snd_map_done _
        | writeSigned value base => exact snd_map_done _
        | writeHex value => exact snd_map_done _
        | _ => cases hoperation
      rw [play_cons, hperform, List.flatMap_cons, write_append]
      cases c.write operation.printed with
      | error fault => rfl
      | ok after => exact ih hrest after

theorem PrintsLines.play {operations : List Operation} {lines : List Bytes}
    (h : PrintsLines operations lines) (hrow : c.row < Grid.height) (hcolumn : c.column = 0) :
    ∃ after, c.play operations = .ok after ∧ c.Printed lines after := by
  rw [play_of_writes h.writes, h.printed]
  exact write_lines h.fit hrow hcolumn

/-- To write texts, each with a line feed behind it. -/
def lineScript (texts : List String) : List Operation :=
  texts.map fun text => .writeText (text ++ "\n")

theorem printsLines_lineScript {texts : List String}
    (h : ∀ text ∈ texts, FitsRow (Bytes.ofText text)) :
    PrintsLines (lineScript texts) (texts.map Bytes.ofText) where
  writes := by simp [lineScript, Operation.writes]
  fit := by simpa using h
  printed := by
    rw [lineScript, List.flatMap_map, List.flatMap_map, List.flatMap_def, List.flatMap_def]
    refine congrArg List.flatten (List.map_congr_left fun text htext => ?_)
    have hfeed : Bytes.ofText "\n" = ['\n'.toUInt8] := rfl
    have hplain : ∀ byte ∈ Bytes.ofText (text ++ "\n"), byte.toNat < 128 := by
      rw [Bytes.ofText_append, hfeed]
      refine List.forall_mem_append.mpr ⟨fun byte hbyte => ?_, by decide +kernel⟩
      exact Ascii.lt_of_isPrintable ((h text htext).printable byte hbyte)
    rw [Operation.printed, Bytes.filter_eq_ofText hplain, Bytes.ofText_append, hfeed]

end EarlyBoot.Console
