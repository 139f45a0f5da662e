import EarlyBoot.Proofs.Console.Safety

/-!
Colors never influence text. Who sees the cursor and the characters of a console, but no colors,
sees the same of two sessions that differ only in the steps that set colors: every other operation
takes what is seen to what is seen, whatever the colors are, and setting a color leaves it alone.
-/

namespace EarlyBoot

section

variable {α β γ δ : Type} {look : α → γ} {look' : β → δ} {x y : Except Fault α}

/-- Two computations look alike if they end in one fault, or in results that look alike. -/
theorem cases_of_map_eq (h : look <$> x = look <$> y) :
    (∃ fault, x = .error fault ∧ y = .error fault) ∨
      ∃ a b, x = .ok a ∧ y = .ok b ∧ look a = look b := by
  cases x with
  | error fault =>
      cases y with
      | error fault' => exact .inl ⟨fault, rfl, congrArg _ (Except.error.inj h).symm⟩
      | ok b => cases h
  | ok a =>
      cases y with
      | error fault => cases h
      | ok b => exact .inr ⟨a, b, rfl, rfl, Except.ok.inj h⟩

/-- They go on alike, if what is done with results that look alike looks alike. -/
theorem map_bind_congr {f g : α → Except Fault β} (h : look <$> x = look <$> y)
    (hnext : ∀ a b, look a = look b → look' <$> f a = look' <$> g b) :
    look' <$> (x >>= f) = look' <$> (y >>= g) := by
  rcases cases_of_map_eq h with ⟨fault, rfl, rfl⟩ | ⟨a, b, rfl, rfl, hsame⟩
  · rfl
  · exact hnext a b hsame

end

namespace Grid

/-- The characters of all cells. -/
def characters (g : Grid) : Vector UInt8 size :=
  g.cells.map Cell.character

variable {g g' : Grid}

/-- A byte is stored as the character of its cell, apart from the colors. -/
theorem characters_write (h : g.characters = g'.characters) (offset : Nat) (byte : UInt8)
    (colors colors' : Attribute) :
    characters <$> g.write offset (.of byte colors) =
      characters <$> g'.write offset (.of byte colors') := by
  rw [write, write]
  split
  · rename_i hlt
    have hset (grid : Grid) (colors : Attribute) :
        (⟨grid.cells.set offset (.of byte colors) hlt⟩ : Grid).characters =
          grid.characters.set offset byte hlt := by
      rw [characters, Vector.map_set, Cell.character_of]
      rfl
    change Except.ok _ = Except.ok _
    rw [hset, hset, h]
  · rfl

theorem character_read (h : g.characters = g'.characters) (offset : Nat) :
    Cell.character <$> g.read offset = Cell.character <$> g'.read offset := by
  rw [read, read]
  split
  · rename_i hlt
    have hcell : g.characters[offset] = g'.characters[offset] := by rw [h]
    simp only [characters, Vector.getElem_map] at hcell
    exact congrArg Except.ok hcell
  · rfl

end Grid

namespace Console

/-- What is left of a console if colors are not seen. -/
structure View where
  row : Nat
  column : Nat
  characters : Vector UInt8 Grid.size
deriving DecidableEq

def view (c : Console) : View :=
  ⟨c.row, c.column, c.grid.characters⟩

/-- What an operation answers if colors are not seen. -/
inductive Answer where
  | done
  | moved (accepted : Bool)
  | shown (character : UInt8)
deriving DecidableEq

def Reply.answer : Reply → Answer
  | .done => .done
  | .moved accepted => .moved accepted
  | .shown cell => .shown cell.character

/-- What is seen of an operation. -/
def outcome (result : Reply × Console) : Answer × View :=
  (result.1.answer, result.2.view)

/-- Whether an operation sets a color. -/
def Operation.recolors : Operation → Bool
  | .setColors _ => true
  | .setForeground _ => true
  | .setBackground _ => true
  | _ => false

/-- What is seen of a session if colors are not: the answer to each operation that sets no color,
and the console after it. A fault ends the session. -/
def seen (c : Console) : List Operation → List (Except Fault (Answer × View))
  | [] => []
  | operation :: rest =>
    match c.perform operation with
    | .error fault => [.error fault]
    | .ok (reply, after) =>
      if operation.recolors then after.seen rest
      else .ok (outcome (reply, after)) :: after.seen rest

section

variable {c d : Console}

theorem view_eq_iff : c.view = d.view ↔
    c.row = d.row ∧ c.column = d.column ∧ c.grid.characters = d.grid.characters := by
  rw [view, view, View.mk.injEq]

theorem view_nextLine (h : c.view = d.view) : c.nextLine.view = d.nextLine.view := by
  obtain ⟨hrow, _, hcells⟩ := view_eq_iff.mp h
  exact view_eq_iff.mpr ⟨by rw [nextLine, nextLine, hrow], rfl, hcells⟩

/-- Whether the next row is begun does not hang on colors. -/
theorem view_ite_nextLine (h : c.view = d.view) (full : Prop) [Decidable full] :
    (if full then c.nextLine else c).view = (if full then d.nextLine else d).view := by
  split
  · exact view_nextLine h
  · exact h

/-- Clearing fills the screen with blanks, of whatever color. -/
theorem view_clear (c d : Console) : c.clear.view = d.clear.view := by
  refine view_eq_iff.mpr ⟨rfl, rfl, ?_⟩
  simp [clear, Grid.filled, Grid.characters, Cell.blank]

theorem view_tab (h : c.view = d.view) : view <$> c.tab = view <$> d.tab := by
  obtain ⟨hrow, hcolumn, hcells⟩ := view_eq_iff.mp h
  rw [tab, tab, hcolumn]
  refine map_bind_congr rfl fun column column' (hsame : column = column') => ?_
  subst hsame
  have hmoved : view { c with column := column } = view { d with column := column } :=
    view_eq_iff.mpr ⟨hrow, rfl, hcells⟩
  exact congrArg Except.ok (view_ite_nextLine hmoved _)

theorem view_place (h : c.view = d.view) (byte : UInt8) :
    view <$> c.place byte = view <$> d.place byte := by
  obtain ⟨hrow, hcolumn, hcells⟩ := view_eq_iff.mp h
  rw [place, place, hrow, hcolumn]
  refine map_bind_congr rfl fun offset offset' (hsame : offset = offset') => ?_
  subst hsame
  refine map_bind_congr (Grid.characters_write hcells offset byte _ _) fun grid grid' hgrid => ?_
  have hmoved : view ⟨grid, d.row, d.column + 1, c.colors⟩ =
      view ⟨grid', d.row, d.column + 1, d.colors⟩ := view_eq_iff.mpr ⟨rfl, rfl, hgrid⟩
  exact congrArg Except.ok (view_ite_nextLine hmoved _)

theorem view_put (h : c.view = d.view) (byte : UInt8) :
    view <$> c.put byte = view <$> d.put byte := by
  obtain ⟨hrow, _, hcells⟩ := view_eq_iff.mp h
  rw [put, put]
  split
  · exact congrArg Except.ok (view_nextLine h)
  · split
    · exact congrArg Except.ok (view_eq_iff.mpr ⟨hrow, rfl, hcells⟩)
    · split
      · exact view_tab h
      · exact view_place h byte

theorem view_write (h : c.view = d.view) (bytes : Bytes) :
    view <$> c.write bytes = view <$> d.write bytes := by
  induction bytes generalizing c d with
  | nil => exact congrArg Except.ok h
  | cons byte rest ih =>
      rw [write_cons, write_cons]
      exact map_bind_congr (view_put h byte) fun _ _ hnext => ih hnext

theorem character_cell (h : c.view = d.view) (row column : Nat) :
    Cell.character <$> c.cell row column = Cell.character <$> d.cell row column := by
  obtain ⟨_, _, hcells⟩ := view_eq_iff.mp h
  refine map_bind_congr rfl fun offset offset' (hsame : offset = offset') => ?_
  subst hsame
  exact Grid.character_read hcells offset

private theorem outcome_of_view {x y : Except Fault Console} (h : view <$> x = view <$> y) :
    outcome <$> ((fun after => (Reply.done, after)) <$> x) =
      outcome <$> ((fun after => (Reply.done, after)) <$> y) := by
  have hdone (z : Except Fault Console) :
      outcome <$> ((fun after => (Reply.done, after)) <$> z) =
        (fun seen => (Answer.done, seen)) <$> (view <$> z) := by
    cases z <;> rfl
  rw [hdone, hdone, h]

/-- What is seen of an operation that sets no color comes from what was seen before. -/
theorem outcome_perform (h : c.view = d.view) {operation : Operation}
    (hkept : operation.recolors = false) :
    outcome <$> c.perform operation = outcome <$> d.perform operation := by
  cases operation with
  | put byte => exact outcome_of_view (view_put h byte)
  | write bytes => exact outcome_of_view (view_write h bytes)
  | writeString buffer => exact outcome_of_view (view_write h _)
  | writeText text => exact outcome_of_view (view_write h _)
  | writeChar char => exact outcome_of_view (view_write h _)
  | writeDecimal value => exact outcome_of_view (view_write h _)
  | writeSigned value base => exact outcome_of_view (view_write h _)
  | writeHex value => exact outcome_of_view (view_write h _)
  | setColors colors => cases hkept
  | setForeground color => cases hkept
  | setBackground color => cases hkept
  | clear => exact congrArg (fun seen => Except.ok (Answer.done, seen)) (view_clear c d)
  | moveTo row column =>
      obtain ⟨_, _, hcells⟩ := view_eq_iff.mp h
      rw [perform_moveTo, perform_moveTo]
      split
      · exact congrArg (fun seen => Except.ok (Answer.moved true, seen))
          (view_eq_iff.mpr ⟨rfl, rfl, hcells⟩)
      · exact congrArg (fun seen => Except.ok (Answer.moved false, seen)) h
  | cell row column =>
      have hshown (console : Console) (cell : Except Fault Cell) :
          outcome <$> ((fun cell => (Reply.shown cell, console)) <$> cell) =
            (fun character => (Answer.shown character, console.view)) <$>
              (Cell.character <$> cell) := by
        cases cell <;> rfl
      rw [perform, perform, hshown, hshown, character_cell h, h]

/-- A step that sets a color changes neither the cursor nor a cell. -/
theorem perform_of_recolors (c : Console) {operation : Operation}
    (hcolor : operation.recolors = true) :
    ∃ after, c.perform operation = .ok (.done, after) ∧
      after.row = c.row ∧ after.column = c.column ∧ after.grid = c.grid := by
  cases operation <;> first | exact ⟨_, rfl, rfl, rfl, rfl⟩ | cases hcolor

theorem seen_cons_of_recolors {operation : Operation} (hcolor : operation.recolors = true)
    (rest : List Operation) :
    ∃ after, c.perform operation = .ok (.done, after) ∧ after.view = c.view ∧
      c.seen (operation :: rest) = after.seen rest := by
  obtain ⟨after, hperform, hrow, hcolumn, hgrid⟩ := c.perform_of_recolors hcolor
  refine ⟨after, hperform, view_eq_iff.mpr ⟨hrow, hcolumn, by rw [hgrid]⟩, ?_⟩
  simp only [seen, hperform, hcolor, if_true]

/-- What is seen of a session is seen of its operations that set no color, from any console that
looks the same. -/
theorem seen_filter (h : c.view = d.view) (operations : List Operation) :
    c.seen operations = d.seen (operations.filter (! ·.recolors)) := by
  induction operations generalizing c d with
  | nil => rfl
  | cons operation rest ih =>
      cases hcolor : operation.recolors with
      | true =>
          obtain ⟨after, -, hview, hseen⟩ := c.seen_cons_of_recolors hcolor rest
          rw [hseen, List.filter_cons_of_neg (by simp [hcolor])]
          exact ih (hview.trans h)
      | false =>
          have houtcome := outcome_perform h hcolor
          rw [List.filter_cons_of_pos (by simp [hcolor])]
          simp only [seen, hcolor, Bool.false_eq_true, if_false]
          rcases cases_of_map_eq houtcome with
            ⟨fault, hc, hd⟩ | ⟨⟨reply, after⟩, ⟨reply', after'⟩, hc, hd, hsame⟩
          · rw [hc, hd]
          · have hview : after.view = after'.view := congrArg Prod.snd hsame
            rw [hc, hd]
            exact congrArg₂ List.cons (congrArg Except.ok hsame) (ih hview)

end

/-- An operation is answered unless it asks for a cell that does not exist. -/
theorem exists_perform {c : Console} (h : c.WellPlaced) {operation : Operation}
    (hcell : ∀ row column, operation = .cell row column → row * Grid.width + column < Grid.size) :
    ∃ reply after, c.perform operation = .ok (reply, after) ∧ after.WellPlaced := by
  cases hasks : operation.asks with
  | false => exact perform_wellPlaced h hasks
  | true =>
      obtain ⟨row, column, rfl⟩ := Operation.eq_cell_of_asks hasks
      have hexists := hcell row column rfl
      exact ⟨_, c, (perform_cell c row column).trans (dif_pos hexists), h⟩

/-- Each operation that sets no color is seen with an answer, if no cell is asked for that does not
exist. -/
theorem seen_of_cells {c : Console} (h : c.WellPlaced) {operations : List Operation}
    (hcells : ∀ row column, .cell row column ∈ operations →
      row * Grid.width + column < Grid.size) :
    ∃ outcomes : List (Answer × View), c.seen operations = outcomes.map .ok ∧
      outcomes.length = (operations.filter (! ·.recolors)).length := by
  induction operations generalizing c with
  | nil => exact ⟨[], rfl, rfl⟩
  | cons operation rest ih =>
      obtain ⟨reply, after, hperform, hplaced⟩ := exists_perform h fun row column hask =>
        hcells row column (hask ▸ List.mem_cons_self)
      obtain ⟨outcomes, hseen, hlength⟩ := ih hplaced fun row column hmem =>
        hcells row column (List.mem_cons_of_mem operation hmem)
      simp only [seen, hperform]
      cases hcolor : operation.recolors with
      | true => exact ⟨outcomes, hseen, by rw [hlength, List.filter_cons_of_neg (by simp [hcolor])]⟩
      | false =>
          refine ⟨outcome (reply, after) :: outcomes, ?_, ?_⟩
          · rw [if_neg Bool.false_ne_true, hseen, List.map_cons]
          · rw [List.length_cons, hlength, List.filter_cons_of_pos (by simp [hcolor]),
              List.length_cons]

/-- Colors never influence text. If two sessions have the same operations that set no color, with
any steps between them that do, and begin in any colors, the same is seen after each of these
operations: the cursor, all characters, and what is answered. So a fault is the same too, and no
operation goes unseen unless a cell is asked for that does not exist. At every moment of a session
a step that sets a color changes neither the cursor nor any cell. -/
theorem colors_never_influence_text (grid : Grid) (colors colors' : Attribute)
    (operations operations' : List Operation)
    (hsame : operations.filter (! ·.recolors) = operations'.filter (! ·.recolors)) :
    let console := withColors grid colors
    console.seen operations = (withColors grid colors').seen operations' ∧
    ((∀ row column, .cell row column ∈ operations → row * Grid.width + column < Grid.size) →
      ∃ outcomes : List (Answer × View), console.seen operations = outcomes.map .ok ∧
        outcomes.length = (operations.filter (! ·.recolors)).length) ∧
    ∀ operation : Operation, operation.recolors = true →
      ∃ after, (console.performAll operations).perform operation = .ok (.done, after) ∧
        after.row = (console.performAll operations).row ∧
        after.column = (console.performAll operations).column ∧
        after.grid = (console.performAll operations).grid := by
  intro console
  have hstart : console.view = (withColors grid colors').view := view_clear _ _
  refine ⟨?_, seen_of_cells (clear_wellPlaced _), fun _ => perform_of_recolors _⟩
  calc console.seen operations
    _ = (withColors grid colors').seen (operations.filter (! ·.recolors)) :=
        seen_filter hstart operations
    _ = (withColors grid colors').seen (operations'.filter (! ·.recolors)) := by rw [hsame]
    _ = (withColors grid colors').seen operations' := (seen_filter rfl operations').symm

/-- A session in several colors, with a move off the screen and a question for the last cell. -/
def paintedSession : List Operation :=
  [ .setForeground .yellow, .moveTo 24 79, .put 'x'.toUInt8, .setBackground .blue, .moveTo 25 0,
    .cell 24 79, .clear ]

/-- The same session with one color, set after all else is done. -/
def unpaintedSession : List Operation :=
  [ .moveTo 24 79, .put 'x'.toUInt8, .moveTo 25 0, .cell 24 79, .clear,
    .setColors (.of .white .red) ]

theorem text_of_paintedSession :
    let grid := Grid.filled ⟨0xDEAD⟩
    let console := withColors grid .default
    paintedSession.filter (! ·.recolors) = unpaintedSession.filter (! ·.recolors) ∧
    (∀ row column, .cell row column ∈ paintedSession →
      row * Grid.width + column < Grid.size) ∧
    console.seen paintedSession = (withColors grid (.of .white .red)).seen unpaintedSession ∧
    (∃ outcomes : List (Answer × View), console.seen paintedSession = outcomes.map .ok ∧
      outcomes.length = 5) ∧
    ∃ after, (console.performAll paintedSession).perform (.setForeground .green) =
        .ok (.done, after) ∧
      after.grid = (console.performAll paintedSession).grid := by
  intro grid console
  have hsame : paintedSession.filter (! ·.recolors) = unpaintedSession.filter (! ·.recolors) := rfl
  have hcells : ∀ row column, .cell row column ∈ paintedSession →
      row * Grid.width + column < Grid.size := by
    intro row column hmem
    obtain ⟨rfl, rfl⟩ : row = 24 ∧ column = 79 := by simpa [paintedSession] using hmem
    decide
  obtain ⟨hseen, hanswered, hcolor⟩ := colors_never_influence_text grid .default
    (.of .white .red) paintedSession unpaintedSession hsame
  obtain ⟨after, hperform, -, -, hgrid⟩ := hcolor (.setForeground .green) rfl
  exact ⟨hsame, hcells, hseen, hanswered hcells, after, hperform, hgrid⟩

end Console

end EarlyBoot
