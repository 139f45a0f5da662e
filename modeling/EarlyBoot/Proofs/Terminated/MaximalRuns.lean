import EarlyBoot.Terminated.Runs
import EarlyBoot.Proofs.Stretch
import EarlyBoot.Proofs.Terminated

/-!
Cutting a string into its runs. A text is taken apart into runs with delimiters between them in one
way only, and its runs are the stretches without a delimiter that cannot be made longer.
-/

namespace EarlyBoot.Terminated

open Bytes (cutFrom cutTo cutFrom_of_le cutTo_of_le StopsAt stopsAt_nil stopsAt_cons
  takeWhile_append_of_stop)

/-- A run behind some delimiters, with the end of the text or one more delimiter behind it. -/
structure FirstRun (delimiter : UInt8 → Bool) (gap run rest : Bytes) : Prop where
  blank : ∀ c ∈ gap, delimiter c = true
  ne_nil : run ≠ []
  free : ∀ c ∈ run, delimiter c = false
  stops : StopsAt delimiter rest

/-- A text that consists of these runs, with delimiters before each of them and at the end. -/
inductive RunsText (delimiter : UInt8 → Bool) : List Bytes → Bytes → Prop where
  | nil {gap : Bytes} : (∀ c ∈ gap, delimiter c = true) → RunsText delimiter [] gap
  | cons {gap run rest : Bytes} {pieces : List Bytes} : FirstRun delimiter gap run rest →
      RunsText delimiter pieces rest → RunsText delimiter (run :: pieces) (gap ++ (run ++ rest))

/-- Whether the byte at an index is a delimiter, if there is one. -/
def delimiterAt? (delimiter : UInt8 → Bool) (text : Bytes) (i : Nat) : Option Bool :=
  text[i]?.map delimiter

/-- The bytes from `i` to before `j` are a run that cannot be made longer: no delimiter is among
them, and on either side the text ends or has one. -/
structure MaximalRun (delimiter : UInt8 → Bool) (text : Bytes) (i j : Nat) : Prop where
  lt : i < j
  free : ∀ k, i ≤ k → k < j → delimiterAt? delimiter text k = some false
  before : ∀ k, k + 1 = i → delimiterAt? delimiter text k = some true
  behind : delimiterAt? delimiter text j ≠ some false

/-- One call of a reader: the next run, cut out by indices, and the text that is left. -/
def takeRun (delimiter : UInt8 → Bool) (unread : Bytes) : Except Fault (Option Bytes × Bytes) :=
  match unread.findIdx? (! delimiter ·) with
  | none => .ok (none, unread)
  | some start => do
    let rest ← cutFrom unread start
    let stop := rest.findIdx delimiter
    return (some (← cutTo rest stop), ← cutFrom rest stop)

/-- Calls in a row answer with these runs, and all later ones with none, as the first of those
leaves the text as it is. -/
inductive Yields (delimiter : UInt8 → Bool) : List Bytes → Bytes → Prop where
  | ended {unread : Bytes} : takeRun delimiter unread = .ok (none, unread) →
      Yields delimiter [] unread
  | next {run unread rest : Bytes} {pieces : List Bytes} :
      takeRun delimiter unread = .ok (some run, rest) → Yields delimiter pieces rest →
      Yields delimiter (run :: pieces) unread

variable {delimiter : UInt8 → Bool}

theorem nextRun?_eq (text : Bytes) :
    nextRun? delimiter text =
      if text.dropWhile delimiter = [] then none
      else some ((text.dropWhile delimiter).takeWhile (! delimiter ·),
        (text.dropWhile delimiter).dropWhile (! delimiter ·)) := by
  have hhead := Bytes.forall_head?_dropWhile delimiter text
  rw [nextRun?]
  split
  · rename_i hdrop
    rw [if_pos hdrop]
  · rename_i c rest hdrop
    rw [hdrop] at hhead ⊢
    have hc : delimiter c = false := hhead c rfl
    simp [hc]

theorem nextRun?_of_blank {gap : Bytes} (hgap : ∀ c ∈ gap, delimiter c = true) :
    nextRun? delimiter gap = none := by
  rw [nextRun?_eq, if_pos (List.dropWhile_eq_nil_iff.mpr hgap)]

theorem blank_of_nextRun? {text : Bytes} (h : nextRun? delimiter text = none) :
    ∀ c ∈ text, delimiter c = true := by
  rw [nextRun?_eq] at h
  split at h
  · rename_i hdrop
    exact List.dropWhile_eq_nil_iff.mp hdrop
  · cases h

theorem FirstRun.nextRun? {gap run rest : Bytes} (h : FirstRun delimiter gap run rest) :
    nextRun? delimiter (gap ++ (run ++ rest)) = some (run, rest) := by
  obtain ⟨htake, hdrop⟩ := takeWhile_append_of_stop h.free h.stops
  have hstart : (gap ++ (run ++ rest)).dropWhile delimiter = run ++ rest := by
    rw [List.dropWhile_append_of_pos h.blank]
    cases run with
    | nil => exact absurd rfl h.ne_nil
    | cons c more =>
        have hc : delimiter c = false := h.free c List.mem_cons_self
        exact List.dropWhile_cons_of_neg (by simp [hc])
  rw [nextRun?_eq, hstart, if_neg (List.append_ne_nil_of_left_ne_nil h.ne_nil rest), htake, hdrop]

theorem firstRun_of_nextRun? {text run rest : Bytes}
    (h : nextRun? delimiter text = some (run, rest)) :
    ∃ gap, text = gap ++ (run ++ rest) ∧ FirstRun delimiter gap run rest := by
  have hhead := Bytes.forall_head?_dropWhile delimiter text
  have hstops := Bytes.forall_head?_dropWhile (! delimiter ·) (text.dropWhile delimiter)
  rw [nextRun?_eq] at h
  split at h
  · cases h
  · rename_i hstart
    cases h
    refine ⟨text.takeWhile delimiter, ?_, fun _ hc => List.mem_takeWhile_imp hc, ?_, ?_, ?_⟩
    · rw [List.takeWhile_append_dropWhile, List.takeWhile_append_dropWhile]
    · cases htext : text.dropWhile delimiter with
      | nil => exact absurd htext hstart
      | cons c rest =>
          rw [htext] at hhead
          have hc : delimiter c = false := hhead c rfl
          simp [hc]
    · intro c hc
      simpa using List.mem_takeWhile_imp hc
    · intro c hc
      simpa using hstops c hc

theorem runs_eq (text : Bytes) :
    runs delimiter text =
      match nextRun? delimiter text with
      | none => []
      | some (run, rest) => run :: runs delimiter rest := by
  rw [runs]
  split <;> rename_i hnext <;> rw [hnext]

/-- Every text consists of its runs. -/
theorem runsText_runs (text : Bytes) : RunsText delimiter (runs delimiter text) text := by
  induction hlength : text.length using Nat.strongRecOn generalizing text with
  | ind n ih =>
      rw [runs_eq]
      cases hnext : nextRun? delimiter text with
      | none => exact .nil (blank_of_nextRun? hnext)
      | some found =>
          obtain ⟨run, rest⟩ := found
          have hrest := ih _ (hlength ▸ length_lt_of_nextRun? hnext) rest rfl
          obtain ⟨gap, rfl, hfirst⟩ := firstRun_of_nextRun? hnext
          exact .cons hfirst hrest

/-- The cuts that take a run off the text are in range. -/
theorem takeRun_eq (unread : Bytes) :
    takeRun delimiter unread = .ok
      (match nextRun? delimiter unread with
        | none => (none, unread)
        | some (run, rest) => (some run, rest)) := by
  rw [takeRun]
  cases hindex : unread.findIdx? (! delimiter ·) with
  | none =>
      have hblank : ∀ c ∈ unread, delimiter c = true := by
        intro c hc
        simpa using List.findIdx?_eq_none_iff.mp hindex c hc
      rw [nextRun?_of_blank hblank]
  | some start =>
      obtain ⟨hlt, rfl⟩ := List.findIdx?_eq_some_iff_findIdx_eq.mp hindex
      have hne : unread.drop (unread.findIdx (! delimiter ·)) ≠ [] := by
        rw [ne_eq, List.drop_eq_nil_iff]
        omega
      rw [nextRun?_eq, List.dropWhile_eq_drop_findIdx_not, if_neg hne,
        List.takeWhile_eq_take_findIdx_not, List.dropWhile_eq_drop_findIdx_not]
      simp only [cutFrom_of_le (Nat.le_of_lt hlt), cutTo_of_le List.findIdx_le_length,
        cutFrom_of_le List.findIdx_le_length, Bool.not_not]
      rfl

section Text

variable {pieces : List Bytes} {text : Bytes}

/-- A text is taken apart in one way only. -/
theorem RunsText.runs_eq (h : RunsText delimiter pieces text) : runs delimiter text = pieces := by
  induction h with
  | nil hgap => rw [Terminated.runs_eq, nextRun?_of_blank hgap]
  | cons hfirst _ ih =>
      rw [Terminated.runs_eq, hfirst.nextRun?]
      simp only [ih]

theorem RunsText.yields (h : RunsText delimiter pieces text) : Yields delimiter pieces text := by
  induction h with
  | nil hgap => exact .ended (by rw [takeRun_eq, nextRun?_of_blank hgap])
  | cons hfirst _ ih => exact .next (by rw [takeRun_eq, hfirst.nextRun?]) ih

theorem RunsText.forall_mem (h : RunsText delimiter pieces text) :
    ∀ run ∈ pieces, run ≠ [] ∧ ∀ c ∈ run, delimiter c = false := by
  induction h with
  | nil _ => exact List.forall_mem_nil _
  | cons hfirst _ ih => exact List.forall_mem_cons.mpr ⟨⟨hfirst.ne_nil, hfirst.free⟩, ih⟩

/-- No byte is lost but the delimiters. -/
theorem RunsText.flatten_eq (h : RunsText delimiter pieces text) :
    pieces.flatten = text.filter (! delimiter ·) := by
  have hnone {gap : Bytes} (hgap : ∀ c ∈ gap, delimiter c = true) :
      gap.filter (! delimiter ·) = [] :=
    List.filter_eq_nil_iff.mpr fun c hc => by simp [hgap c hc]
  have hall {run : Bytes} (hfree : ∀ c ∈ run, delimiter c = false) :
      run.filter (! delimiter ·) = run :=
    List.filter_eq_self.mpr fun c hc => by simp [hfree c hc]
  induction h with
  | nil hgap => rw [hnone hgap, List.flatten_nil]
  | cons hfirst _ ih =>
      rw [List.filter_append, List.filter_append, hnone hfirst.blank, hall hfirst.free, ← ih,
        List.nil_append, List.flatten_cons]

theorem RunsText.behind {gap : Bytes} (hgap : ∀ c ∈ gap, delimiter c = true)
    (h : RunsText delimiter pieces text) : RunsText delimiter pieces (gap ++ text) := by
  cases h with
  | nil hend => exact .nil (List.forall_mem_append.mpr ⟨hgap, hend⟩)
  | cons hfirst hrest =>
      rw [← List.append_assoc]
      exact .cons { hfirst with blank := List.forall_mem_append.mpr ⟨hgap, hfirst.blank⟩ } hrest

theorem RunsText.run_append {run : Bytes} (hrun : run ≠ []) (hfree : ∀ c ∈ run, delimiter c = false)
    (hstops : StopsAt delimiter text) (h : RunsText delimiter pieces text) :
    RunsText delimiter (run :: pieces) (run ++ text) :=
  RunsText.cons ⟨List.forall_mem_nil _, hrun, hfree, hstops⟩ h

theorem runsText_singleton {run : Bytes} (hrun : run ≠ [])
    (hfree : ∀ c ∈ run, delimiter c = false) : RunsText delimiter [run] run := by
  have hnone : RunsText delimiter [] [] := .nil (List.forall_mem_nil _)
  have hone := hnone.run_append hrun hfree (stopsAt_nil delimiter)
  rwa [List.append_nil] at hone

/-- Runs that are joined by a delimiter are the runs of the joined text. -/
theorem runsText_intercalate {d : UInt8} (hd : delimiter d = true)
    (h : ∀ run ∈ pieces, run ≠ [] ∧ ∀ c ∈ run, delimiter c = false) :
    RunsText delimiter pieces ([d].intercalate pieces) := by
  induction pieces with
  | nil => exact .nil (List.forall_mem_nil _)
  | cons run pieces ih =>
      obtain ⟨⟨hrun, hfree⟩, hpieces⟩ := List.forall_mem_cons.mp h
      cases pieces with
      | nil =>
          rw [List.intercalate_singleton]
          exact runsText_singleton hrun hfree
      | cons second more =>
          have hrest := (ih hpieces).behind (List.forall_mem_singleton.mpr hd)
          rw [List.intercalate_cons_cons, List.append_assoc]
          exact hrest.run_append hrun hfree (stopsAt_cons hd _)

end Text

section Places

theorem delimiterAt?_append_left {part rest : Bytes} {b : Bool} (h : ∀ c ∈ part, delimiter c = b)
    {k : Nat} (hk : k < part.length) : delimiterAt? delimiter (part ++ rest) k = some b := by
  rw [delimiterAt?, List.getElem?_append_left hk, List.getElem?_eq_getElem hk, Option.map_some,
    h _ (List.getElem_mem hk)]

theorem delimiterAt?_append_right (part rest : Bytes) (k : Nat) :
    delimiterAt? delimiter (part ++ rest) (part.length + k) = delimiterAt? delimiter rest k := by
  rw [delimiterAt?, List.getElem?_append_right (Nat.le_add_right _ _), Nat.add_sub_cancel_left]
  rfl

theorem delimiterAt?_zero {rest : Bytes} (h : StopsAt delimiter rest) :
    delimiterAt? delimiter rest 0 ≠ some false := by
  cases rest with
  | nil => simp [delimiterAt?]
  | cons c rest => simp [delimiterAt?, h c rfl]

section First

variable {gap run rest : Bytes}

theorem FirstRun.delimiterAt?_gap (h : FirstRun delimiter gap run rest) {k : Nat}
    (hk : k < gap.length) : delimiterAt? delimiter (gap ++ (run ++ rest)) k = some true :=
  delimiterAt?_append_left h.blank hk

theorem FirstRun.delimiterAt?_run (h : FirstRun delimiter gap run rest) {k : Nat}
    (hge : gap.length ≤ k) (hlt : k < gap.length + run.length) :
    delimiterAt? delimiter (gap ++ (run ++ rest)) k = some false := by
  obtain ⟨m, rfl⟩ := Nat.exists_eq_add_of_le hge
  rw [delimiterAt?_append_right]
  exact delimiterAt?_append_left h.free (Nat.lt_of_add_lt_add_left hlt)

theorem delimiterAt?_rest (gap run rest : Bytes) (k : Nat) :
    delimiterAt? delimiter (gap ++ (run ++ rest)) (gap.length + run.length + k) =
      delimiterAt? delimiter rest k := by
  rw [Nat.add_assoc, delimiterAt?_append_right, delimiterAt?_append_right]

theorem FirstRun.delimiterAt?_behind (h : FirstRun delimiter gap run rest) :
    delimiterAt? delimiter (gap ++ (run ++ rest)) (gap.length + run.length) ≠ some false := by
  rw [← Nat.add_zero (gap.length + run.length), delimiterAt?_rest]
  exact delimiterAt?_zero h.stops

theorem FirstRun.maximalRun_self (h : FirstRun delimiter gap run rest) :
    MaximalRun delimiter (gap ++ (run ++ rest)) gap.length (gap.length + run.length) where
  lt := Nat.lt_add_of_pos_right (List.length_pos_iff.mpr h.ne_nil)
  free _ hge hlt := h.delimiterAt?_run hge hlt
  before _ hk := h.delimiterAt?_gap (Nat.lt_of_succ_le (Nat.le_of_eq hk))
  behind := h.delimiterAt?_behind

/-- No run starts where another one ends. -/
theorem MaximalRun.pos_of_stops {i j : Nat} (hmax : MaximalRun delimiter rest i j)
    (hstops : StopsAt delimiter rest) : 0 < i := by
  refine Nat.pos_of_ne_zero ?_
  rintro rfl
  exact delimiterAt?_zero hstops (hmax.free 0 (Nat.le_refl 0) hmax.lt)

theorem FirstRun.maximalRun_add_iff (h : FirstRun delimiter gap run rest) {i j : Nat} :
    MaximalRun delimiter (gap ++ (run ++ rest)) (gap.length + run.length + i)
      (gap.length + run.length + j) ↔ MaximalRun delimiter rest i j := by
  constructor
  · intro hmax
    refine ⟨Nat.lt_of_add_lt_add_left hmax.lt, ?_, ?_, ?_⟩
    · intro k hge hlt
      rw [← delimiterAt?_rest gap run rest]
      exact hmax.free _ (by omega) (by omega)
    · intro k hk
      rw [← delimiterAt?_rest gap run rest]
      exact hmax.before _ (by omega)
    · rw [← delimiterAt?_rest gap run rest]
      exact hmax.behind
  · intro hmax
    refine ⟨Nat.add_lt_add_left hmax.lt _, ?_, ?_, ?_⟩
    · intro k hge hlt
      obtain ⟨m, rfl⟩ := Nat.exists_eq_add_of_le (Nat.le_trans (Nat.le_add_right _ _) hge)
      rw [delimiterAt?_rest]
      exact hmax.free m (by omega) (by omega)
    · -- The byte before the run is one of the rest, as the run does not start with it.
      intro k hk
      obtain ⟨m, rfl⟩ := Nat.exists_eq_add_of_lt (hmax.pos_of_stops h.stops)
      obtain rfl : k = gap.length + run.length + m := by omega
      rw [delimiterAt?_rest]
      exact hmax.before m (by omega)
    · rw [delimiterAt?_rest]
      exact hmax.behind

/-- A run that starts before the end of the first one is the first one. -/
theorem FirstRun.eq_of_maximalRun (h : FirstRun delimiter gap run rest) {i j : Nat}
    (hmax : MaximalRun delimiter (gap ++ (run ++ rest)) i j)
    (hstart : i < gap.length + run.length) :
    i = gap.length ∧ j = gap.length + run.length := by
  have hfirst := hmax.free i (Nat.le_refl i) hmax.lt
  have hge : gap.length ≤ i := by
    by_contra hlt
    rw [h.delimiterAt?_gap (Nat.not_le.mp hlt)] at hfirst
    cases hfirst
  constructor
  · by_contra hne
    obtain ⟨k, rfl⟩ := Nat.exists_eq_add_of_lt (Nat.lt_of_le_of_ne hge (Ne.symm hne))
    have hbefore := hmax.before (gap.length + k) rfl
    rw [h.delimiterAt?_run (Nat.le_add_right _ _) (Nat.lt_of_succ_lt hstart)] at hbefore
    cases hbefore
  · rcases Nat.lt_trichotomy j (gap.length + run.length) with hless | heq | hmore
    · have hj := Nat.le_trans hge (Nat.le_of_lt hmax.lt)
      exact absurd (h.delimiterAt?_run hj hless) hmax.behind
    · exact heq
    · have hnext := hmax.free (gap.length + run.length) (Nat.le_of_lt hstart) hmore
      exact absurd hnext h.delimiterAt?_behind

/-- A run of the text is its first one, or one of the rest. -/
theorem FirstRun.maximalRun_iff (h : FirstRun delimiter gap run rest) {i j : Nat} :
    MaximalRun delimiter (gap ++ (run ++ rest)) i j ↔
      (i = gap.length ∧ j = gap.length + run.length) ∨
      ∃ i' j', MaximalRun delimiter rest i' j' ∧ i = gap.length + run.length + i' ∧
        j = gap.length + run.length + j' := by
  constructor
  · intro hmax
    rcases Nat.lt_or_ge i (gap.length + run.length) with hstart | hbehind
    · exact .inl (h.eq_of_maximalRun hmax hstart)
    · have hend := Nat.le_trans hbehind (Nat.le_of_lt hmax.lt)
      obtain ⟨i', rfl⟩ := Nat.exists_eq_add_of_le hbehind
      obtain ⟨j', rfl⟩ := Nat.exists_eq_add_of_le hend
      exact .inr ⟨i', j', h.maximalRun_add_iff.mp hmax, rfl, rfl⟩
  · rintro (⟨rfl, rfl⟩ | ⟨i', j', hmax, rfl, rfl⟩)
    · exact h.maximalRun_self
    · exact h.maximalRun_add_iff.mpr hmax

/-- The first run stands at its place, and what follows it has moved behind it. -/
theorem extract_first_run (gap run rest : Bytes) :
    (gap ++ (run ++ rest)).extract gap.length (gap.length + run.length) = run ∧
    ∀ i j, (gap ++ (run ++ rest)).extract (gap.length + run.length + i)
      (gap.length + run.length + j) = rest.extract i j := by
  constructor
  · rw [List.extract_eq_take_drop, List.drop_left, Nat.add_sub_cancel_left, List.take_left]
  · intro i j
    rw [← List.append_assoc, ← List.length_append, List.extract_eq_take_drop,
      List.drop_length_add_append, Nat.add_sub_add_left]

end First

/-- The runs of a text are its maximal runs, from the first to the last. -/
theorem RunsText.exists_places {pieces : List Bytes} {text : Bytes}
    (h : RunsText delimiter pieces text) :
    ∃ places : List (Nat × Nat), places.Pairwise (fun p q => p.2 < q.1) ∧
      (∀ i j, (i, j) ∈ places ↔ MaximalRun delimiter text i j) ∧
      pieces = places.map fun p => text.extract p.1 p.2 := by
  induction h with
  | nil hgap =>
      refine ⟨[], .nil, fun i j => ⟨fun hmem => (List.not_mem_nil hmem).elim, fun hmax => ?_⟩, rfl⟩
      have hfirst := hmax.free i (Nat.le_refl i) hmax.lt
      obtain ⟨c, hc, hfree⟩ := Option.map_eq_some_iff.mp hfirst
      rw [hgap c (List.mem_of_getElem? hc)] at hfree
      cases hfree
  | @cons gap run rest pieces hfirst _ ih =>
      obtain ⟨places, hsorted, hmem, rfl⟩ := ih
      obtain ⟨hhead, htail⟩ := extract_first_run gap run rest
      -- The first run comes first, and all places of the rest move behind it.
      let move (k : Nat) : Nat := gap.length + run.length + k
      refine ⟨(gap.length, move 0) :: places.map (Prod.map move move), ?_, ?_, ?_⟩
      · rw [List.pairwise_cons, List.forall_mem_map, List.pairwise_map]
        constructor
        · rintro ⟨i, j⟩ hp
          have hpos := ((hmem i j).mp hp).pos_of_stops hfirst.stops
          exact Nat.add_lt_add_left hpos _
        · exact hsorted.imp fun hlt => Nat.add_lt_add_left hlt _
      · intro i j
        rw [hfirst.maximalRun_iff, List.mem_cons, List.mem_map]
        simp only [Prod.exists, hmem, Prod.map_apply, Prod.mk.injEq]
        constructor
        · rintro (⟨rfl, rfl⟩ | ⟨i', j', hmax, rfl, rfl⟩)
          · exact .inl ⟨rfl, rfl⟩
          · exact .inr ⟨i', j', hmax, rfl, rfl⟩
        · rintro (⟨rfl, rfl⟩ | ⟨i', j', hmax, rfl, rfl⟩)
          · exact .inl ⟨rfl, rfl⟩
          · exact .inr ⟨i', j', hmax, rfl, rfl⟩
      · rw [List.map_cons, List.map_map]
        refine congrArg₂ List.cons hhead.symm (List.map_congr_left fun p _ => ?_)
        exact (htail p.1 p.2).symm

end Places

theorem eq_or_mem_of_mem_intercalate {c d : UInt8} {pieces : List Bytes}
    (h : c ∈ [d].intercalate pieces) : c = d ∨ ∃ run ∈ pieces, c ∈ run := by
  induction pieces with
  | nil => cases h
  | cons run pieces ih =>
      cases pieces with
      | nil => exact .inr ⟨run, List.mem_cons_self, by rwa [List.intercalate_singleton] at h⟩
      | cons second more =>
          rw [List.intercalate_cons_cons, List.append_assoc, List.mem_append, List.mem_append,
            List.mem_singleton] at h
          rcases h with hrun | hsep | hrest
          · exact .inr ⟨run, List.mem_cons_self, hrun⟩
          · exact .inl hsep
          · rcases ih hrest with hsep | ⟨piece, hpiece, hc⟩
            · exact .inl hsep
            · exact .inr ⟨piece, List.mem_cons_of_mem _ hpiece, hc⟩

/-- The tokens are joined without a terminator. -/
theorem zero_notMem_intercalate {s delimiters : Bytes} {d : UInt8} (hd : d ∈ content delimiters) :
    (0 : UInt8) ∉ [d].intercalate (tokens s delimiters) := by
  have hflatten : (tokens s delimiters).flatten = _ := (runsText_runs (content s)).flatten_eq
  intro hmem
  rcases eq_or_mem_of_mem_intercalate hmem with rfl | ⟨run, hrun, hzero⟩
  · exact zero_notMem_content delimiters hd
  · have hjoined := List.mem_flatten_of_mem hrun hzero
    rw [hflatten] at hjoined
    exact zero_notMem_content s (List.mem_filter.mp hjoined).1

/-- The tokens of a string are its maximal runs between delimiters. Calls answer with them in their
order and then with none, and no cut is out of range. No token is empty or holds a delimiter, no
other byte is lost, and tokens that are joined by a delimiter are cut there again. Without
delimiters a string that is not empty is its only token. -/
theorem tokens_are_maximal_runs (s delimiters : Bytes) :
    let text := content s
    let delimiter := (content delimiters).contains
    Yields delimiter (tokens s delimiters) text ∧
    (∃ places : List (Nat × Nat), places.Pairwise (fun p q => p.2 < q.1) ∧
      (∀ i j, (i, j) ∈ places ↔ MaximalRun delimiter text i j) ∧
      tokens s delimiters = places.map fun p => text.extract p.1 p.2) ∧
    (∀ run ∈ tokens s delimiters, run ≠ [] ∧ ∀ c ∈ run, c ∉ content delimiters) ∧
    (tokens s delimiters).flatten = text.filter (· ∉ content delimiters) ∧
    (∀ d ∈ content delimiters,
      tokens ([d].intercalate (tokens s delimiters)) delimiters = tokens s delimiters) ∧
    (content delimiters = [] → tokens s delimiters = if text = [] then [] else [text]) := by
  intro text delimiter
  have htext : RunsText delimiter (tokens s delimiters) text := runsText_runs text
  refine ⟨htext.yields, htext.exists_places, ?_, ?_, ?_, ?_⟩
  · intro run hrun
    obtain ⟨hne, hfree⟩ := htext.forall_mem run hrun
    exact ⟨hne, fun c hc => by simpa [delimiter] using hfree c hc⟩
  · rw [htext.flatten_eq]
    exact List.filter_congr fun c _ => by simp [delimiter]
  · intro d hd
    have hjoined := runsText_intercalate (List.contains_iff_mem.mpr hd) htext.forall_mem
    rw [tokens, content_eq_self (zero_notMem_intercalate hd)]
    exact hjoined.runs_eq
  · intro hnone
    have hfree : ∀ c ∈ text, delimiter c = false := fun c _ => by simp [delimiter, hnone]
    split
    · rename_i hempty
      have hblank : ∀ c ∈ text, delimiter c = true := by
        rw [hempty]
        exact List.forall_mem_nil _
      exact (RunsText.nil hblank).runs_eq
    · rename_i hne
      exact (runsText_singleton hne hfree).runs_eq

/-- Delimiters in a row and at both ends of a text, one of them behind the terminator of the list of
delimiters, and a text that is not cut at all. -/
theorem tokens_of_sampleText :
    let s : Bytes := [0x2C, 0x2C, 0x61, 0x3B, 0x62, 0x63, 0x2C, 0, 0x64]
    let delimiters : Bytes := [0x2C, 0x3B, 0, 0x61]
    tokens s delimiters = [[0x61], [0x62, 0x63]] ∧
    tokens [0x61, 0x3B, 0x62, 0x63] delimiters = [[0x61], [0x62, 0x63]] ∧
    tokens s [0, 0x61] = [[0x2C, 0x2C, 0x61, 0x3B, 0x62, 0x63, 0x2C]] := by
  intro s delimiters
  have hcut : tokens s delimiters = [[0x61], [0x62, 0x63]] := by decide +kernel
  obtain ⟨-, -, -, -, hjoin, -⟩ := tokens_are_maximal_runs s delimiters
  obtain ⟨-, -, -, -, -, hwhole⟩ := tokens_are_maximal_runs s [0, 0x61]
  have hagain := hjoin 0x3B (by decide)
  rw [hcut] at hagain
  exact ⟨hcut, hagain, hwhole (by decide)⟩

end EarlyBoot.Terminated
