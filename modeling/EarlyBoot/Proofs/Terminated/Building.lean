import EarlyBoot.Proofs.Terminated.InPlace

/-!
Building a string in a buffer. To copy and to append is the same thing: a text is placed at the
start of the buffer, with a terminator behind it, if there is room for both. So what is built step
by step is what the same steps make of plain lists, and the bytes behind the longest string on the
way and its terminator are never touched.
-/

namespace EarlyBoot

theorem Region.copy_of_le {source : Bytes} {n : Nat} (h : n ≤ source.length) (target : Bytes) :
    Region.copy target source n =
      if n ≤ target.length then .ok (source.take n ++ target.drop n)
      else .error .outOfBounds := by
  simp only [Region.copy, h, and_true]

theorem Region.fill_eq_replicate (buffer : Bytes) (value : UInt8) :
    Region.fill buffer value = List.replicate buffer.length value :=
  List.map_const' ..

namespace Terminated

/-- Place a text at the start of a buffer, with a terminator behind it. Also gives the length of
the text. -/
def place (buffer text : Bytes) : Except Fault (Nat × Bytes) :=
  if text.length < buffer.length then
    .ok (text.length, text ++ 0 :: buffer.drop (text.length + 1))
  else .error .outOfBounds

theorem length_content (s : Bytes) : (content s).length = length s :=
  rfl

theorem take_min_length (s : Bytes) (n : Nat) : s.take (min (length s) n) = (content s).take n := by
  rw [← take_length, List.take_take, Nat.min_comm]

theorem length_take_content (s : Bytes) (n : Nat) :
    ((content s).take n).length = min (length s) n := by
  rw [List.length_take, Nat.min_comm, length_content]

/-- There is an index for the terminator of a text exactly if the buffer is longer than the text. -/
theorem store_terminator (buffer text : Bytes) :
    Region.store (text ++ buffer.drop text.length) text.length 0 =
      (place buffer text).map (·.2) := by
  by_cases hroom : text.length < buffer.length
  · have hindex : text.length < (text ++ buffer.drop text.length).length := by simp; omega
    rw [Region.store, if_pos hindex, place, if_pos hroom, List.drop_eq_getElem_cons hroom,
      List.set_append_right _ _ (Nat.le_refl _), Nat.sub_self]
    rfl
  · have hindex : ¬ text.length < (text ++ buffer.drop text.length).length := by simp; omega
    rw [Region.store, if_neg hindex, place, if_neg hroom]
    rfl

theorem place_of_room {buffer text : Bytes} (h : text.length < buffer.length) :
    place buffer text = .ok (text.length, text ++ 0 :: buffer.drop (text.length + 1)) :=
  if_pos h

theorem place_of_no_room {buffer text : Bytes} (h : buffer.length ≤ text.length) :
    place buffer text = .error .outOfBounds :=
  if_neg (Nat.not_lt.mpr h)

theorem copy_eq_place (buffer source : Bytes) :
    copy buffer source = place buffer (content source) := by
  have hstore := store_terminator buffer (content source)
  rw [length_content] at hstore
  rw [copy, Region.copy_of_le (length_le source), take_length]
  by_cases hfits : length source ≤ buffer.length
  · simp only [if_pos hfits, bind, Except.bind, hstore]
    rcases Nat.lt_or_ge (content source).length buffer.length with hroom | hroom
    · rw [place_of_room hroom]
      rfl
    · rw [place_of_no_room hroom]
      rfl
  · rw [if_neg hfits, place_of_no_room (Nat.le_of_not_le hfits)]
    rfl

/-- Appending places the string that was there and the new one in a row. -/
theorem concat_eq_place (buffer source : Bytes) :
    concat buffer source = place buffer (content buffer ++ content source) := by
  have hle := length_le buffer
  rw [concat, copy_eq_place, take_length]
  simp only [place, List.length_drop, List.length_append, List.drop_drop, length_content]
  by_cases hroom : length buffer + length source < buffer.length
  · rw [if_pos (by omega), if_pos hroom, ← Nat.add_assoc, List.append_assoc]
    rfl
  · rw [if_neg (by omega), if_neg hroom]
    rfl

theorem concatBounded_eq_place (buffer source : Bytes) (n : Nat) :
    concatBounded buffer source n =
      place buffer (content buffer ++ (content source).take n) := by
  have hle := length_le buffer
  have hstore := store_terminator buffer (content buffer ++ (content source).take n)
  have hlength : (content buffer ++ (content source).take n).length =
      length buffer + min (length source) n := by
    rw [List.length_append, length_take_content, length_content]
  rw [hlength, List.append_assoc] at hstore
  rw [concatBounded, Region.copy_of_le (Nat.le_trans (Nat.min_le_left _ _) (length_le source)),
    take_min_length, take_length, List.drop_drop, List.length_drop]
  by_cases hfits : min (length source) n ≤ buffer.length - length buffer
  · simp only [if_pos hfits, bind, Except.bind, hstore]
    rcases Nat.lt_or_ge (content buffer ++ (content source).take n).length buffer.length with
      hroom | hroom
    · rw [place_of_room hroom, hlength]
      rfl
    · rw [place_of_no_room hroom]
      rfl
  · rw [if_neg hfits, place_of_no_room (by rw [hlength]; omega)]
    rfl

/-- A bounded copy sets its bytes whatever becomes of the string behind them. -/
theorem copyBounded_eq (buffer source : Bytes) (n : Nat) :
    copyBounded buffer source n =
      if n ≤ buffer.length then .ok (((content source).take n).rightpad n 0 ++ buffer.drop n)
      else .error .outOfBounds := by
  have hmin : min (length source) n ≤ source.length :=
    Nat.le_trans (Nat.min_le_left _ _) (length_le source)
  have htext := length_take_content source n
  rw [copyBounded, Region.copy_of_le hmin, take_min_length]
  by_cases hfits : min (length source) n ≤ buffer.length
  · have hlength : ((content source).take n ++ buffer.drop (min (length source) n)).length =
        buffer.length := by
      rw [List.length_append, htext, List.length_drop]
      omega
    simp only [if_pos hfits, bind, Except.bind, hlength]
    by_cases hroom : n ≤ buffer.length
    · have hbehind : ((content source).take n ++ buffer.drop (min (length source) n)).drop n =
          buffer.drop n := by
        rw [List.drop_append, htext, List.drop_eq_nil_of_le (by omega), List.drop_drop,
          List.nil_append, Nat.add_sub_cancel' (Nat.min_le_right _ _)]
      have hrest : ((((content source).take n ++ buffer.drop (min (length source) n)).take n).drop
          (min (length source) n)).length = n - min (length source) n := by
        rw [List.length_drop, List.length_take, hlength, Nat.min_eq_left hroom]
      rw [if_neg (Nat.not_lt.mpr hroom), if_pos hroom, hbehind, Region.fill_eq_replicate, hrest,
        List.take_left' htext, List.rightpad, htext]
      rfl
    · rw [if_pos (Nat.lt_of_not_le hroom), if_neg hroom]
      rfl
  · rw [if_neg hfits, if_neg (by omega)]
    rfl

/-- A step in building a string. -/
inductive Edit where
  | copy (source : Bytes)
  | copyBounded (source : Bytes) (n : Nat)
  | concat (source : Bytes)
  | concatBounded (source : Bytes) (n : Nat)
  | reverse

namespace Edit

/-- Whether a step minds the terminator. A bounded copy does not: it may leave none, or put more
zeros than one. -/
def terminates : Edit → Bool
  | copyBounded _ _ => false
  | _ => true

def perform (buffer : Bytes) : Edit → Except Fault Bytes
  | copy source => (Terminated.copy buffer source).map (·.2)
  | copyBounded source n => Terminated.copyBounded buffer source n
  | concat source => (Terminated.concat buffer source).map (·.2)
  | concatBounded source n => (Terminated.concatBounded buffer source n).map (·.2)
  | reverse => reverseInPlace buffer

def performAll (buffer : Bytes) (edits : List Edit) : Except Fault Bytes :=
  edits.foldlM perform buffer

/-- What a step makes of a string that is a plain list. -/
def onText (text : Bytes) : Edit → Bytes
  | copy source => content source
  | copyBounded source n => (content source).take n
  | concat source => text ++ content source
  | concatBounded source n => text ++ (content source).take n
  | reverse => text.reverse

/-- The strings on the way from a first one through the steps, that one included. -/
def texts (first : Bytes) (edits : List Edit) : List Bytes :=
  edits.scanl onText first

/-- The length of the longest of some strings. -/
def longest (texts : List Bytes) : Nat :=
  (texts.map List.length).max?.getD 0

theorem zero_notMem_onText {text : Bytes} (h : (0 : UInt8) ∉ text) (edit : Edit) :
    (0 : UInt8) ∉ edit.onText text := by
  have hcontent := zero_notMem_content
  cases edit with
  | copy source => exact hcontent source
  | copyBounded source n => exact fun hmem => hcontent source (List.mem_of_mem_take hmem)
  | concat source => exact List.not_mem_append h (hcontent source)
  | concatBounded source n =>
      exact List.not_mem_append h fun hmem => hcontent source (List.mem_of_mem_take hmem)
  | reverse => exact fun hmem => h (List.mem_reverse.mp hmem)

theorem longest_spec {texts : List Bytes} (h : texts ≠ []) :
    (∃ t ∈ texts, t.length = longest texts) ∧ ∀ t ∈ texts, t.length ≤ longest texts := by
  obtain ⟨reach, hreach⟩ : ∃ reach, (texts.map List.length).max? = some reach :=
    Option.ne_none_iff_exists'.mp fun hnone =>
      h (List.map_eq_nil_iff.mp (List.max?_eq_none_iff.mp hnone))
  obtain ⟨hmem, hle⟩ := List.max?_eq_some_iff.mp hreach
  obtain ⟨t, ht, hlength⟩ := List.mem_map.mp hmem
  rw [longest, hreach]
  exact ⟨⟨t, ht, hlength⟩, fun t ht => hle _ (List.mem_map_of_mem ht)⟩

theorem texts_cons (first : Bytes) (edit : Edit) (rest : List Edit) :
    texts first (edit :: rest) = first :: texts (edit.onText first) rest :=
  List.scanl_cons

theorem mem_texts_self (first : Bytes) (edits : List Edit) : first ∈ texts first edits := by
  cases edits with
  | nil => exact List.mem_singleton_self first
  | cons edit rest => rw [texts_cons]; exact List.mem_cons_self

/-- The buffer holds a text and its terminator. Behind `reach` bytes and one more it is as it was
initially. -/
structure Built (initial : Bytes) (reach : Nat) (text buffer : Bytes) : Prop where
  zero_notMem : (0 : UInt8) ∉ text
  held : ∃ behind, buffer = text ++ 0 :: behind
  length_eq : buffer.length = initial.length
  untouched : buffer.drop (reach + 1) = initial.drop (reach + 1)

/-- A text that is placed in a buffer of the initial length is held by it. -/
theorem built_of_place (buffer : Bytes) {initial text : Bytes} {reach : Nat}
    (hlength : buffer.length = initial.length)
    (huntouched : buffer.drop (reach + 1) = initial.drop (reach + 1))
    (hzero : (0 : UInt8) ∉ text) (hreach : text.length ≤ reach)
    (hroom : text.length < initial.length) :
    ∃ after, (place buffer text).map (·.2) = .ok after ∧ Built initial reach text after := by
  rw [place_of_room (by omega)]
  refine ⟨_, rfl, hzero, ⟨_, rfl⟩, ?_, ?_⟩
  · simp only [List.length_append, List.length_cons, List.length_drop]
    omega
  · have hwritten : (text ++ [0]).length ≤ reach + 1 := by
      rw [List.length_append, List.length_singleton]
      omega
    change (text ++ 0 :: buffer.drop (text.length + 1)).drop (reach + 1) = _
    rw [← huntouched, List.append_cons, List.drop_append, List.drop_eq_nil_of_le hwritten,
      List.drop_drop, List.nil_append, List.length_append, List.length_singleton]
    congr 1
    omega

namespace Built

variable {initial text buffer : Bytes} {reach : Nat} (h : Built initial reach text buffer)

include h

theorem content_eq : content buffer = text := by
  obtain ⟨behind, rfl⟩ := h.held
  exact content_append_zero h.zero_notMem behind

theorem length_lt : text.length < initial.length := by
  obtain ⟨behind, hbuffer⟩ := h.held
  rw [← h.length_eq, hbuffer]
  simp

/-- In a buffer with a terminator, a step places what it makes of the text. -/
theorem perform_eq {edit : Edit} (hedit : edit.terminates = true) :
    edit.perform buffer = (place buffer (edit.onText text)).map (·.2) := by
  cases edit with
  | copy source => rw [perform, copy_eq_place, onText]
  | copyBounded source n => cases hedit
  | concat source => rw [perform, concat_eq_place, h.content_eq, onText]
  | concatBounded source n => rw [perform, concatBounded_eq_place, h.content_eq, onText]
  | reverse =>
      rw [perform, reverseInPlace_eq, Terminated.reverse, ← length_content, h.content_eq, onText,
        place_of_room (by rw [List.length_reverse, h.length_eq]; exact h.length_lt)]
      obtain ⟨behind, rfl⟩ := h.held
      simp [Except.map]

theorem perform {edit : Edit} (hedit : edit.terminates = true)
    (hreach : (edit.onText text).length ≤ reach)
    (hroom : (edit.onText text).length < initial.length) :
    ∃ after, edit.perform buffer = .ok after ∧ Built initial reach (edit.onText text) after := by
  rw [h.perform_eq hedit]
  exact built_of_place buffer h.length_eq h.untouched (zero_notMem_onText h.zero_notMem edit)
    hreach hroom

theorem perform_of_no_room {edit : Edit} (hedit : edit.terminates = true)
    (hover : initial.length ≤ (edit.onText text).length) :
    edit.perform buffer = .error .outOfBounds := by
  rw [h.perform_eq hedit, place_of_no_room (by rw [h.length_eq]; exact hover)]
  rfl

end Built

/-- Steps go on as long as their texts fit into the buffer, and build the last of these texts. -/
theorem performAll_of_room {initial text buffer : Bytes} {reach : Nat} {edits : List Edit}
    (h : Built initial reach text buffer) (hedits : ∀ edit ∈ edits, edit.terminates = true)
    (hreach : ∀ t ∈ texts text edits, t.length ≤ reach) (hroom : reach < initial.length) :
    ∃ after, performAll buffer edits = .ok after ∧
      Built initial reach (edits.foldl onText text) after := by
  induction edits generalizing text buffer with
  | nil => exact ⟨buffer, rfl, h⟩
  | cons edit rest ih =>
      obtain ⟨hedit, hrest⟩ := List.forall_mem_cons.mp hedits
      rw [texts_cons] at hreach
      obtain ⟨-, hlater⟩ := List.forall_mem_cons.mp hreach
      have hnext : (edit.onText text).length ≤ reach := hlater _ (mem_texts_self _ rest)
      obtain ⟨middle, hperform, hbuilt⟩ :=
        h.perform hedit hnext (Nat.lt_of_le_of_lt hnext hroom)
      obtain ⟨after, hafter, hlast⟩ := ih hbuilt hrest hlater
      refine ⟨after, ?_, hlast⟩
      rw [performAll, List.foldlM_cons, hperform]
      exact hafter

/-- The first step whose text does not fit into the buffer is a fault. -/
theorem performAll_of_no_room {initial text buffer : Bytes} {edits : List Edit}
    (h : Built initial initial.length text buffer)
    (hedits : ∀ edit ∈ edits, edit.terminates = true)
    (hover : ∃ t ∈ texts text edits, initial.length ≤ t.length) :
    performAll buffer edits = .error .outOfBounds := by
  induction edits generalizing text buffer with
  | nil =>
      obtain ⟨t, hmem, hlong⟩ := hover
      obtain rfl : t = text := List.mem_singleton.mp hmem
      exact absurd h.length_lt (Nat.not_lt.mpr hlong)
  | cons edit rest ih =>
      obtain ⟨hedit, hrest⟩ := List.forall_mem_cons.mp hedits
      rw [performAll, List.foldlM_cons]
      rcases Nat.lt_or_ge (edit.onText text).length initial.length with hroom | hlong
      · obtain ⟨middle, hperform, hbuilt⟩ := h.perform hedit (Nat.le_of_lt hroom) hroom
        obtain ⟨t, hmem, hlong⟩ := hover
        rw [texts_cons] at hmem
        have hlater : t ∈ texts (edit.onText text) rest := by
          rcases List.mem_cons.mp hmem with rfl | hlater
          · exact absurd h.length_lt (Nat.not_lt.mpr hlong)
          · exact hlater
        rw [hperform]
        exact ih hbuilt hrest ⟨t, hlater, hlong⟩
      · rw [h.perform_of_no_room hedit hlong]
        rfl

end Edit

open Edit in
/-- Building a string in a buffer follows the algebra of lists. With `c` for the string in the
buffer and `s` for the one in the source, each step comes to a list made of these and of what lies
behind them, and fails exactly if there is no room for it. A run of steps that starts with a copy
succeeds exactly if its longest string fits with its terminator; then the buffer holds what the
steps make of plain lists, and the bytes behind the longest string and its terminator are the
initial ones. -/
theorem building_follows_lists :
    (∀ (buffer source : Bytes) (n : Nat),
      let c := content buffer
      let s := content source
      copy buffer source = place buffer s ∧
      copyBounded buffer source n =
        (if n ≤ buffer.length then .ok ((s.take n).rightpad n 0 ++ buffer.drop n)
        else .error .outOfBounds) ∧
      concat buffer source = place buffer (c ++ s) ∧
      concatBounded buffer source n = place buffer (c ++ s.take n) ∧
      reverseInPlace buffer = .ok (reverse buffer) ∧
      reverse buffer = c.reverse ++ buffer.drop c.length) ∧
    ∀ (buffer source : Bytes) (edits : List Edit),
      (∀ edit ∈ edits, edit.terminates = true) →
      let texts := texts (content source) edits
      let reach := longest texts
      (reach < buffer.length → ∃ after, performAll buffer (.copy source :: edits) = .ok after ∧
        content after = edits.foldl onText (content source) ∧ after.length = buffer.length ∧
        after.drop (reach + 1) = buffer.drop (reach + 1)) ∧
      (buffer.length ≤ reach →
        performAll buffer (.copy source :: edits) = .error .outOfBounds) := by
  constructor
  · intro buffer source n
    exact ⟨copy_eq_place buffer source, copyBounded_eq buffer source n,
      concat_eq_place buffer source, concatBounded_eq_place buffer source n,
      reverseInPlace_eq buffer, rfl⟩
  · intro buffer source edits hedits texts reach
    have hzero := zero_notMem_content source
    have hfirst : content source ∈ texts := mem_texts_self _ edits
    obtain ⟨⟨t, hmem, hlength⟩, hreach⟩ := longest_spec (List.ne_nil_of_mem hfirst)
    rw [performAll, List.foldlM_cons, perform, copy_eq_place]
    constructor
    · intro hroom
      obtain ⟨copied, hcopied, hbuilt⟩ := built_of_place buffer rfl rfl hzero (hreach _ hfirst)
        (Nat.lt_of_le_of_lt (hreach _ hfirst) hroom)
      obtain ⟨after, hafter, hlast⟩ := performAll_of_room hbuilt hedits hreach hroom
      rw [hcopied]
      exact ⟨after, hafter, hlast.content_eq, hlast.length_eq, hlast.untouched⟩
    · intro hover
      rcases Nat.lt_or_ge (content source).length buffer.length with hroom | hlong
      · obtain ⟨copied, hcopied, hbuilt⟩ := built_of_place buffer rfl rfl hzero
          (Nat.le_of_lt hroom) hroom
        rw [hcopied]
        exact performAll_of_no_room hbuilt hedits ⟨t, hmem, by omega⟩
      · rw [place_of_no_room hlong]
        rfl

/-- Two names in a row, turned around, and as much of a version as three bytes hold. -/
def sampleEdits : List Edit :=
  [.concat (Bytes.ofText "OS"), .reverse, .concatBounded (Bytes.ofText " v0.1") 3]

open Edit in
/-- The longest string is the last one, with ten bytes: twelve bytes are room for it and leave one
byte as it was, ten bytes are none. -/
theorem building_of_sampleEdits :
    let source := Bytes.ofText "nekko" ++ [0, 0xEE]
    (∀ edit ∈ sampleEdits, edit.terminates = true) ∧
    longest (texts (content source) sampleEdits) = 10 ∧
    (∃ after, performAll (List.replicate 12 0xFF) (.copy source :: sampleEdits) = .ok after ∧
      content after = Bytes.ofText "SOokken v0" ∧ after.drop 11 = [0xFF]) ∧
    performAll (List.replicate 10 0xFF) (.copy source :: sampleEdits) = .error .outOfBounds := by
  intro source
  have hedits : ∀ edit ∈ sampleEdits, edit.terminates = true := by decide +kernel
  have hlongest : longest (texts (content source) sampleEdits) = 10 := by decide +kernel
  have hlast : sampleEdits.foldl onText (content source) = Bytes.ofText "SOokken v0" := by
    decide +kernel
  refine ⟨hedits, hlongest, ?_, ?_⟩
  · obtain ⟨after, hafter, hcontent, -, huntouched⟩ :=
      (building_follows_lists.2 (List.replicate 12 0xFF) source sampleEdits hedits).1 (by
        rw [hlongest]; decide)
    rw [hlongest] at huntouched
    exact ⟨after, hafter, hcontent.trans hlast, huntouched⟩
  · exact (building_follows_lists.2 (List.replicate 10 0xFF) source sampleEdits hedits).2 (by
      rw [hlongest]; decide)

end Terminated

end EarlyBoot
