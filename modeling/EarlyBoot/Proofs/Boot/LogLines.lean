import EarlyBoot.Proofs.Boot.Course

/-!
The serial text of a boot, line by line. Every record is one line, and the pair of bytes that ends
it stands nowhere else. So nothing that the loader leaves in memory can pass for a record: whoever
reads the text finds as many lines as records were sent.
-/

namespace EarlyBoot.Boot

/-- The bytes that end a line on the serial line. -/
def lineEnd : Bytes := [0x0D, 0x0A]

theorem exists_entry_of_mem_emitted {filter : LogFilter} {entries : List Entry} {r : LogRecord}
    (h : r ∈ emitted filter entries) : ∃ entry ∈ entries, entry.record? = some r := by
  induction entries generalizing filter with
  | nil => cases h
  | cons entry rest ih =>
      obtain hfirst | hlater := List.mem_append.mp h
      · rw [Option.mem_toList, Option.filter_eq_some_iff] at hfirst
        exact ⟨entry, List.mem_cons_self, hfirst.1⟩
      · obtain ⟨made, hmade, hr⟩ := ih hlater
        exact ⟨made, List.mem_cons_of_mem _ hmade, hr⟩

theorem onOneLine_of_sent (handoff : Handoff) (m : LoadedMemory) (console : Console)
    (filter : LogFilter) : ∀ r ∈ (ending handoff m console filter).sent, r.OnOneLine := by
  obtain ⟨course, after, hcourse⟩ := impartial_boot handoff m console
  have hrun := hcourse.run SerialLog ⟨filter, #[]⟩ #[]
  rw [foldl_hear_serialLog, Array.empty_append] at hrun
  rw [ending_of_run hrun]
  intro r hr
  obtain ⟨entry, hentry, hmade⟩ := exists_entry_of_mem_emitted hr
  exact hcourse.onOneLine entry hentry r hmade

/-- Each line of these records is a text without a line end and then one. -/
theorem exists_bodies {records : List LogRecord} (h : ∀ r ∈ records, r.OnOneLine) :
    ∃ bodies : List Bytes,
      records.map (Bytes.ofText ·.line) = bodies.map (· ++ lineEnd) ∧
      (0x0A : UInt8) ∉ bodies.flatten ∧ (0x0D : UInt8) ∉ bodies.flatten := by
  induction records with
  | nil => exact ⟨[], rfl, List.not_mem_nil, List.not_mem_nil⟩
  | cons r rest ih =>
      obtain ⟨hr, hrest⟩ := List.forall_mem_cons.mp h
      obtain ⟨bodies, hbodies, hfeed, hreturn⟩ := ih hrest
      obtain ⟨body, hbody, hline⟩ := hr.line_eq
      obtain ⟨hbodyFeed, hbodyReturn⟩ := hbody.notMem_ofText
      have hbytes : Bytes.ofText r.line = Bytes.ofText body ++ lineEnd := by
        rw [hline, Bytes.ofText_append]
        rfl
      refine ⟨Bytes.ofText body :: bodies, ?_, ?_, ?_⟩
      · rw [List.map_cons, hbytes, hbodies, List.map_cons]
      · rw [List.flatten_cons, List.mem_append, not_or]
        exact ⟨hbodyFeed, hfeed⟩
      · rw [List.flatten_cons, List.mem_append, not_or]
        exact ⟨hbodyReturn, hreturn⟩

theorem count_lines {b : UInt8} (hb : lineEnd.count b = 1) {bodies : List Bytes}
    (h : b ∉ bodies.flatten) : (bodies.flatMap (· ++ lineEnd)).count b = bodies.length := by
  induction bodies with
  | nil => rfl
  | cons body rest ih =>
      rw [List.flatten_cons, List.mem_append, not_or] at h
      rw [List.flatMap_cons, List.count_append, List.count_append, ih h.2,
        List.count_eq_zero_of_not_mem h.1, hb, List.length_cons]
      omega

/-- Nothing in memory can forge a line of the log. Whatever the hand-off, the memory and the filter
are and however the boot ends, each record that is sent is one line, and the two bytes that end a
line stand nowhere else: there are as many of each as records. -/
theorem serial_has_a_line_for_each_record (handoff : Handoff) (m : LoadedMemory)
    (console : Console) (filter : LogFilter) :
    let e := ending handoff m console filter
    ∃ bodies : List Bytes,
      e.sent.map (Bytes.ofText ·.line) = bodies.map (· ++ lineEnd) ∧
      Bytes.ofText e.serial = bodies.flatMap (· ++ lineEnd) ∧
      (0x0A : UInt8) ∉ bodies.flatten ∧ (0x0D : UInt8) ∉ bodies.flatten ∧
      (Bytes.ofText e.serial).count 0x0A = e.sent.length ∧
      (Bytes.ofText e.serial).count 0x0D = e.sent.length := by
  intro e
  obtain ⟨bodies, hbodies, hfeed, hreturn⟩ :=
    exists_bodies (onOneLine_of_sent handoff m console filter)
  have hserial : Bytes.ofText e.serial = bodies.flatMap (· ++ lineEnd) := by
    rw [Ending.serial, LogRecord.ofText_lines, List.flatMap_def, List.flatMap_def]
    exact congrArg List.flatten hbodies
  have hlength : bodies.length = e.sent.length := by
    have hlengths := congrArg List.length hbodies
    rw [List.length_map, List.length_map] at hlengths
    exact hlengths.symm
  refine ⟨bodies, hbodies, hserial, hfeed, hreturn, ?_, ?_⟩
  · rw [hserial, count_lines (by decide) hfeed, hlength]
  · rw [hserial, count_lines (by decide) hreturn, hlength]

end EarlyBoot.Boot
