import EarlyBoot.Boot.Handoff
import EarlyBoot.Boot.Journal
import EarlyBoot.Boot.Subsystems
import EarlyBoot.Proofs.OneLine

/-!
The words of the log. A record says one thing on one line: the texts that a report is made of end
no line, whatever the loader has left in memory and on the command line.
-/

namespace EarlyBoot

namespace OneLine

theorem pixelFormat (format : PixelFormat) : OneLine format.text := by
  have hfield {name : String} (hname : OneLine name) (value : UInt8) :
      OneLine (name ++ ": " ++ Numeral.decimalText value.toNat) := by
    simp only [append_iff, hname, decimal, true_and, and_true]
    decide
  delta PixelFormat.text
  cases format with
  | indexed palette colors =>
      simp only [append_iff, decimal, and_true]
      decide +kernel
  | rgb fields =>
      simp only [append_iff]
      refine ⟨⟨by decide +kernel, .intercalate (by decide) ?_⟩, by decide⟩
      simp only [List.mem_cons, List.not_mem_nil, or_false]
      rintro s (rfl | rfl | rfl | rfl | rfl | rfl) <;> exact hfield (by decide +kernel) _
  | egaText => decide
  | unknown type =>
      simp only [append_iff, decimal, and_true]
      decide +kernel

theorem bootDevice (device : BootDevice) : OneLine device.text := by
  have hpartitions : OneLine
      (", ".intercalate (device.partitions.map fun p => Numeral.decimalText p.toNat)) :=
    .intercalate (by decide) (List.forall_mem_map.mpr fun _ _ => .decimal _)
  unfold BootDevice.text
  simp only [append_iff, hex, hpartitions, and_true]
  decide +kernel

theorem framebuffer (f : Framebuffer) : OneLine f.text := by
  have hsize : OneLine ("x".intercalate [Numeral.decimalText f.width.toNat,
      Numeral.decimalText f.height.toNat, Numeral.decimalText f.depth.toNat]) :=
    .intercalate (by decide) (by simp)
  unfold Framebuffer.text
  simp only [append_iff, address, hsize, pixelFormat, true_and, and_true]
  decide +kernel

theorem bootModule (m : BootModule) : OneLine m.text := by
  unfold BootModule.text
  simp only [append_iff, address, quote, true_and, and_true]
  decide +kernel

theorem region (r : MemoryRegion) : OneLine r.text := by
  have htype : OneLine r.type.text := by
    have hdescription : OneLine r.type.description := by
      unfold RegionType.description
      split <;> decide +kernel
    unfold RegionType.text
    simp only [append_iff, decimal, hdescription, and_true]
    decide +kernel
  unfold MemoryRegion.text
  simp only [append_iff, address, hex, htype, true_and, and_true]
  decide

theorem mapText (regions : List MemoryRegion) (available : UInt64) :
    OneLine (Boot.Subsystems.mapText regions available) := by
  unfold Boot.Subsystems.mapText
  simp only [append_iff, decimal, and_true]
  decide +kernel

theorem infoRecord (record : InfoRecord) : OneLine record.text := by
  have hflags : OneLine record.infoFlags.text := by
    delta InfoFlags.text
    split
    · decide +kernel
    · refine .intercalate (by decide) (List.forall_mem_map.mpr fun flag _ => ?_)
      cases flag <;> decide +kernel
  unfold InfoRecord.text
  simp only [append_iff, hflags, and_true]
  decide +kernel

theorem magicText (magic : UInt32) : OneLine (Handoff.magicText magic) := by
  rw [Handoff.magicText, Numeral.prefixedUpperHex_eq_wordHex]
  exact glyphs fun _ hb => Numeral.isPrintable_of_mem_wordHex hb

theorem handoffError (error : HandoffError) : OneLine error.message := by
  cases error with
  | invalidMagic actual =>
      unfold HandoffError.message
      simp only [append_iff, magicText, and_true]
      decide +kernel

end OneLine

/-- A record whose parts end no line. -/
structure LogRecord.OnOneLine (r : LogRecord) : Prop where
  target : OneLine r.target
  message : OneLine r.message

theorem Options.remark_onOneLine (token : CommandLine.Token) : (remark token).OnOneLine := by
  have htarget : OneLine logTarget := by decide +kernel
  have hquoted {opening : String} (h : OneLine opening) (bytes : Bytes) :
      OneLine (opening ++ Quoted.quote (Bytes.text bytes)) :=
    h.append (.quote _)
  unfold remark
  cases token with
  | flag name => exact ⟨htarget, hquoted (by decide +kernel) name⟩
  | option key value =>
      simp only
      by_cases hkey : key = logLevelName
      · rw [if_pos hkey]
        exact ⟨htarget, hquoted (by decide +kernel) value⟩
      · rw [if_neg hkey]
        exact ⟨htarget, hquoted (by decide +kernel) key⟩

/-- The bytes of records one after the other. -/
theorem LogRecord.ofText_lines (records : List LogRecord) :
    Bytes.ofText (lines records) = records.flatMap (Bytes.ofText ·.line) := by
  rw [lines, Bytes.ofText_join, List.flatMap_map]

/-- The line for a record ends where the record ends, and nowhere else. -/
theorem LogRecord.OnOneLine.line_eq {r : LogRecord} (h : r.OnOneLine) :
    ∃ body, OneLine body ∧ r.line = body ++ "\r\n" := by
  have hlevel : OneLine (String.ofList (r.level.name.toList.rightpad 5 ' ')) := by
    cases r.level <;> decide +kernel
  refine ⟨"[" ++ String.ofList (r.level.name.toList.rightpad 5 ' ') ++ "] " ++ r.target ++ ": "
    ++ r.message, ?_, rfl⟩
  simp only [OneLine.append_iff, h.target, h.message, hlevel, and_true]
  decide

namespace Boot

theorem oneLine_logTarget : OneLine logTarget := by
  decide +kernel

theorem Report.oneLine_logTarget : OneLine Report.logTarget := by
  decide +kernel

theorem Subsystems.oneLine_logTarget : OneLine Subsystems.logTarget := by
  decide +kernel

/-- An entry that makes no record, or one on one line. -/
def Entry.OnOneLine (entry : Entry) : Prop :=
  ∀ r, entry.record? = some r → r.OnOneLine

theorem Entry.onOneLine_record {r : LogRecord} (h : r.OnOneLine) : (Entry.record r).OnOneLine := by
  rintro _ ⟨rfl⟩
  exact h

theorem Entry.onOneLine_entered (state : BootState) : (Entry.entered state).OnOneLine := by
  have hname : OneLine ("boot state " ++ state.name) := by cases state <;> decide +kernel
  exact onOneLine_record ⟨Boot.oneLine_logTarget, hname⟩

end Boot

end EarlyBoot
