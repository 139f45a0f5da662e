import EarlyBoot.Machine
import EarlyBoot.Proofs.Boot.Course
import EarlyBoot.Proofs.Boot.Outcome
import EarlyBoot.Proofs.SerialLine

/-!
How a run on a machine ends. With paging off all addresses of the loader are mapped, so nothing
that is in memory stops the boot, and the processor is always parked. Until then the serial line is
all that the program touches.
-/

namespace EarlyBoot.Machine

open Boot (Journal Run SerialLog logTarget)

/-- The first record of a run. -/
def greeting (handoff : Handoff) : LogRecord :=
  ⟨.info, logTarget, "nekkoOS starting, magic " ++ Handoff.magicText handoff.magic ++ ", info at "
    ++ handoff.infoAddress.text⟩

/-- The last record of a run whose boot ended in a state. -/
def farewell : BootState → LogRecord
  | .idle => ⟨.info, logTarget, "idle"⟩
  | other => ⟨.error, logTarget, "system halted in state " ++ other.name⟩

/-- The events of parking the processor. -/
def parking : BootState → List Event
  | .idle => [.halt]
  | _ => [.disableInterrupts, .halt]

theorem run_park (state : BootState) (bus : Bus) :
    (park state).run.run bus =
      (.ok (), { bus with events := bus.events ++ (parking state).toArray }) := by
  cases state <;> rfl

theorem framed_eq {σ : Type} [Boot.Sink σ] (handoff : Handoff) (m : LoadedMemory) :
    (framed handoff m : Boot σ BootState) = (do
      Boot.submit (greeting handoff)
      let state ← Boot.boot handoff m
      Boot.submit (farewell state)
      return state) := by
  refine bind_congr fun _ => bind_congr fun state => ?_
  cases state <;> rfl

theorem greeting_onOneLine (handoff : Handoff) : (greeting handoff).OnOneLine :=
  ⟨Boot.oneLine_logTarget, .append (.append (.append (by decide +kernel) (.magicText _))
    (by decide +kernel)) (.address _)⟩

theorem farewell_onOneLine (state : BootState) : (farewell state).OnOneLine := by
  cases state <;> exact ⟨Boot.oneLine_logTarget, by decide +kernel⟩

theorem impartial_framed (handoff : Handoff) (m : LoadedMemory) :
    Boot.Impartial fun _ => framed handoff m := by
  have h := Boot.compositional_impartial
  refine Boot.Compositional.of_eq (P := fun _ x => Boot.Impartial x)
    (fun _ _ => framed_eq handoff m) ?_
  apply h.first (h.submit (greeting_onOneLine handoff))
  refine (Boot.impartial_boot handoff m).bind fun state => ?_
  exact h.first (h.submit (farewell_onOneLine state)) (h.pure state)

/-- The boot comes to its end, and the record for it is the last one in the journal. -/
theorem exists_run_framed (handoff : Handoff) (memory : Memory) (before : Run Journal)
    (hplaced : before.console.WellPlaced) :
    ∃ (run : Run Journal) (earlier : List Boot.Entry),
      (framed handoff (loaded memory)).run.run before = (.ok (Boot.lastState handoff), run) ∧
      run.log = (earlier ++ [Boot.Entry.record (farewell (Boot.lastState handoff))]).toArray := by
  let greeted : Run Journal :=
    { before with log := before.log.push (.record (greeting handoff)) }
  have hgreeting : (Boot.submit (greeting handoff)).run.run before = (.ok (), greeted) := rfl
  obtain ⟨booted, hboot⟩ := Boot.exists_run_of_covers handoff (loaded memory) greeted
    DirectMapping.identity_leavesRoom DirectMapping.identity_coversLoader hplaced
  let last : LogRecord := farewell (Boot.lastState handoff)
  have hlast : (Boot.submit last).run.run booted =
      (.ok (), { booted with log := booted.log.push (.record last) }) := rfl
  refine ⟨{ booted with log := booted.log.push (.record last) }, booted.log.toList, ?_, ?_⟩
  · rw [framed_eq]
    refine (run_bind_of_ok hgreeting _).trans ((run_bind_of_ok hboot _).trans ?_)
    exact run_bind_of_ok hlast _
  · rw [← Array.toList_push, Array.toArray_toList]

theorem emitted_of_last (filter : LogFilter) (earlier : List Boot.Entry) (last : LogRecord) :
    Boot.emitted filter (earlier ++ [.record last]) = Boot.emitted filter earlier ++
      if last.level.rank ≤ (Boot.filterAfter filter earlier).rank then [last] else [] := by
  simp only [Boot.emitted_append, ← LogFilter.admits_iff]
  cases hadmits : (Boot.filterAfter filter earlier).admits last.level <;>
    simp [Boot.emitted, Boot.Entry.record?, hadmits, Option.filter]

/-- The writes that program the first serial line, with their ports. -/
theorem run_start (filter : LogFilter) (bus : Bus) :
    (Logger.start {} filter).run.run bus =
      (.ok (.ok ⟨true, filter⟩), { bus with events := bus.events ++
        #[ .write 0x3F9 0x00, .write 0x3FB 0x80, .write 0x3F8 0x03, .write 0x3F9 0x00,
           .write 0x3FB 0x03, .write 0x3FA 0xC7, .write 0x3FC 0x03 ] }) :=
  run_bind_of_ok (SerialLine.run_program (by decide) bus) _

/-- A run whose boot ended in a state sends the log of the boot and parks the processor. -/
theorem run_of_framed {handoff : Handoff} {memory : Memory} {after : Run SerialLog}
    {state : BootState}
    (hframed : (framed handoff (loaded memory)).run.run (start memory (.upTo .info)) =
      (.ok state, after))
    {bus started ended : Bus}
    (hstart : (Logger.start {} (.upTo .info)).run.run bus =
      (.ok (.ok ⟨true, .upTo .info⟩), started))
    (hsend : (SerialLine.com1.sendText (LogRecord.lines after.log.sent.toList)).run.run started =
      (.ok (), ended)) :
    (run handoff memory).run.run bus =
      (.ok after, { ended with events := ended.events ++ (parking state).toArray }) := by
  unfold run
  rw [run_bind_of_ok hstart]
  simp only [hframed]
  rw [run_bind_of_ok hsend]
  exact run_bind_of_ok (run_park state ended) _

/-- A run ends with a parked processor, whatever the hand-off says and whatever is in memory.
Until then it programs the first serial line and sends its log over it, and it touches nothing
else: after a boot that went well it waits for interrupts, and otherwise it stops for good. The
last entry in the journal is the record that names the way it ends. What is sent are the lines of
the records before it that were let through, and then its own line if the filter in force admits
its level. -/
theorem run_parks (handoff : Handoff) (memory : Memory) (bus : Bus) :
    let programming : List Event :=
      [ .write 0x3F9 0x00, .write 0x3FB 0x80, .write 0x3F8 0x03, .write 0x3F9 0x00,
        .write 0x3FB 0x03, .write 0x3FA 0xC7, .write 0x3FC 0x03 ]
    let halting : List Event :=
      if handoff.magic = 0x2BADB002 then [.halt] else [.disableInterrupts, .halt]
    let state : BootState := if handoff.magic = 0x2BADB002 then .idle else .halted
    let last : LogRecord :=
      if handoff.magic = 0x2BADB002 then ⟨.info, "nekko_kernel::kernel", "idle"⟩
      else ⟨.error, "nekko_kernel::kernel", "system halted in state Halted"⟩
    let lastLine : String :=
      if handoff.magic = 0x2BADB002 then "[INFO ] nekko_kernel::kernel: idle\r\n"
      else "[ERROR] nekko_kernel::kernel: system halted in state Halted\r\n"
    let fresh : Console := .new (.readAt memory Grid.physicalBase.toNat)
    ∃ (after : Run SerialLog) (earlier : List Boot.Entry) (sendings : List SerialLine.Sending)
      (rest : List UInt8) (extra : Nat),
      let sent := Boot.emitted (.upTo .info) earlier
      let admitted := last.level.rank ≤ after.log.filter.rank
      (run handoff memory).run.run bus = (.ok after, ⟨rest, bus.events ++
        (programming ++ sendings.flatMap (·.events 0x3FD 0x3F8) ++ halting).toArray⟩) ∧
      sendings.flatMap (·.answers) ++ rest = bus.pending ++ List.replicate extra Bus.idle ∧
      (framed handoff (loaded memory)).run.run ⟨fresh, (#[] : Journal), #[]⟩ =
        (.ok state,
          ⟨after.console, (earlier ++ [Boot.Entry.record last]).toArray, after.performed⟩) ∧
      after.log.filter = Boot.filterAfter (.upTo .info) earlier ∧
      after.log.sent.toList = sent ++ (if admitted then [last] else []) ∧
      sendings.map (·.byte) = sent.flatMap (Bytes.ofText ·.line) ++
        (if admitted then Bytes.ofText lastLine else []) := by
  intro programming halting state last lastLine fresh
  obtain ⟨framing, earlier, hframing, hjournal⟩ := exists_run_framed handoff memory
    ⟨fresh, (#[] : Journal), #[]⟩ (Console.clear_wellPlaced _)
  have hhalting : parking (Boot.lastState handoff) = halting :=
    apply_ite parking (handoff.magic = Handoff.loaderMagic) .idle .halted
  have hlast : farewell (Boot.lastState handoff) = last :=
    apply_ite farewell (handoff.magic = Handoff.loaderMagic) .idle .halted
  have hlastLine : last.line = lastLine :=
    (apply_ite LogRecord.line (handoff.magic = Handoff.loaderMagic) _ _).trans (by rfl)
  rw [hlast] at hjournal
  have hframed := (impartial_framed handoff (loaded memory)).run_of_journal hframing (.upTo .info)
  rw [hjournal, List.toList_toArray, emitted_of_last, Boot.filterAfter_append] at hframed
  let after : Run SerialLog := ⟨framing.console,
    ⟨Boot.filterAfter (.upTo .info) earlier, (Boot.emitted (.upTo .info) earlier ++
      if last.level.rank ≤ (Boot.filterAfter (.upTo .info) earlier).rank then [last]
      else []).toArray⟩, framing.performed⟩
  let started : Bus := { bus with events := bus.events ++ programming.toArray }
  have hstart : (Logger.start {} (.upTo .info)).run.run bus =
      (.ok (.ok ⟨true, .upTo .info⟩), started) := run_start _ bus
  have hports : SerialLine.com1.base.toNat + 5 < UInt16.size := by decide
  obtain ⟨sendings, rest, extra, hbytes, hanswers, hsend⟩ := SerialLine.run_send hports
    (Bytes.ofText (LogRecord.lines after.log.sent.toList)) started
  have hrun : (run handoff memory).run.run bus = (.ok after, _) :=
    run_of_framed hframed hstart hsend
  refine ⟨after, earlier, sendings, rest, extra, ?_, hanswers, ?_, rfl, rfl, ?_⟩
  · rw [hrun, hhalting]
    simp [started, SerialLine.com1]
  · rw [hframing, ← hjournal]
    rfl
  · rw [hbytes, LogRecord.ofText_lines, List.toList_toArray, List.flatMap_append,
      apply_ite (List.flatMap _), List.flatMap_singleton, List.flatMap_nil, hlastLine]

end EarlyBoot.Machine
