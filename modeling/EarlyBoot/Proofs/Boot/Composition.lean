import EarlyBoot.Proofs.Boot.Ending
import EarlyBoot.Proofs.Boot.Stages
import EarlyBoot.Proofs.Boot.Wording
import EarlyBoot.Proofs.Loader.Lookups

/-!
Properties that the parts of a boot have because their steps have them. A boot is the same program
for every kind of log, and it is made of a few kinds of steps in a row; a property that all these
steps have, and that actions in a row inherit, holds of every part of it. The step that changes the
filter stands apart: the whole boot has the property if this step has it too. All records of a boot
are on one line, so of an offer the property is asked only for such records, and only if making
the record changes nothing.
-/

namespace EarlyBoot.Boot

/-- An action that is the same for every kind of log. -/
abbrev Action (α : Type) : Type 1 :=
  (σ : Type) → [Sink σ] → Boot σ α

/-- An action that only reads. It always finds a value of this kind, which depends on what is on
the console and on nothing else. -/
def OnlyReads {α : Type} (kind : α → Prop) (x : Action α) : Prop :=
  ∀ console : Console, ∃ value, kind value ∧
    ∀ (σ : Type) [Sink σ] (log : σ) (performed : Array Console.Operation),
      (x σ).run.run ⟨console, log, performed⟩ = (.ok value, ⟨console, log, performed⟩)

namespace OnlyReads

variable {α β : Type} {kind : α → Prop} {kind' : β → Prop}

theorem pure {value : α} (h : kind value) : OnlyReads kind fun _ => Pure.pure value :=
  fun _ => ⟨value, h, fun _ _ _ _ => rfl⟩

theorem bind {x : Action α} {f : α → Action β} (hx : OnlyReads kind x)
    (hf : ∀ value, kind value → OnlyReads kind' (f value)) :
    OnlyReads kind' fun σ => x σ >>= fun value => f value σ := by
  intro console
  obtain ⟨first, hfirst, hx⟩ := hx console
  obtain ⟨second, hsecond, hf⟩ := hf first hfirst console
  refine ⟨second, hsecond, fun σ _ log performed => ?_⟩
  rw [run_bind_of_ok (hx σ log performed)]
  exact hf σ log performed

theorem orStop {x : Except Fault α} {value : α} (hx : x = .ok value) (h : kind value) :
    OnlyReads kind fun _ => Boot.orStop x := by
  subst hx
  exact pure h

theorem look (m : LoadedMemory) : OnlyReads (fun _ => True) fun _ => Boot.look m :=
  fun console => ⟨m.showing console.grid, trivial, fun _ _ _ _ => rfl⟩

theorem record (report : LoaderReport) : OnlyReads (fun _ => True) fun _ => Boot.record report :=
  (look report.memory).bind fun _ _ => pure trivial

theorem contents (m : LoadedMemory) (block : MemoryBlock) :
    OnlyReads (fun _ => True) fun _ => Boot.contents m block :=
  (look m).bind fun _ _ => pure trivial

end OnlyReads

/-- The sums of a map that has a walk are always to be had. -/
theorem readsOnly_mapText {map : MemoryMap} {walk : MapWalk} (hwalk : map.walk = .ok walk)
    (m : LoadedMemory) :
    OnlyReads OneLine fun _ => do
      let now := (← look m).memory
      return Subsystems.mapText (← orStop (map.regions now))
        (← orStop (map.availableBytes now)) := by
  have hroom := MemoryMap.lt_of_walk hwalk
  refine (OnlyReads.look m).bind fun now _ => ?_
  obtain ⟨regions, hregions⟩ := MemoryMap.exists_regions hroom now.memory
  obtain ⟨available, havailable⟩ := MemoryMap.exists_availableBytes hroom now.memory
  have hfirst : OnlyReads (fun _ => True) fun _ => orStop (map.regions now.memory) :=
    .orStop hregions trivial
  have hsecond : OnlyReads (fun _ => True) fun _ => orStop (map.availableBytes now.memory) :=
    .orStop havailable trivial
  exact hfirst.bind fun _ _ => hsecond.bind fun _ _ => .pure (.mapText _ _)

/-- A property of all steps that do not change the filter, and of actions in a row if each of them
has it. -/
structure Compositional (P : (α : Type) → Action α → Prop) : Prop where
  pure : ∀ {α : Type} (value : α), P α fun _ => Pure.pure value
  bind : ∀ {α β : Type} {x : Action α} {f : α → Action β},
    P α x → (∀ value, P β (f value)) → P β fun σ => x σ >>= fun value => f value σ
  orStop : ∀ {α : Type} (x : Except Fault α), P α fun _ => orStop x
  perform : ∀ operation : Console.Operation, P Unit fun _ => perform operation
  offer : ∀ {level : LogLevel} {entry : Action Entry},
    OnlyReads (fun found => found.level? = some level ∧ found.OnOneLine) entry →
      P Unit fun σ => offer level (entry σ)
  look : ∀ m : LoadedMemory, P MappedMemory fun _ => look m

namespace Compositional

variable {P : (α : Type) → Action α → Prop}

theorem of_eq {α : Type} {x y : Action α} (hxy : ∀ (σ : Type) [Sink σ], x σ = y σ) (hy : P α y) :
    P α x := by
  have hsame : x = y := funext fun σ => funext fun _ => hxy σ
  rwa [hsame]

variable (h : Compositional P)

include h

theorem first {α : Type} {x : Action Unit} {rest : Action α} (hx : P Unit x)
    (hrest : P α rest) : P α fun σ => x σ >>= fun _ => rest σ :=
  h.bind hx fun _ => hrest

theorem forM {α : Type} {items : List α} {action : α → Action Unit}
    (haction : ∀ item ∈ items, P Unit (action item)) :
    P Unit fun σ => items.forM fun item => action item σ := by
  induction items with
  | nil => exact h.pure ()
  | cons item rest ih =>
      obtain ⟨hitem, hrest⟩ := List.forall_mem_cons.mp haction
      exact h.first hitem (ih hrest)

/-- Something that is done only if there is something to do it with. -/
theorem optional {α : Type} {x? : Option α} {action : α → Action Unit}
    (haction : ∀ value, P Unit (action value)) :
    P Unit fun σ => x?.forM fun value => action value σ := by
  cases x? with
  | none => exact h.pure ()
  | some value => exact haction value

theorem submit {r : LogRecord} (hr : r.OnOneLine) : P Unit fun _ => Boot.submit r :=
  h.offer (OnlyReads.pure ⟨rfl, Entry.onOneLine_record hr⟩)

theorem log (level : LogLevel) {target message : String} (htarget : OneLine target)
    (hmessage : OneLine message) : P Unit fun _ => Boot.log level target message :=
  h.submit ⟨htarget, hmessage⟩

theorem logMade (level : LogLevel) {target : String} (htarget : OneLine target)
    {message : Action String} (hmessage : OnlyReads OneLine message) :
    P Unit fun σ => Boot.logMade level target (message σ) :=
  h.offer (hmessage.bind fun _ hline =>
    OnlyReads.pure ⟨rfl, Entry.onOneLine_record ⟨htarget, hline⟩⟩)

theorem enter (state : BootState) : P Unit fun _ => Boot.enter state :=
  h.offer (OnlyReads.pure ⟨rfl, Entry.onOneLine_entered state⟩)

theorem print (s : String) : P Unit fun _ => Boot.print s :=
  h.perform _

theorem useColor (color : Color) : P Unit fun _ => Boot.useColor color :=
  h.perform _

theorem record (report : LoaderReport) : P InfoRecord fun _ => Boot.record report :=
  h.bind (h.look _) fun _ => h.pure _

theorem part? {α : Type} (report : LoaderReport)
    (part : InfoRecord → MappedMemory → Except Fault (Option α)) :
    P (Option α) fun _ => Boot.part? report part :=
  h.bind (h.look _) fun _ => h.orStop _

theorem writeBlock (m : LoadedMemory) (block : MemoryBlock) :
    P Unit fun _ => Boot.writeBlock m block :=
  h.forM fun _ _ => h.bind (h.look m) fun _ => h.perform _

theorem loader (report : LoaderReport) : P Unit fun _ => Report.loader report := by
  refine h.bind (h.part? report _) fun name => ?_
  cases name with
  | none =>
      apply h.first (h.print _)
      refine h.bind (h.record report) fun _ => ?_
      exact h.first (h.perform _) (h.print _)
  | some name =>
      apply h.first (h.print _)
      apply h.first (h.writeBlock _ name)
      apply h.first (h.print _)
      refine h.bind (h.record report) fun _ => ?_
      exact h.first (h.perform _) (h.print _)

theorem commandLine (m : LoadedMemory) (line : MemoryBlock) (options : Options) :
    P Unit fun _ => Report.commandLine m line options := by
  have hmessage : OnlyReads OneLine fun _ => do
      return "command line: " ++ Quoted.quote (Bytes.text (← Boot.contents m line)) :=
    (OnlyReads.contents m line).bind fun _ _ =>
      OnlyReads.pure (.append (by decide +kernel) (.quote _))
  apply h.first (h.logMade _ Report.oneLine_logTarget hmessage)
  cases options.verbose with
  | false => exact h.pure ()
  | true => exact h.first (h.print _) (h.first (h.writeBlock m line) (h.print _))

theorem modules (m : MappedMemory) (count : Nat) (list : ModuleList) :
    P Unit fun _ => Report.modules m count list := by
  induction count generalizing list with
  | zero => exact h.pure ()
  | succ count ih =>
      refine h.bind (h.orStop _) fun next => ?_
      cases next with
      | none => exact h.pure ()
      | some entry =>
          have hmessage : OneLine ("module " ++ entry.1.text) :=
            .append (by decide +kernel) (.bootModule entry.1)
          exact h.first (h.log _ Report.oneLine_logTarget hmessage) (ih entry.2)

theorem info (report : LoaderReport) (options : Options) :
    P Unit fun _ => Report.info report options := by
  have hline : P Unit fun _ => Report.lineStage report options :=
    h.bind (h.part? report _) fun _ => h.optional fun line => h.commandLine _ line options
  have hdevice : P Unit fun _ => Report.deviceStage report :=
    h.bind (h.record report) fun _ => h.optional fun device =>
      h.log _ Report.oneLine_logTarget (.append (by decide +kernel) (.bootDevice device))
  have hmodules : P Unit fun _ => Report.modulesStage report :=
    h.bind (h.part? report _) fun _ => h.optional fun list =>
      h.first (h.log _ Report.oneLine_logTarget (.append (.decimal _) (by decide +kernel)))
        (h.bind (h.look _) fun now => h.modules now _ list)
  have hframebuffer : P Unit fun _ => Report.framebufferStage report :=
    h.bind (h.record report) fun _ => h.optional fun framebuffer =>
      h.log _ Report.oneLine_logTarget (.append (by decide +kernel) (.framebuffer framebuffer))
  refine of_eq (fun _ _ => Report.info_eq report options) ?_
  apply h.first (h.loader report)
  apply h.first hline
  apply h.first hdevice
  exact h.first hmodules hframebuffer

theorem tableRows (m : LoadedMemory) (walk : MapWalk) :
    P Unit fun _ => Report.tableRows m walk := by
  induction hremaining : walk.remaining using Nat.strongRecOn generalizing walk with
  | ind remaining ih =>
      refine of_eq (fun _ _ => Report.tableRows_eq m walk) ?_
      refine h.bind (h.look m) fun now => ?_
      cases hnext : walk.next now.memory with
      | mk region after =>
          cases region with
          | none => exact h.pure ()
          | some region =>
              have hless := hremaining ▸ MapWalk.remaining_lt_of_next hnext
              exact h.first (h.print _) (ih _ hless after rfl)

theorem table (map : MemoryMap) (m : LoadedMemory) : P Unit fun _ => Report.memoryMap map m := by
  apply h.first (h.print _)
  apply h.first (h.print _)
  refine h.bind (h.orStop _) fun walk => ?_
  apply h.first (h.tableRows m walk)
  refine h.bind (h.look m) fun now => ?_
  exact h.bind (h.orStop _) fun _ => h.print _

theorem regionsStage (map : MemoryMap) (m : LoadedMemory) (options : Options) :
    P Unit fun _ => Subsystems.regionsStage map m options := by
  refine h.bind (h.look m) fun now => h.bind (h.orStop _) fun regions => ?_
  apply h.first (h.forM fun region _ => h.log _ Subsystems.oneLine_logTarget (.region region))
  cases options.verbose with
  | false => exact h.pure ()
  | true => exact h.table map m

theorem memoryMap (map : MemoryMap) (m : LoadedMemory) (options : Options) :
    P Unit fun _ => Subsystems.memoryMap map m options := by
  cases hwalk : map.walk with
  | error fault =>
      exact of_eq (fun _ _ => Subsystems.memoryMap_of_error hwalk m options) (h.orStop _)
  | ok walk =>
      have hsums : P Unit fun _ => Subsystems.sumsStage map m :=
        h.logMade _ Subsystems.oneLine_logTarget (readsOnly_mapText hwalk m)
      exact h.first hsums (h.regionsStage map m options)

theorem memorySizes (report : LoaderReport) (sizes : MemorySizes) :
    P Unit fun _ => Subsystems.memorySizes report sizes := by
  apply h.first (h.print _)
  apply h.first (h.perform _)
  apply h.first (h.print _)
  apply h.first (h.perform _)
  apply h.first (h.print _)
  refine h.bind (h.record report) fun now => ?_
  apply h.first (h.print _)
  apply h.first (h.perform _)
  apply h.first (h.print _)
  apply h.first (h.perform _)
  have hmessage : OneLine ("conventional memory: "
      ++ Numeral.decimalText now.totalMemory.toNat ++ " KiB") :=
    .append (.append (by decide +kernel) (.decimal _)) (by decide)
  exact h.first (h.print _) (h.log _ Subsystems.oneLine_logTarget hmessage)

theorem sizesStage (report : LoaderReport) : P Unit fun _ => Subsystems.sizesStage report := by
  refine h.bind (h.record report) fun now => ?_
  cases now.memorySizes? with
  | none => exact h.log _ Subsystems.oneLine_logTarget (by decide +kernel)
  | some sizes => exact h.memorySizes report sizes

theorem memory (report : LoaderReport) (options : Options) :
    P Unit fun _ => Subsystems.memory report options := by
  have hmap : P Unit fun _ => Subsystems.mapStage report options :=
    h.bind (h.part? report _) fun _ => h.optional fun map => h.memoryMap map _ options
  refine of_eq (fun _ _ => Subsystems.memory_eq report options) ?_
  apply h.first (h.print _)
  apply h.first (h.sizesStage report)
  exact h.first hmap (h.print _)

theorem announcement (opening closing : String) {message : String} (hmessage : OneLine message) :
    P Unit (fun _ => do
      Boot.print opening
      Boot.log .debug Subsystems.logTarget message
      Boot.print closing) :=
  h.first (h.print _) (h.first (h.log _ Subsystems.oneLine_logTarget hmessage) (h.print _))

theorem setUp (report : LoaderReport) (options : Options) :
    P Unit fun _ => Boot.setUp report options := by
  apply h.first (h.print _)
  apply h.first (h.print _)
  apply h.first (h.memory report options)
  apply h.first (h.announcement _ _ (by decide +kernel))
  apply h.first (h.announcement _ _ (by decide +kernel))
  exact h.announcement _ _ (by decide +kernel)

theorem greeting : P Unit fun _ => Boot.greeting := by
  apply h.first (h.enter _)
  apply h.first (h.useColor _)
  apply h.first (h.print _)
  apply h.first (h.print _)
  apply h.first (h.enter _)
  exact h.first (h.useColor _) (h.print _)

theorem closing (infoAddress : Address .loader) (report : LoaderReport) (options : Options) :
    P BootState fun _ => Boot.closing infoAddress report options := by
  have hmessage : OnlyReads OneLine fun _ => do
      return "boot information at " ++ infoAddress.text ++ ": " ++ (← Boot.record report).text :=
    (OnlyReads.record report).bind fun now _ => OnlyReads.pure
      (.append (.append (.append (by decide +kernel) (.address infoAddress)) (by decide))
        (.infoRecord now))
  apply h.first (h.logMade _ Boot.oneLine_logTarget hmessage)
  apply h.first (h.info report options)
  apply h.first (h.enter _)
  apply h.first (h.setUp report options)
  apply h.first (h.useColor _)
  apply h.first (h.print _)
  apply h.first (h.print _)
  apply h.first (h.useColor _)
  apply h.first (h.print _)
  apply h.first (h.perform _)
  exact h.first (h.enter _) (h.pure _)

theorem readOptions (report : LoaderReport) : P Options fun _ => Boot.readOptions report := by
  refine h.bind (h.part? report _) fun line => ?_
  cases line with
  | none => exact h.pure _
  | some line =>
      refine h.first (h.forM fun r hr => h.submit ?_) (h.pure _)
      obtain ⟨token, _, rfl⟩ := List.mem_map.mp hr
      exact Options.remark_onOneLine token

theorem opening (infoAddress : Address .loader) (m : LoadedMemory) :
    P (LoaderReport × Options) fun _ => Boot.opening infoAddress m := by
  apply h.first h.greeting
  refine h.bind (h.orStop _) fun report => ?_
  exact h.bind (h.readOptions report) fun _ => h.pure _

theorem reject (error : HandoffError) : P BootState fun _ => Boot.reject error := by
  have hrejection : P Unit fun _ => Boot.rejection error := by
    cases error with
    | invalidMagic actual =>
        apply h.first (h.useColor _)
        apply h.first (h.print _)
        apply h.first (h.print _)
        apply h.first (h.perform _)
        apply h.first (h.print _)
        exact h.first (h.perform _) (h.print _)
  apply h.first (h.log _ Boot.oneLine_logTarget (.handoffError error))
  apply h.first hrejection
  apply h.first (h.print _)
  exact h.first (h.enter _) (h.pure _)

/-- A whole boot has the property if the step that changes the filter has it too. -/
theorem boot (hfilter : ∀ filter : LogFilter, P Unit fun _ => Boot.note (.filter filter))
    (handoff : Handoff) (m : LoadedMemory) : P BootState fun _ => Boot.boot handoff m := by
  by_cases hmagic : handoff.magic = Handoff.loaderMagic
  · refine of_eq (fun _ _ => boot_eq hmagic m) ?_
    refine h.bind (h.opening handoff.infoAddress m) fun (report, options) => ?_
    exact h.first (hfilter _) (h.closing handoff.infoAddress report options)
  · have hverify : handoff.verify = .error (.invalidMagic handoff.magic) := if_neg hmagic
    unfold Boot.boot
    simp only [hverify]
    apply h.first (h.enter _)
    apply h.first (h.useColor _)
    apply h.first (h.print _)
    apply h.first (h.print _)
    exact h.first (h.enter _) (h.reject _)

end Compositional

end EarlyBoot.Boot
