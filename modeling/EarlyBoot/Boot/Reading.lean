import EarlyBoot.Boot.Run
import EarlyBoot.Loader.InfoRecord.Parts
import EarlyBoot.Loader.LoadedMemory

/-!
Reading memory during a boot. Each read gives what is in memory at that moment, so the order of
reads and output matters where the loader's data lie inside the screen, and nowhere else.
-/

namespace EarlyBoot.Boot

variable {σ : Type}

def look (m : LoadedMemory) : Boot σ MappedMemory := do
  return m.showing (← get).console.grid

def contents (m : LoadedMemory) (block : MemoryBlock) : Boot σ Bytes := do
  return (← look m).memory.contents block

def record (report : LoaderReport) : Boot σ InfoRecord := do
  return .readAt (← look report.memory).memory report.record.toNat

/-- A part of the report as it is now. -/
def part? {α : Type} (report : LoaderReport)
    (part : InfoRecord → MappedMemory → Except Fault (Option α)) : Boot σ (Option α) := do
  let m ← look report.memory
  orStop (part (.readAt m.memory report.record.toNat) m)

/-- Write the bytes of a block, each as it is when its turn comes. -/
def writeBlock (m : LoadedMemory) (block : MemoryBlock) : Boot σ Unit :=
  (List.range block.length).forM fun i => do
    let byte := (← look m).memory.byteAt (block.start + i)
    perform (.put byte)

end EarlyBoot.Boot
