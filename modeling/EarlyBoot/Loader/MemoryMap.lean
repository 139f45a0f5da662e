import EarlyBoot.Address.Basic
import EarlyBoot.Loader.Memory

/-!
The memory map: records back to back in a block of memory. A record is a word with the size of
its body and the body, so the next record starts four bytes and the body further on. Walking the
map skips bodies too short to describe a region and ends at the first record that the rest of the
block does not hold; it reads nothing outside the block.
-/

namespace EarlyBoot

/-- What a region of memory is for, by its number. -/
structure RegionType where
  number : UInt32
deriving DecidableEq

namespace RegionType

def available : RegionType := ⟨1⟩

/-- The name of a type; unknown types are reserved. -/
def description (t : RegionType) : String :=
  match t.number.toNat with
  | 1 => "Available"
  | 3 => "ACPI reclaimable"
  | 4 => "ACPI NVS"
  | 5 => "Bad RAM"
  | _ => "Reserved"

def letter (t : RegionType) : Char :=
  match t.number.toNat with
  | 1 => 'A'
  | 3 => 'C'
  | 4 => 'N'
  | 5 => 'X'
  | _ => 'R'

def text (t : RegionType) : String :=
  "EntryType(" ++ Numeral.decimalText t.number.toNat ++ " ~ " ++ t.description ++ ")"

end RegionType

/-- A region of physical memory, with the size of the body that describes it. -/
structure MemoryRegion where
  bodySize : UInt32
  base : Address .physical
  length : UInt64
  type : RegionType
deriving DecidableEq

namespace MemoryRegion

/-- The least body that describes a region: base, length and type. -/
def bodyMinimum : Nat := 20

def isAvailable (r : MemoryRegion) : Bool :=
  r.type == .available

def readAt (m : Memory) (address : Nat) : MemoryRegion where
  bodySize := m.word32 address
  base := .ofLongWord (m.word64 (address + 4))
  length := m.word64 (address + 12)
  type := ⟨m.word32 (address + 20)⟩

end MemoryRegion

/-- A walk through a memory map: where the next record starts and where the block ends. -/
structure MapWalk where
  position : Nat
  stop : Nat
deriving DecidableEq

namespace MapWalk

/-- The bytes of the block that the walk has not passed. -/
def remaining (walk : MapWalk) : Nat :=
  walk.stop - walk.position

/-- A walk that has nothing before it. -/
def ended (walk : MapWalk) : MapWalk :=
  { walk with position := walk.stop }

/-- The walk behind a record with a body of this size. -/
def skip (walk : MapWalk) (bodySize : Nat) : MapWalk :=
  { walk with position := walk.position + (bodySize + 4) }

theorem remaining_skip_lt {walk : MapWalk} {bodySize : Nat}
    (h : ¬ walk.remaining < bodySize + 4) : (walk.skip bodySize).remaining < walk.remaining := by
  simp only [remaining, skip] at *
  omega

/-- The next region and the walk after it. Once there is none, there never is. -/
def next (m : Memory) (walk : MapWalk) : Option MemoryRegion × MapWalk :=
  if walk.remaining < 4 then (none, walk.ended)
  else
    let bodySize := (m.word32 walk.position).toNat
    if _h : walk.remaining < bodySize + 4 then (none, walk.ended)
    else if bodySize < MemoryRegion.bodyMinimum then next m (walk.skip bodySize)
    else (some (.readAt m walk.position), walk.skip bodySize)
termination_by walk.remaining
decreasing_by exact remaining_skip_lt _h

theorem remaining_lt_of_next {m : Memory} {walk after : MapWalk} {r : MemoryRegion}
    (h : walk.next m = (some r, after)) : after.remaining < walk.remaining := by
  fun_induction next m walk with
  | case1 walk hend => simp at h
  | case2 walk hroom bodySize hend => simp at h
  | case3 walk hroom bodySize hfits hshort ih => exact Nat.lt_trans (ih h) (remaining_skip_lt hfits)
  | case4 walk hroom bodySize hfits hbody =>
    simp only [Prod.mk.injEq] at h
    rw [← h.2]
    exact remaining_skip_lt hfits

def regions (m : Memory) (walk : MapWalk) : List MemoryRegion :=
  match _h : walk.next m with
  | (none, _) => []
  | (some r, after) => r :: after.regions m
termination_by walk.remaining
decreasing_by exact remaining_lt_of_next _h

/-- The number of regions that are left, and the walk after all of them. -/
def count (m : Memory) (walk : MapWalk) : Nat × MapWalk :=
  ((walk.regions m).length, walk.ended)

end MapWalk

structure MemoryMap where
  start : Address .virtual
  length : Nat
deriving DecidableEq

namespace MemoryMap

/-- A walk from the first record on. The end of the block must be an address. -/
def walk (map : MemoryMap) : Except Fault MapWalk := do
  let stop ← map.start.add map.length
  return ⟨map.start.toNat, stop.toNat⟩

def regions (map : MemoryMap) (m : Memory) : Except Fault (List MemoryRegion) := do
  return (← map.walk).regions m

/-- The bytes of all available regions together, modulo `2 ^ 64`. -/
def availableBytes (map : MemoryMap) (m : Memory) : Except Fault UInt64 := do
  let available := (← map.regions m).filter (·.isAvailable)
  return (available.map (·.length)).foldl (· + ·) 0

end MemoryMap

end EarlyBoot
