import EarlyBoot.Fault.Message
import EarlyBoot.Region
import EarlyBoot.Proofs.Running
import EarlyBoot.Proofs.Word

/-!
Moving a block inside its buffer, byte by byte. The order of the bytes is such that no byte is
written over before it was read, so each byte that is read is still the one of the start, however
the block and its target overlap. Every index on the way is checked, and what was written before a
fault would stay; but a fault only comes before the first byte is written.
-/

namespace EarlyBoot.Region

/-- Check that `n` bytes from an index on end inside the buffer. -/
def checkEnd (buffer : Bytes) (index n : Nat) : Except Fault Unit := do
  if buffer.length < (← Word.add Word.bits index n) then throw .regionOutOfBounds

/-- Steps on the bytes of one buffer. What was written before a fault stays written. -/
abbrev Steps := ExceptT Fault (StateM Bytes)

namespace Steps

def load (index : Nat) : Steps UInt8 := do
  match (← get)[index]? with
  | some value => return value
  | none => throw .outOfBounds

def store (index : Nat) (value : UInt8) : Steps Unit := do
  set (← ofExcept (Region.store (← get) index value))

/-- Read a byte of the source and write it to its place in the target. -/
def moveByte (target source i : Nat) : Steps Unit := do
  let value ← load (← ofExcept (Word.add Word.bits source i))
  store (← ofExcept (Word.add Word.bits target i)) value

/-- Move `n` bytes, one after the other, if both ends are inside the buffer. -/
def move (target source n : Nat) : Steps Unit := do
  let buffer ← get
  ofExcept (checkEnd buffer source n)
  ofExcept (checkEnd buffer target n)
  (moveOrder target source n).forM (moveByte target source)

end Steps

/-- No byte is written over that is still to be read. -/
theorem pairwise_moveOrder (target source n : Nat) :
    (moveOrder target source n).Pairwise fun i j => target + i ≠ source + j := by
  unfold moveOrder
  split
  · exact List.pairwise_lt_range.imp fun hlt => by omega
  · rw [List.pairwise_reverse]
    exact List.pairwise_lt_range.imp fun hlt => by omega

theorem mem_moveOrder {target source n i : Nat} : i ∈ moveOrder target source n ↔ i < n := by
  unfold moveOrder
  split
  · exact List.mem_range
  · exact List.mem_reverse.trans List.mem_range

@[simp] theorem length_copyByte (buffer : Bytes) (target source : Nat) :
    (copyByte buffer target source).length = buffer.length :=
  List.length_set

theorem getElem?_copyByte_of_ne {target p : Nat} (h : target ≠ p) (buffer : Bytes) (source : Nat) :
    (copyByte buffer target source)[p]? = buffer[p]? :=
  List.getElem?_set_ne h

theorem getElem?_copyByte_self {buffer : Bytes} {target source : Nat}
    (htarget : target < buffer.length) (hsource : source < buffer.length) :
    (copyByte buffer target source)[target]? = buffer[source]? := by
  simp [copyByte, htarget, hsource]

/-- The buffer after some bytes of a block were copied, one after the other. -/
def copyBytes (target source : Nat) (order : List Nat) (buffer : Bytes) : Bytes :=
  order.foldl (fun bytes i => copyByte bytes (target + i) (source + i)) buffer

section Order

variable {target source : Nat} {order : List Nat}

theorem getElem?_copyBytes_of_ne {p : Nat} (h : ∀ i ∈ order, target + i ≠ p) (buffer : Bytes) :
    (copyBytes target source order buffer)[p]? = buffer[p]? := by
  induction order generalizing buffer with
  | nil => rfl
  | cons i rest ih =>
      obtain ⟨hfirst, hrest⟩ := List.forall_mem_cons.mp h
      exact (ih hrest _).trans (getElem?_copyByte_of_ne hfirst buffer _)

/-- In an order that writes over nothing that is still to be read, the bytes that are copied are
those of the first buffer. -/
theorem getElem?_copyBytes_of_mem {buffer : Bytes} {k : Nat} (hk : k ∈ order)
    (hfresh : order.Pairwise fun i j => target + i ≠ source + j)
    (hroom : ∀ i ∈ order, target + i < buffer.length ∧ source + i < buffer.length) :
    (copyBytes target source order buffer)[target + k]? = buffer[source + k]? := by
  induction order generalizing buffer with
  | nil => cases hk
  | cons i rest ih =>
      obtain ⟨hlater, hrest⟩ := List.pairwise_cons.mp hfresh
      obtain ⟨⟨htarget, hsource⟩, hbehind⟩ := List.forall_mem_cons.mp hroom
      by_cases hmem : k ∈ rest
      · have hmoved : (copyBytes target source (i :: rest) buffer)[target + k]? =
            (copyByte buffer (target + i) (source + i))[source + k]? :=
          ih hmem hrest (by simpa only [length_copyByte] using hbehind)
        exact hmoved.trans (getElem?_copyByte_of_ne (hlater k hmem) buffer _)
      · obtain rfl : k = i := (List.mem_cons.mp hk).resolve_right hmem
        have hkept : ∀ j ∈ rest, target + j ≠ target + k := by
          intro j hj heq
          exact hmem (Nat.add_left_cancel heq ▸ hj)
        exact (getElem?_copyBytes_of_ne hkept _).trans (getElem?_copyByte_self htarget hsource)

end Order

section Room

variable {buffer : Bytes} {target source n : Nat}

/-- The buffer with `n` bytes of it taken out at the source and put down at the target. -/
def moved (buffer : Bytes) (target source n : Nat) : Bytes :=
  let temporary := (buffer.drop source).take n
  buffer.take target ++ temporary ++ buffer.drop (target + n)

variable (hsource : source + n ≤ buffer.length) (htarget : target + n ≤ buffer.length)

include hsource htarget

/-- The target has the bytes that were in the source, and no other byte changes. -/
theorem getElem?_moved (p : Nat) :
    (moved buffer target source n)[p]? =
      if target ≤ p ∧ p < target + n then buffer[source + (p - target)]? else buffer[p]? := by
  have hbefore : (buffer.take target).length = target := List.length_take_of_le (by omega)
  have htemporary : ((buffer.drop source).take n).length = n :=
    List.length_take_of_le (by rw [List.length_drop]; omega)
  rw [moved, List.append_assoc]
  rcases Nat.lt_or_ge p target with hlt | hfrom
  · rw [if_neg (fun hinside => by omega), List.getElem?_append_left (by omega),
      List.getElem?_take_of_lt hlt]
  rw [List.getElem?_append_right (by omega), hbefore]
  rcases Nat.lt_or_ge p (target + n) with hinside | hbehind
  · rw [if_pos ⟨hfrom, hinside⟩, List.getElem?_append_left (by omega),
      List.getElem?_take_of_lt (by omega), List.getElem?_drop]
  · rw [if_neg (fun hinside => by omega), List.getElem?_append_right (by omega), htemporary,
      List.getElem?_drop]
    congr 1
    omega

/-- Moving the bytes one after the other is moving all of them at once. -/
theorem copyBytes_moveOrder :
    copyBytes target source (moveOrder target source n) buffer =
      moved buffer target source n := by
  have hroom : ∀ i ∈ moveOrder target source n,
      target + i < buffer.length ∧ source + i < buffer.length := by
    intro i hi
    have hlt := mem_moveOrder.mp hi
    exact ⟨by omega, by omega⟩
  apply List.ext_getElem?
  intro p
  rw [getElem?_moved hsource htarget]
  by_cases hp : target ≤ p ∧ p < target + n
  · obtain ⟨k, rfl⟩ := Nat.exists_eq_add_of_le hp.1
    have hk : k ∈ moveOrder target source n := mem_moveOrder.mpr (by omega)
    rw [if_pos hp, Nat.add_sub_cancel_left]
    exact getElem?_copyBytes_of_mem hk (pairwise_moveOrder target source n) hroom
  · have hkept : ∀ i ∈ moveOrder target source n, target + i ≠ p := by
      intro i hi
      have hlt := mem_moveOrder.mp hi
      omega
    rw [if_neg hp]
    exact getElem?_copyBytes_of_ne hkept buffer

end Room

namespace Steps

variable {buffer : Bytes} {target source n : Nat}

theorem run_get : (get : Steps Bytes).run.run buffer = (.ok buffer, buffer) :=
  rfl

theorem run_load {index : Nat} (h : index < buffer.length) :
    (load index).run.run buffer = (.ok (buffer.getD index 0), buffer) := by
  have hvalue : buffer[index]? = some (buffer.getD index 0) := by simp [h]
  rw [load, run_bind_of_ok run_get, hvalue]
  rfl

theorem run_store {index : Nat} (h : index < buffer.length) (value : UInt8) :
    (store index value).run.run buffer = (.ok (), buffer.set index value) := by
  have hstored : Region.store buffer index value = .ok (buffer.set index value) := if_pos h
  rw [store, run_bind_of_ok run_get, hstored]
  rfl

section Loop

variable (hsource : source + n ≤ buffer.length) (htarget : target + n ≤ buffer.length)
  (hsourceWord : source + n < 2 ^ Word.bits) (htargetWord : target + n < 2 ^ Word.bits)

include hsource htarget hsourceWord htargetWord

theorem run_moveByte {i : Nat} (hi : i < n) :
    (moveByte target source i).run.run buffer =
      (.ok (), copyByte buffer (target + i) (source + i)) := by
  have hread : Word.add Word.bits source i = .ok (source + i) := Word.fit_of_lt (by omega)
  have hwritten : Word.add Word.bits target i = .ok (target + i) := Word.fit_of_lt (by omega)
  rw [moveByte, hread, hwritten]
  exact (run_bind_of_ok (run_load (by omega)) _).trans (run_store (by omega) _)

theorem run_moveBytes {order : List Nat} (horder : ∀ i ∈ order, i < n) :
    (order.forM (moveByte target source)).run.run buffer =
      (.ok (), copyBytes target source order buffer) := by
  induction order generalizing buffer with
  | nil => rfl
  | cons i rest ih =>
      obtain ⟨hi, hrest⟩ := List.forall_mem_cons.mp horder
      have hfirst := run_moveByte hsource htarget hsourceWord htargetWord hi
      have hlength := length_copyByte buffer (target + i) (source + i)
      rw [← hlength] at hsource htarget
      exact (run_bind_of_ok hfirst _).trans (ih hsource htarget hrest)

end Loop

end Steps

section Ends

variable {buffer : Bytes} {index n : Nat}

theorem checkEnd_of_over (h : 2 ^ Word.bits ≤ index + n) :
    checkEnd buffer index n = .error .overflow := by
  have hstop : Word.add Word.bits index n = .error .overflow := Word.fit_of_le h
  rw [checkEnd, hstop]
  rfl

theorem checkEnd_of_outside (hword : index + n < 2 ^ Word.bits) (h : buffer.length < index + n) :
    checkEnd buffer index n = .error .regionOutOfBounds := by
  have hstop : Word.add Word.bits index n = .ok (index + n) := Word.fit_of_lt hword
  rw [checkEnd, hstop]
  exact if_pos h

theorem checkEnd_of_inside (hword : index + n < 2 ^ Word.bits) (h : index + n ≤ buffer.length) :
    checkEnd buffer index n = .ok () := by
  have hstop : Word.add Word.bits index n = .ok (index + n) := Word.fit_of_lt hword
  rw [checkEnd, hstop]
  exact if_neg (Nat.not_lt.mpr h)

theorem inside_of_checkEnd (h : checkEnd buffer index n = .ok ()) :
    index + n < 2 ^ Word.bits ∧ index + n ≤ buffer.length := by
  rcases Nat.lt_or_ge (index + n) (2 ^ Word.bits) with hword | hover
  · rcases Nat.lt_or_ge buffer.length (index + n) with hout | hroom
    · cases (checkEnd_of_outside hword hout).symm.trans h
    · exact ⟨hword, hroom⟩
  · cases (checkEnd_of_over hover).symm.trans h

end Ends

theorem move_eq (buffer : Bytes) (target source n : Nat) :
    move buffer target source n = do
      checkEnd buffer source n
      checkEnd buffer target n
      return copyBytes target source (moveOrder target source n) buffer := by
  unfold move checkEnd
  rcases Word.add Word.bits source n with fault | sourceEnd
  · rfl
  by_cases hsource : buffer.length < sourceEnd
  · simp only [bind, Except.bind, if_pos hsource]
    rfl
  rcases Word.add Word.bits target n with fault | targetEnd
  · simp only [bind, Except.bind, if_neg hsource]
    rfl
  by_cases htarget : buffer.length < targetEnd
  · simp only [bind, Except.bind, if_neg hsource, if_pos htarget]
    rfl
  · simp only [bind, Except.bind, if_neg hsource, if_neg htarget]
    rfl

/-- The checks decide how a move ends, the one of the source before the one of the target. -/
theorem move_cases (buffer : Bytes) (target source n : Nat) :
    let overflows := 2 ^ 64 ≤ source + n ∨ source + n ≤ buffer.length ∧ 2 ^ 64 ≤ target + n
    let outside := buffer.length < source + n ∨ buffer.length < target + n
    overflows ∧ move buffer target source n = .error .overflow ∨
    ¬ overflows ∧ outside ∧ move buffer target source n = .error .regionOutOfBounds ∨
    ¬ overflows ∧ ¬ outside ∧
      move buffer target source n = .ok (moved buffer target source n) := by
  intro overflows outside
  rw [move_eq]
  rcases Nat.lt_or_ge (source + n) (2 ^ 64) with hsourceWord | hsourceOver
  · rcases Nat.lt_or_ge buffer.length (source + n) with hsourceOut | hsourceRoom
    · rw [checkEnd_of_outside hsourceWord hsourceOut]
      exact .inr (.inl ⟨by omega, .inl hsourceOut, rfl⟩)
    rw [checkEnd_of_inside hsourceWord hsourceRoom]
    rcases Nat.lt_or_ge (target + n) (2 ^ 64) with htargetWord | htargetOver
    · rcases Nat.lt_or_ge buffer.length (target + n) with htargetOut | htargetRoom
      · rw [checkEnd_of_outside htargetWord htargetOut]
        exact .inr (.inl ⟨by omega, .inr htargetOut, rfl⟩)
      · rw [checkEnd_of_inside htargetWord htargetRoom,
          copyBytes_moveOrder hsourceRoom htargetRoom]
        exact .inr (.inr ⟨by omega, by omega, rfl⟩)
    · rw [checkEnd_of_over htargetOver]
      exact .inl ⟨.inr ⟨hsourceRoom, htargetOver⟩, rfl⟩
  · rw [checkEnd_of_over hsourceOver]
    exact .inl ⟨.inl hsourceOver, rfl⟩

/-- Byte by byte a move comes to the same, and no byte has been written where it is a fault. -/
theorem Steps.run_move (buffer : Bytes) (target source n : Nat) :
    (Steps.move target source n).run.run buffer =
      match Region.move buffer target source n with
      | .ok after => (.ok (), after)
      | .error fault => (.error fault, buffer) := by
  rw [Steps.move, run_bind_of_ok run_get, move_eq]
  rcases hsource : checkEnd buffer source n with fault | _
  · rfl
  rcases htarget : checkEnd buffer target n with fault | _
  · rfl
  obtain ⟨hsourceWord, hsourceRoom⟩ := inside_of_checkEnd hsource
  obtain ⟨htargetWord, htargetRoom⟩ := inside_of_checkEnd htarget
  have hin : ∀ i ∈ moveOrder target source n, i < n := fun i hi => mem_moveOrder.mp hi
  exact run_moveBytes hsourceRoom htargetRoom hsourceWord htargetWord hin

/-- A move is a copy through a temporary block, whatever its source and target overlap. It is an
overflow exactly if the end of the source is no word, or there is room for the source and the end
of the target is no word; otherwise it is a fault exactly if one of them ends outside the buffer.
In all other cases the target has the bytes that were in the source, and no other byte has changed.
The bytes are read and written one by one, each at an index of the buffer, and a move that is a
fault has not written any. -/
theorem move_through_temporary (buffer : Bytes) (target source n : Nat) :
    let overflows := 2 ^ 64 ≤ source + n ∨ source + n ≤ buffer.length ∧ 2 ^ 64 ≤ target + n
    let outside := buffer.length < source + n ∨ buffer.length < target + n
    let result := move buffer target source n
    (result = .error .overflow ↔ overflows) ∧
    (result = .error .regionOutOfBounds ↔ ¬ overflows ∧ outside) ∧
    Fault.message .regionOutOfBounds = "region out of bounds" ∧
    (result = .ok (moved buffer target source n) ↔ ¬ overflows ∧ ¬ outside) ∧
    (∀ after, result = .ok after → ∀ p, after[p]? =
      if target ≤ p ∧ p < target + n then buffer[source + (p - target)]? else buffer[p]?) ∧
    (Steps.move target source n).run.run buffer =
      match result with
      | .ok after => (.ok (), after)
      | .error fault => (.error fault, buffer) := by
  intro overflows outside result
  have hsteps := Steps.run_move buffer target source n
  rcases move_cases buffer target source n with
    ⟨hover, hmove⟩ | ⟨hword, hout, hmove⟩ | ⟨hword, hin, hmove⟩
  · have hresult : result = .error .overflow := hmove
    refine ⟨iff_of_true hresult hover, ?_, rfl, ?_, ?_, hsteps⟩
    · simp [hresult, overflows, hover]
    · simp [hresult, overflows, hover]
    · simp [hresult]
  · have hresult : result = .error .regionOutOfBounds := hmove
    refine ⟨?_, iff_of_true hresult ⟨hword, hout⟩, rfl, ?_, ?_, hsteps⟩
    · simp [hresult, overflows, hword]
    · simp [hresult, outside, hout]
    · simp [hresult]
  · have hresult : result = .ok (moved buffer target source n) := hmove
    refine ⟨?_, ?_, rfl, iff_of_true hresult ⟨hword, hin⟩, ?_, hsteps⟩
    · simp [hresult, overflows, hword]
    · simp [hresult, outside, hin]
    · intro after hafter
      obtain rfl := Except.ok.inj (hresult.symm.trans hafter)
      exact getElem?_moved (by omega) (by omega)

/-- A block that moves up over its own end, one that moves down over its own beginning, and a
target whose end is no word, behind a source that is in the buffer and one that is not. -/
theorem move_of_overlappingBlocks :
    let buffer : Bytes := [0x61, 0x62, 0x63, 0x64, 0x65, 0x66]
    let up : Bytes := [0x61, 0x62, 0x61, 0x62, 0x63, 0x64]
    move buffer 2 0 4 = .ok up ∧ up[3]? = buffer[1]? ∧
    move buffer 0 2 4 = .ok [0x63, 0x64, 0x65, 0x66, 0x65, 0x66] ∧
    move buffer (2 ^ 64 - 1) 4 2 = .error .overflow ∧
    move buffer (2 ^ 64 - 1) 5 2 = .error .regionOutOfBounds := by
  intro buffer up
  obtain ⟨-, -, -, hup, hbytes, -⟩ := move_through_temporary buffer 2 0 4
  obtain ⟨-, -, -, hdown, -, -⟩ := move_through_temporary buffer 0 2 4
  obtain ⟨hover, -, -, -, -, -⟩ := move_through_temporary buffer (2 ^ 64 - 1) 4 2
  obtain ⟨-, hout, -, -, -, -⟩ := move_through_temporary buffer (2 ^ 64 - 1) 5 2
  have hmoved : move buffer 2 0 4 = .ok up := hup.mpr (by decide)
  have hbyte : up[3]? = buffer[1]? := hbytes up hmoved 3
  exact ⟨hmoved, hbyte, hdown.mpr (by decide), hover.mpr (by decide), hout.mpr (by decide)⟩

end EarlyBoot.Region
