import EarlyBoot.Proofs.Terminated.InPlace

/-!
Searching from the end. The last of a byte is as far from the end of a string as the first of it is
from the start of the string turned around, and turning a string around twice brings it back. All
of this is about the content of a buffer alone: the two indices that turn a string around stay in
front of its terminator.
-/

namespace EarlyBoot.Terminated

theorem content_drop_length (s : Bytes) : content (s.drop (length s)) = [] := by
  have hwhole := content_append (zero_notMem_content s) (s.drop (length s))
  rw [content_append_drop] at hwhole
  exact List.self_eq_append_right.mp hwhole

theorem content_reverse (s : Bytes) : content (reverse s) = (content s).reverse := by
  have hzero : (0 : UInt8) ∉ (content s).reverse := fun hmem =>
    zero_notMem_content s (List.mem_reverse.mp hmem)
  rw [reverse, content_append hzero, content_drop_length, List.append_nil]

theorem length_reverse (s : Bytes) : length (reverse s) = length s := by
  rw [length, content_reverse, List.length_reverse]
  rfl

theorem drop_reverse (s : Bytes) : (reverse s).drop (length s) = s.drop (length s) := by
  rw [reverse]
  exact List.drop_left' List.length_reverse

theorem reverse_reverse (s : Bytes) : reverse (reverse s) = s := by
  rw [reverse, content_reverse, length_reverse, drop_reverse, List.reverse_reverse]
  exact content_append_drop s

theorem lt_of_lastIndex? {c : UInt8} {text : Bytes} {i : Nat} (h : lastIndex? c text = some i) :
    i < text.length := by
  induction text generalizing i with
  | nil => cases h
  | cons b rest ih =>
      rw [List.length_cons]
      rw [lastIndex?] at h
      split at h
      · rename_i k hk
        cases h
        exact Nat.succ_lt_succ (ih hk)
      · split at h <;> cases h
        exact Nat.zero_lt_succ _

/-- The first of a byte in a list that is turned around is the last one in the list itself. -/
theorem idxOf?_reverse (c : UInt8) (text : Bytes) :
    text.reverse.idxOf? c = (lastIndex? c text).map (text.length - 1 - ·) := by
  induction text with
  | nil => rfl
  | cons b rest ih =>
      have hsplit : (b :: rest).reverse.idxOf? c =
          (rest.reverse.idxOf? c).or (([b].idxOf? c).map (· + rest.length)) := by
        rw [List.reverse_cons, List.idxOf?, List.findIdx?_append, List.length_reverse]
      rw [hsplit, ih, lastIndex?]
      cases hlast : lastIndex? c rest with
      | some i =>
          have hi := lt_of_lastIndex? hlast
          simp only [Option.map_some, Option.some_or, List.length_cons]
          congr 1
          omega
      | none => by_cases hb : b = c <;> simp [hb]

theorem find?_of_ne_zero {c : UInt8} (hc : c ≠ 0) (s : Bytes) : find? s c = (content s).idxOf? c :=
  if_neg hc

theorem findLast?_of_ne_zero {c : UInt8} (hc : c ≠ 0) (s : Bytes) :
    findLast? s c = lastIndex? c (content s) :=
  if_neg hc

theorem find?_reverse {c : UInt8} (hc : c ≠ 0) (s : Bytes) :
    find? (reverse s) c = (findLast? s c).map (length s - 1 - ·) := by
  rw [find?_of_ne_zero hc, findLast?_of_ne_zero hc, content_reverse, idxOf?_reverse]
  rfl

/-- The first zero byte of a buffer is its terminator. -/
theorem idxOf?_zero (s : Bytes) : s.idxOf? 0 = find? s 0 := by
  change _ = if length s < s.length then some (length s) else none
  induction s with
  | nil => rfl
  | cons x rest ih =>
      by_cases hx : x = 0
      · subst hx
        rfl
      · have hcons : (x :: rest).idxOf? 0 = (rest.idxOf? 0).map (· + 1) := by
          simp [List.idxOf?, List.findIdx?_cons, hx]
        rw [hcons, ih, length_cons hx, List.length_cons]
        by_cases hroom : length rest < rest.length
        · rw [if_pos hroom, if_pos (Nat.succ_lt_succ hroom)]
          rfl
        · rw [if_neg hroom, if_neg (by omega)]
          rfl

theorem region_find?_content (s : Bytes) (c : UInt8) :
    Region.find? s c (length s) = .ok ((content s).idxOf? c) := by
  rw [Region.find?, if_pos (length_le s), take_length]

theorem region_find?_whole (s : Bytes) (c : UInt8) :
    Region.find? s c s.length = .ok (s.idxOf? c) := by
  rw [Region.find?, if_pos (Nat.le_refl _), List.take_length]

/-- Without the bytes behind the string the indices that turn it around stay in range. -/
theorem reverseInPlace_content (s : Bytes) :
    reverseInPlace (content s) = .ok (content s).reverse := by
  have hself : content (content s) = content s := content_eq_self (zero_notMem_content s)
  have hnone : (content s).drop (length (content s)) = [] := by
    rw [length, hself, List.drop_length]
  rw [reverseInPlace_eq, reverse, hself, hnone, List.append_nil]

/-- Searching from the end mirrors searching from the front. For a byte other than zero, the last
index in a string and the first one in the string turned around add up to the last index of all,
and there is one exactly if there is the other. Turning a string around is possible in every buffer,
with the bytes in front of the terminator alone; it leaves the others as they are, and twice it
restores the buffer. A search of the string is a search of as many bytes as the string has, and a
search for the terminator, from either end, one of the whole buffer. -/
theorem searches_mirror {c : UInt8} (hc : c ≠ 0) (s : Bytes) :
    let turned := reverse s
    (∀ i : Nat, findLast? s c = some i ↔
      ∃ j : Nat, find? turned c = some j ∧ (j : Int) = (length s : Int) - 1 - i) ∧
    (findLast? s c = none ↔ find? turned c = none) ∧
    reverseInPlace s = .ok turned ∧ reverseInPlace turned = .ok s ∧
    (∃ front, reverseInPlace (content s) = .ok front ∧ turned = front ++ s.drop (length s)) ∧
    Region.find? s c (length s) = .ok (find? s c) ∧
    find? s 0 = findLast? s 0 ∧ Region.find? s 0 s.length = .ok (find? s 0) := by
  intro turned
  have hmirror : find? turned c = (findLast? s c).map (length s - 1 - ·) := find?_reverse hc s
  have htwice : reverseInPlace turned = .ok s := by
    rw [reverseInPlace_eq, reverse_reverse]
  refine ⟨?_, ?_, reverseInPlace_eq s, htwice, ⟨_, reverseInPlace_content s, rfl⟩, ?_, rfl, ?_⟩
  · intro i
    have hbound : ∀ k, findLast? s c = some k → k < length s := by
      intro k hk
      rw [findLast?_of_ne_zero hc] at hk
      exact lt_of_lastIndex? hk
    rw [hmirror]
    constructor
    · intro hi
      have hlt := hbound i hi
      exact ⟨length s - 1 - i, by rw [hi]; rfl, by omega⟩
    · rintro ⟨j, hj, hsum⟩
      obtain ⟨k, hk, rfl⟩ := Option.map_eq_some_iff.mp hj
      have hlt := hbound k hk
      rw [hk]
      congr 1
      omega
  · rw [hmirror, Option.map_eq_none_iff]
  · rw [region_find?_content, find?_of_ne_zero hc]
  · rw [region_find?_whole, idxOf?_zero]

/-- A byte at the start and inside of a string, and once more behind its terminator. -/
theorem searches_of_samplePath :
    let s : Bytes := [0x2F, 0x61, 0x2F, 0x62, 0x63, 0, 0x2F]
    (0x2F : UInt8) ≠ 0 ∧ findLast? s 0x2F = some 2 ∧
    (∃ j : Nat, find? (reverse s) 0x2F = some j ∧ (j : Int) = 2) ∧
    reverseInPlace s = .ok [0x63, 0x62, 0x2F, 0x61, 0x2F, 0, 0x2F] ∧
    find? s 0 = some 5 ∧ findLast? s 0 = some 5 := by
  intro s
  have hc : (0x2F : UInt8) ≠ 0 := by decide
  obtain ⟨hlast, -, hturned, -, -, -, hzero, -⟩ := searches_mirror hc s
  have hfound : findLast? s 0x2F = some 2 := by decide
  have hterminator : find? s 0 = some 5 := by decide
  exact ⟨hc, hfound, (hlast 2).mp hfound, hturned, hterminator, hzero ▸ hterminator⟩

end EarlyBoot.Terminated
