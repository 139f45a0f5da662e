import Mathlib.Data.List.Induction
import EarlyBoot.Proofs.Loader.Lookups
import EarlyBoot.Proofs.Loader.MapLayout

/-!
Several iterators over one memory map. Each of them has a rest of the regions before it, which only
its own answers make shorter. So whatever is asked in between, an iterator hands out the regions of
the map one after the other, and then none for ever.
-/

namespace EarlyBoot

namespace MapWalk

variable (m : Memory) (walk : MapWalk)

theorem regions_ended : walk.ended.regions m = [] :=
  regions_of_no_room (.inl (by simp [remaining, ended]))

/-- A walk that finds nothing is at its end. -/
theorem eq_ended_of_next {after : MapWalk} (h : walk.next m = (none, after)) :
    after = walk.ended := by
  fun_induction next m walk with
  | case1 walk hend => exact (Prod.mk.inj h).2.symm
  | case2 walk hroom bodySize hend => exact (Prod.mk.inj h).2.symm
  | case3 walk hroom bodySize hfits hshort ih => exact ih h
  | case4 walk hroom bodySize hfits hbody => cases (Prod.mk.inj h).1

theorem next_eq_head? : (walk.next m).1 = (walk.regions m).head? := by
  rw [regions_eq]
  rcases walk.next m with ⟨_ | region, after⟩ <;> rfl

theorem regions_next : (walk.next m).2.regions m = (walk.regions m).tail := by
  rw [regions_eq m walk]
  rcases hnext : walk.next m with ⟨_ | region, after⟩
  · rw [walk.eq_ended_of_next m hnext]
    exact walk.regions_ended m
  · rfl

end MapWalk

namespace MapSession

/-- What can be asked of a map and of the iterators over it. These have numbers, in the order in
which they are made. -/
inductive Query where
  /-- Make an iterator. -/
  | fresh
  | next (i : Nat)
  | count (i : Nat)
  | available
deriving DecidableEq

inductive Answer where
  /-- The number of a new iterator. -/
  | made (i : Nat)
  | region (r : Option MemoryRegion)
  | left (n : Nat)
  | bytes (total : UInt64)
deriving DecidableEq

/-- The answer to one query, and the iterators after it. -/
def ask (map : MemoryMap) (m : Memory) (walks : List MapWalk) :
    Query → Except Fault (Answer × List MapWalk)
  | .fresh => do return (.made walks.length, walks ++ [← map.walk])
  | .next i =>
    match walks[i]? with
    | none => throw .outOfBounds
    | some walk => return (.region (walk.next m).1, walks.set i (walk.next m).2)
  | .count i =>
    match walks[i]? with
    | none => throw .outOfBounds
    | some walk => return (.left (walk.count m).1, walks.set i (walk.count m).2)
  | .available => do return (.bytes (← map.availableBytes m), walks)

/-- Queries and the answers to them. -/
abbrev Log := List (Query × Answer)

/-- Queries in a row, each with its answer. -/
def askAll (map : MemoryMap) (m : Memory) (walks : List MapWalk) :
    List Query → Except Fault Log
  | [] => .ok []
  | query :: rest => do
    let (answer, after) ← ask map m walks query
    return (query, answer) :: (← askAll map m after rest)

/-- Whether queries name only iterators that were made before, with `made` of them at first. -/
def onlyMade (made : Nat) : List Query → Bool
  | [] => true
  | .fresh :: rest => onlyMade (made + 1) rest
  | .next i :: rest => i < made && onlyMade made rest
  | .count i :: rest => i < made && onlyMade made rest
  | .available :: rest => onlyMade made rest

/-- How many regions an answer takes from the iterator `i`. -/
def taken (i : Nat) : Query × Answer → Nat
  | (.next j, .region (some _)) => if j = i then 1 else 0
  | (.count j, .left n) => if j = i then n else 0
  | _ => 0

/-- What an answer of the iterator `i` hands out, if it was asked for the next region. -/
def handed (i : Nat) : Query × Answer → Option (Option MemoryRegion)
  | (.next j, .region r) => if j = i then some r else none
  | _ => none

theorem taken_region (i : Nat) (r : Option MemoryRegion) :
    taken i (.next i, .region r) = if r.isSome then 1 else 0 := by
  cases r <;> simp [taken]

theorem taken_left (i n : Nat) : taken i (.count i, .left n) = n :=
  if_pos rfl

theorem handed_region (i : Nat) (r : Option MemoryRegion) :
    handed i (.next i, .region r) = some r :=
  if_pos rfl

/-- An iterator gives nothing when another one is asked. -/
theorem other {i : Nat} {query : Query} (hnext : query ≠ .next i) (hcount : query ≠ .count i)
    (answer : Answer) : taken i (query, answer) = 0 ∧ handed i (query, answer) = none := by
  cases query with
  | fresh => exact ⟨rfl, rfl⟩
  | next j =>
      have hj : j ≠ i := fun heq => hnext (heq ▸ rfl)
      rcases answer with _ | (_ | _) | _ | _ <;> simp [taken, handed, hj]
  | count j =>
      have hj : j ≠ i := fun heq => hcount (heq ▸ rfl)
      cases answer <;> simp [taken, handed, hj]
  | available => exact ⟨rfl, rfl⟩

/-- How many regions were taken from the iterator `i`. -/
def Log.taken (i : Nat) (log : Log) : Nat :=
  (log.map (MapSession.taken i)).sum

def Log.made (log : Log) : Nat :=
  log.countP (·.1 = .fresh)

/-- What the iterator `i` answered when it was asked for the next region. -/
def Log.handedOut (i : Nat) (log : Log) : List (Option MemoryRegion) :=
  log.filterMap (handed i)

/-- The answer to a query that comes after others, in a map with these regions and this many bytes
available. -/
def answerAfter (full : List MemoryRegion) (total : UInt64) (before : Log) : Query → Answer
  | .fresh => .made before.made
  | .next i => .region full[before.taken i]?
  | .count i => .left (full.length - before.taken i)
  | .available => .bytes total

/-- Each iterator has before it what was not taken from it. -/
structure Kept (m : Memory) (full : List MemoryRegion) (before : Log) (walks : List MapWalk) :
    Prop where
  made_eq : before.made = walks.length
  regions_eq : ∀ i walk, walks[i]? = some walk → walk.regions m = full.drop (before.taken i)
  unmade : ∀ i, walks.length ≤ i → before.taken i = 0

theorem taken_append (i : Nat) (before : Log) (entry : Query × Answer) :
    Log.taken i (before ++ [entry]) = before.taken i + taken i entry := by
  simp [Log.taken]

theorem made_append (before : Log) (entry : Query × Answer) :
    Log.made (before ++ [entry]) = before.made + if entry.1 = .fresh then 1 else 0 := by
  simp [Log.made, List.countP_append, List.countP_cons]

theorem kept_nil (m : Memory) (full : List MemoryRegion) : Kept m full [] [] where
  made_eq := rfl
  regions_eq := nofun
  unmade _ _ := rfl

namespace Kept

variable {m : Memory} {full : List MemoryRegion} {before : Log} {walks : List MapWalk}
  (h : Kept m full before walks)

include h

/-- A new iterator has all regions before it. -/
theorem fresh {first : MapWalk} (hfirst : first.regions m = full) (answer : Answer) :
    Kept m full (before ++ [(.fresh, answer)]) (walks ++ [first]) := by
  have htaken (i : Nat) : Log.taken i (before ++ [(.fresh, answer)]) = before.taken i :=
    taken_append i before _
  refine ⟨?_, fun i walk hwalk => ?_, fun i hi => ?_⟩
  · rw [made_append, h.made_eq, List.length_append]
    rfl
  · rw [htaken]
    rcases Nat.lt_or_ge i walks.length with hlt | hge
    · rw [List.getElem?_append_left hlt] at hwalk
      exact h.regions_eq i walk hwalk
    · rw [h.unmade i hge, List.drop_zero]
      rw [List.getElem?_append_right hge] at hwalk
      rw [List.mem_singleton.mp (List.mem_of_getElem? hwalk), hfirst]
  · rw [htaken]
    rw [List.length_append] at hi
    exact h.unmade i (Nat.le_of_add_right_le hi)

theorem available (answer : Answer) : Kept m full (before ++ [(.available, answer)]) walks := by
  have htaken (i : Nat) : Log.taken i (before ++ [(.available, answer)]) = before.taken i :=
    taken_append i before _
  refine ⟨?_, fun i walk hwalk => ?_, fun i hi => ?_⟩
  · rw [made_append, h.made_eq]
    rfl
  · rw [htaken]
    exact h.regions_eq i walk hwalk
  · rw [htaken]
    exact h.unmade i hi

/-- An iterator that is asked goes on, and the others stay where they are. -/
theorem set {i : Nat} (hi : i < walks.length) {query : Query} {answer : Answer}
    (hquery : query = .next i ∨ query = .count i) {after : MapWalk}
    (hafter : after.regions m = full.drop (before.taken i + taken i (query, answer))) :
    Kept m full (before ++ [(query, answer)]) (walks.set i after) := by
  have hothers : ∀ j, j ≠ i → taken j (query, answer) = 0 := by
    intro j hj
    refine (other ?_ ?_ answer).1 <;> rcases hquery with rfl | rfl <;> simp [hj.symm]
  refine ⟨?_, fun j walk hwalk => ?_, fun j hj => ?_⟩
  · rw [made_append, h.made_eq, List.length_set]
    rcases hquery with rfl | rfl <;> rfl
  · rw [taken_append]
    by_cases hj : j = i
    · subst hj
      rw [List.getElem?_set_self hi] at hwalk
      rw [← Option.some.inj hwalk, hafter]
    · rw [List.getElem?_set_ne (Ne.symm hj)] at hwalk
      rw [hothers j hj, Nat.add_zero]
      exact h.regions_eq j walk hwalk
  · rw [List.length_set] at hj
    rw [taken_append, h.unmade j hj, hothers j (by omega)]

/-- A query is answered from what was taken before it, and what it takes is gone from no iterator
but the one it names. -/
theorem ask {map : MemoryMap} {total : UInt64} (hfull : map.regions m = .ok full)
    (htotal : map.availableBytes m = .ok total) {query : Query} {rest : List Query}
    (hmade : onlyMade walks.length (query :: rest) = true) :
    ∃ after, MapSession.ask map m walks query = .ok (answerAfter full total before query, after) ∧
      Kept m full (before ++ [(query, answerAfter full total before query)]) after ∧
      onlyMade after.length rest = true := by
  cases query with
  | fresh =>
      obtain ⟨first, hwalk, hfirst⟩ := MemoryMap.exists_walk_of_regions hfull
      refine ⟨walks ++ [first], ?_, h.fresh hfirst _, ?_⟩
      · rw [MapSession.ask, hwalk, answerAfter, h.made_eq]
        rfl
      · rw [List.length_append]
        exact hmade
  | next i =>
      obtain ⟨hi, hrest⟩ := Bool.and_eq_true_iff.mp hmade
      have hlt : i < walks.length := of_decide_eq_true hi
      have hwalk := List.getElem?_eq_getElem hlt
      have hregions := h.regions_eq i _ hwalk
      have hregion : (walks[i].next m).1 = full[before.taken i]? := by
        rw [walks[i].next_eq_head? m, hregions, List.head?_drop]
      refine ⟨walks.set i (walks[i].next m).2, ?_,
        h.set hlt (.inl rfl) ?_, by rwa [List.length_set]⟩
      · rw [MapSession.ask, hwalk, answerAfter, ← hregion]
        rfl
      · rw [walks[i].regions_next m, hregions, List.tail_drop, answerAfter, taken_region]
        by_cases hleft : before.taken i < full.length
        · rw [List.getElem?_eq_getElem hleft]
          rfl
        · rw [List.drop_eq_nil_of_le (by omega), List.drop_eq_nil_of_le (by omega)]
  | count i =>
      obtain ⟨hi, hrest⟩ := Bool.and_eq_true_iff.mp hmade
      have hlt : i < walks.length := of_decide_eq_true hi
      have hwalk := List.getElem?_eq_getElem hlt
      have hregions := h.regions_eq i _ hwalk
      refine ⟨walks.set i (walks[i].count m).2, ?_,
        h.set hlt (.inr rfl) ?_, by rwa [List.length_set]⟩
      · rw [MapSession.ask, hwalk, answerAfter, ← List.length_drop, ← hregions]
        rfl
      · rw [answerAfter, taken_left, List.drop_eq_nil_of_le (by omega)]
        exact walks[i].regions_ended m
  | available =>
      refine ⟨walks, ?_, h.available _, hmade⟩
      rw [MapSession.ask, htotal]
      rfl

end Kept

/-- Every query in a row is answered, and from what was taken before it. -/
theorem askAll_answers {map : MemoryMap} {m : Memory} {full : List MemoryRegion} {total : UInt64}
    (hfull : map.regions m = .ok full) (htotal : map.availableBytes m = .ok total)
    {before : Log} {walks : List MapWalk} (h : Kept m full before walks) {queries : List Query}
    (hmade : onlyMade walks.length queries = true) :
    ∃ log, askAll map m walks queries = .ok log ∧ log.map (·.1) = queries ∧
      ∀ earlier query answer later, log = earlier ++ (query, answer) :: later →
        answer = answerAfter full total (before ++ earlier) query := by
  -- What was asked before is a part of the invariant, and each query adds its entry to it.
  induction queries generalizing before walks with
  | nil => exact ⟨[], rfl, rfl, fun earlier query answer later hlog => by simp at hlog⟩
  | cons query rest ih =>
      obtain ⟨after, hask, hkept, hrest⟩ := h.ask hfull htotal hmade
      obtain ⟨log, hall, hqueries, hanswers⟩ := ih hkept hrest
      refine ⟨(query, answerAfter full total before query) :: log, ?_,
        by rw [List.map_cons, hqueries], fun earlier query' answer later hlog => ?_⟩
      · rw [askAll, hask]
        simp only [bind, Except.bind, hall]
        rfl
      · cases earlier with
        | nil =>
            cases hlog
            rw [List.append_nil]
        | cons entry earlier =>
            cases hlog
            have hanswer := hanswers earlier query' answer later rfl
            rwa [List.append_assoc] at hanswer

theorem handedOut_append (i : Nat) (before : Log) (entry : Query × Answer) :
    Log.handedOut i (before ++ [entry]) = before.handedOut i ++ (handed i entry).toList := by
  rw [Log.handedOut, List.filterMap_append]
  cases hentry : handed i entry <;> simp [Log.handedOut, hentry]

/-- An iterator whose regions are never counted hands them out one after the other. -/
theorem handedOut_eq {full : List MemoryRegion} {total : UInt64} {log : Log} {i : Nat}
    (hanswers : ∀ before query answer after, log = before ++ (query, answer) :: after →
      answer = answerAfter full total before query)
    (hcount : .count i ∉ log.map (·.1)) :
    log.handedOut i = (List.range ((log.map (·.1)).count (.next i))).map (full[·]?) ∧
      log.taken i = min ((log.map (·.1)).count (.next i)) full.length := by
  induction log using List.reverseRecOn with
  | nil => simp [Log.handedOut, Log.taken]
  | append_singleton before entry ih =>
      obtain ⟨query, answer⟩ := entry
      have hanswer := hanswers before query answer [] rfl
      rw [List.map_append, List.mem_append, not_or] at hcount
      obtain ⟨hhanded, htaken⟩ := ih
        (fun earlier query' answer' later hlog => hanswers earlier query' answer'
          (later ++ [(query, answer)]) (by rw [hlog, List.append_assoc, List.cons_append]))
        hcount.1
      rw [handedOut_append, taken_append, hhanded, htaken, List.map_append, List.count_append]
      by_cases hnext : query = .next i
      · subst hnext
        rw [hanswer, answerAfter, handed_region, taken_region, htaken, List.map_singleton,
          List.count_singleton_self, List.range_succ, List.map_append, List.map_singleton]
        rcases Nat.lt_or_ge ((before.map (·.1)).count (.next i)) full.length with hleft | hend
        · rw [Nat.min_eq_left (Nat.le_of_lt hleft), Nat.min_eq_left hleft,
            List.getElem?_eq_getElem hleft]
          exact ⟨rfl, rfl⟩
        · rw [Nat.min_eq_right hend, Nat.min_eq_right (Nat.le_succ_of_le hend),
            List.getElem?_eq_none hend, List.getElem?_eq_none (Nat.le_refl _)]
          exact ⟨rfl, rfl⟩
      · obtain ⟨htakenNone, hhandedNone⟩ :=
          other hnext (fun heq => hcount.2 (List.mem_singleton.mpr heq.symm)) answer
        have hcountNone : ([(query, answer)].map (·.1)).count (.next i) = 0 :=
          List.count_eq_zero_of_not_mem fun hmem => hnext (List.mem_singleton.mp hmem).symm
        rw [hhandedNone, htakenNone, hcountNone]
        exact ⟨List.append_nil _, rfl⟩

/-- However many iterators over a map are made and however they are asked in turn, each of them
hands out the regions of the map in their order, and none for ever behind the last one. A count
answers with the regions that were not yet taken from its iterator, and takes them. The bytes that
are available are the same whenever they are asked for. -/
theorem session_hands_out_in_order (map : MemoryMap) (m : Memory)
    (hroom : map.start.toNat + map.length < 2 ^ 64) (queries : List Query)
    (hmade : onlyMade 0 queries = true) :
    ∃ full total log, map.regions m = .ok full ∧ map.availableBytes m = .ok total ∧
      askAll map m [] queries = .ok log ∧ log.map (·.1) = queries ∧
      (∀ (before : Log) query answer after, log = before ++ (query, answer) :: after →
        answer = match query with
          | .fresh => .made before.made
          | .next i => .region full[before.taken i]?
          | .count i => .left (full.length - before.taken i)
          | .available => .bytes total) ∧
      ∀ i, .count i ∉ queries →
        log.handedOut i = (List.range (queries.count (.next i))).map (full[·]?) := by
  obtain ⟨full, hfull⟩ := MemoryMap.exists_regions hroom m
  obtain ⟨total, htotal⟩ := MemoryMap.exists_availableBytes hroom m
  obtain ⟨log, hlog, hqueries, hanswers⟩ :=
    askAll_answers hfull htotal (kept_nil m full) hmade
  refine ⟨full, total, log, hfull, htotal, hlog, hqueries, ?_, fun i hcount => ?_⟩
  · intro before query answer after hsplit
    rw [hanswers before query answer after hsplit]
    cases query <;> rfl
  · rw [← hqueries] at hcount ⊢
    exact (handedOut_eq hanswers hcount).1

/-- Two regions with a short record between them, and a size that nothing follows. -/
def sessionLayout : MapLayout where
  records :=
    [ ⟨[0, 0, 0, 0, 0, 0, 0, 0, 0, 0xF8, 9, 0, 0, 0, 0, 0, 1, 0, 0, 0], by decide⟩,
      ⟨[0xCC, 0xDD], by decide⟩,
      ⟨[0, 0, 16, 0, 0, 0, 0, 0, 0, 0, 0, 2, 0, 0, 0, 0, 1, 0, 0, 0, 0xBB], by decide⟩ ]
  tail := [9, 0, 0, 0]
  ends := .inr (by decide)

def sessionMemory : Memory where
  byteAt a := sessionLayout.bytes.getD (a - 0x3000) 0xFF

/-- The second iterator is counted while the first one is on its way. -/
def sampleQueries : List Query :=
  [.fresh, .next 0, .fresh, .next 1, .available, .count 1, .next 0, .next 1, .next 0]

theorem session_of_sampleQueries :
    let map : MemoryMap := ⟨⟨0x3000, by decide⟩, sessionLayout.bytes.length⟩
    map.start.toNat + map.length < 2 ^ 64 ∧ onlyMade 0 sampleQueries = true ∧
    ∃ log, askAll map sessionMemory [] sampleQueries = .ok log ∧
      log.map (·.1) = sampleQueries ∧
      log.handedOut 0 =
        [some ⟨20, ⟨0, by decide⟩, 0x9F800, .available⟩,
          some ⟨21, ⟨0x100000, by decide⟩, 0x2000000, .available⟩, none] := by
  intro map
  have hroom : map.start.toNat + map.length < 2 ^ 64 := by decide
  have hholds : sessionMemory.Holds 0x3000 sessionLayout.bytes := by
    unfold Memory.Holds
    decide
  have hahead : MapWalk.Ahead sessionMemory
      ⟨map.start.toNat, map.start.toNat + map.length⟩ sessionLayout.bytes :=
    ⟨hholds, Nat.add_sub_cancel_left _ _⟩
  have hregions : map.regions sessionMemory = .ok sessionLayout.regions := by
    rw [MemoryMap.regions, MemoryMap.walk_of_lt hroom]
    exact congrArg Except.ok (MapWalk.regions_of_records sessionLayout.ends hahead)
  refine ⟨hroom, rfl, ?_⟩
  obtain ⟨full, total, log, hfull, -, hlog, hqueries, -, hhanded⟩ :=
    session_hands_out_in_order map sessionMemory hroom sampleQueries rfl
  obtain rfl : full = sessionLayout.regions := Except.ok.inj (hfull.symm.trans hregions)
  refine ⟨log, hlog, hqueries, (hhanded 0 (by decide)).trans ?_⟩
  decide

end MapSession

end EarlyBoot
