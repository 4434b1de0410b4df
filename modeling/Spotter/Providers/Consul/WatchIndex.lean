import Mathlib.Data.List.Induction
import Mathlib.Order.Basic

/-! # The index of the Consul watch

`watchConsul` asks for the health state round after round. A request names the index after which Consul is to answer, and the
answer names the index it was read at. An index that is missing or zero is no change. An index below the last one is a change
after which the next request starts over at zero, without a pause. The responses are arbitrary.
-/

namespace Spotter.Providers.Consul

def refreshIdleTime : ℕ := 50000000
def periodicCheckTime : ℕ := 50000000
def blockQueryWaitTime : ℕ := 5000000000

/-- `consulWatchIndex`: the index of the next request, and the last index that was returned, zero if there was none. -/
structure ConsulWatchIndex where
  waitIndex : UInt64 := 0
  lastIndex : UInt64 := 0
deriving DecidableEq

variable (i : ConsulWatchIndex)

/-- `observe`, with the index that the query's metadata names, if there is any metadata: the new state, whether the response
is a change and whether the next request is made at once. -/
def ConsulWatchIndex.observe (queryMeta : Option UInt64) : ConsulWatchIndex × Bool × Bool :=
  match queryMeta with
  | none => ({ i with waitIndex := 1 }, false, false)
  | some lastIndex =>
    if lastIndex = 0 then ({ i with waitIndex := 1 }, false, false)
    else if i.lastIndex ≠ 0 ∧ lastIndex < i.lastIndex then (⟨0, lastIndex⟩, true, true)
    else (⟨lastIndex, lastIndex⟩, i.lastIndex != lastIndex, false)

namespace Watch

/-- How one round of the loop ends. A context that is done ends the loop, and so the rounds. -/
inductive Round where
  | clientFailed
  | queryFailed
  | responded (queryMeta : Option UInt64)
deriving DecidableEq

/-- What a round does: the index of its request, whether it signals a change, and the time in nanoseconds that it waits
before the next round. -/
structure Turn where
  request : Option UInt64
  signalled : Bool
  pause : Option ℕ
deriving DecidableEq

/-- One round of `watchConsul`. -/
def turn : Round → ConsulWatchIndex × Turn
  | .clientFailed => (i, ⟨none, false, some blockQueryWaitTime⟩)
  | .queryFailed => (i, ⟨some i.waitIndex, false, some periodicCheckTime⟩)
  | .responded queryMeta =>
    let (next, changed, retryImmediately) := i.observe queryMeta
    (next, ⟨some i.waitIndex, changed, if retryImmediately then none else some periodicCheckTime⟩)

def next (round : Round) : ConsulWatchIndex := (turn i round).1

variable (rounds : List Round)

/-- The index after the given rounds of a new watch. -/
def after : ConsulWatchIndex := rounds.foldl next {}

/-- The round got a response. -/
def Round.succeeded : Round → Bool
  | .responded _ => true
  | _ => false

/-- The non-zero index that a round returned. -/
def Round.index : Round → Option UInt64
  | .responded (some lastIndex) => if lastIndex = 0 then none else some lastIndex
  | _ => none

/-- The last non-zero index that was returned. -/
def lastReturned : Option UInt64 := (rounds.filterMap Round.index).getLast?

/-- The round returns an index below the last one. -/
def RollsBack (earlier : List Round) (round : Round) : Prop :=
  ∃ lower last, round.index = some lower ∧ lastReturned earlier = some last ∧ lower < last

/-- No response followed the last rollback. -/
def SinceRollback : Prop :=
  ∃ earlier rollback since, rounds = earlier ++ rollback :: since ∧ RollsBack earlier rollback ∧
    ∀ round ∈ since, round.succeeded = false

/-- What a round does to the index: nothing without a response; the floor for an invalid index; a rollback; or the new index. -/
inductive Moves (i : ConsulWatchIndex) : Round → ConsulWatchIndex → Turn → Prop where
  | clientFailed : Moves i .clientFailed i ⟨none, false, some blockQueryWaitTime⟩
  | queryFailed : Moves i .queryFailed i ⟨some i.waitIndex, false, some periodicCheckTime⟩
  | invalid {queryMeta : Option UInt64} (nothing : (Round.responded queryMeta).index = none) :
      Moves i (.responded queryMeta) { i with waitIndex := 1 } ⟨some i.waitIndex, false, some periodicCheckTime⟩
  | rollback {lower : UInt64} (valid : lower ≠ 0) (known : i.lastIndex ≠ 0) (behind : lower < i.lastIndex) :
      Moves i (.responded (some lower)) ⟨0, lower⟩ ⟨some i.waitIndex, true, none⟩
  | current {lastIndex : UInt64} (valid : lastIndex ≠ 0) (level : i.lastIndex ≠ 0 → i.lastIndex ≤ lastIndex) :
      Moves i (.responded (some lastIndex)) ⟨lastIndex, lastIndex⟩
        ⟨some i.waitIndex, i.lastIndex != lastIndex, some periodicCheckTime⟩

theorem turn_moves (round : Round) : Moves i round (turn i round).1 (turn i round).2 := by
  cases round with
  | clientFailed => exact .clientFailed
  | queryFailed => exact .queryFailed
  | responded queryMeta =>
    cases queryMeta with
    | none => exact .invalid rfl
    | some lastIndex =>
      rcases eq_or_ne lastIndex 0 with rfl | zero
      · exact .invalid rfl
      by_cases behind : i.lastIndex ≠ 0 ∧ lastIndex < i.lastIndex
      · simp only [turn, ConsulWatchIndex.observe, if_neg zero, if_pos behind]
        exact .rollback zero behind.1 behind.2
      · simp only [turn, ConsulWatchIndex.observe, if_neg zero, if_neg behind]
        exact .current zero fun known => UInt64.not_lt.mp fun lower => behind ⟨known, lower⟩

theorem after_append_singleton (round : Round) :
    after (rounds ++ [round]) = next (after rounds) round := by
  rw [after, List.foldl_append]
  rfl

section History

variable {rounds : List Round} {round : Round}

theorem index_eq_some_iff {index : UInt64} : round.index = some index ↔ round = .responded (some index) ∧ index ≠ 0 := by
  cases round with
  | clientFailed | queryFailed => simp [Round.index]
  | responded queryMeta =>
    cases queryMeta with
    | none => simp [Round.index]
    | some lastIndex =>
      rw [Round.index]
      split_ifs with zero
      · simp [zero, eq_comm]
      · simp only [Option.some_inj, Round.responded.injEq]
        exact ⟨fun same => ⟨same, same ▸ zero⟩, fun same => same.1⟩

theorem lastReturned_append_singleton : lastReturned (rounds ++ [round]) = round.index.or (lastReturned rounds) := by
  rw [lastReturned, List.filterMap_append]
  cases returned : round.index with
  | none => simp [returned, lastReturned]
  | some index => simp [returned]

theorem lastReturned_ne_zero {index : UInt64} (last : lastReturned rounds = some index) : index ≠ 0 := by
  obtain ⟨source, _, returned⟩ := List.mem_filterMap.mp (List.mem_of_getLast? last)
  exact (index_eq_some_iff.mp returned).2

theorem RollsBack.succeeded (rolled : RollsBack rounds round) : round.succeeded = true := by
  obtain ⟨lower, _, returned, _⟩ := rolled
  rw [(index_eq_some_iff.mp returned).1]
  rfl

/-- The last round is the rollback, or it is no response and the rollback was before it. -/
theorem sinceRollback_append_singleton :
    SinceRollback (rounds ++ [round]) ↔ RollsBack rounds round ∨ round.succeeded = false ∧ SinceRollback rounds := by
  constructor
  · rintro ⟨earlier, rollback, since, split, rolled, quiet⟩
    rcases List.eq_nil_or_concat since with rfl | ⟨since, last, rfl⟩
    · obtain ⟨rfl, same⟩ := List.append_inj' split rfl
      cases same
      exact .inl rolled
    · rw [List.concat_eq_append] at split quiet
      rw [← List.cons_append, ← List.append_assoc] at split
      obtain ⟨before, same⟩ := List.append_inj' split rfl
      cases same
      refine .inr ⟨quiet round (List.mem_append_right _ (List.mem_singleton_self _)), ?_⟩
      exact ⟨earlier, rollback, since, before, rolled, fun other member => quiet other (List.mem_append_left _ member)⟩
  · rintro (rolled | ⟨failed, earlier, rollback, since, rfl, rolled, quiet⟩)
    · exact ⟨rounds, round, [], rfl, rolled, List.forall_mem_nil _⟩
    · refine ⟨earlier, rollback, since ++ [round], by rw [List.append_assoc, List.cons_append], rolled, ?_⟩
      rw [List.forall_mem_append, List.forall_mem_singleton]
      exact ⟨quiet, failed⟩

/-- The requests start at zero: there was no response yet, or none since a rollback. -/
def Unanchored (rounds : List Round) : Prop := (∀ round ∈ rounds, round.succeeded = false) ∨ SinceRollback rounds

theorem unanchored_append_failed (failed : round.succeeded = false) : Unanchored (rounds ++ [round]) ↔ Unanchored rounds := by
  have noRollback : ¬ RollsBack rounds round := by
    intro rolled
    rw [rolled.succeeded] at failed
    cases failed
  rw [Unanchored, Unanchored, sinceRollback_append_singleton, List.forall_mem_append, List.forall_mem_singleton,
    and_iff_left failed, or_iff_right noRollback, and_iff_right failed]

theorem unanchored_append_succeeded (succeeded : round.succeeded = true) :
    Unanchored (rounds ++ [round]) ↔ RollsBack rounds round := by
  rw [Unanchored, sinceRollback_append_singleton, List.forall_mem_append, List.forall_mem_singleton, succeeded]
  simp

end History

/-- The index is what the responses say. -/
structure Tracks (rounds : List Round) : Prop where
  last : i.lastIndex = (lastReturned rounds).getD 0
  wait : i.waitIndex = 0 ↔ Unanchored rounds

namespace Tracks

variable {i : ConsulWatchIndex} {rounds : List Round}

theorem lastReturned_eq_some_iff (tracks : Tracks i rounds) {index : UInt64} (valid : index ≠ 0) :
    lastReturned rounds = some index ↔ i.lastIndex = index := by
  rw [tracks.last]
  cases returned : lastReturned rounds with
  | none => simp [valid.symm]
  | some last => simp

theorem rollsBack_iff (tracks : Tracks i rounds) {lower : UInt64} (valid : lower ≠ 0) :
    RollsBack rounds (.responded (some lower)) ↔ i.lastIndex ≠ 0 ∧ lower < i.lastIndex := by
  have returned : (Round.responded (some lower)).index = some lower := if_neg valid
  constructor
  · rintro ⟨_, last, own, before, behind⟩
    rw [returned] at own
    cases own
    have nonzero := lastReturned_ne_zero before
    rw [(tracks.lastReturned_eq_some_iff nonzero).mp before]
    exact ⟨nonzero, behind⟩
  · rintro ⟨known, behind⟩
    exact ⟨lower, i.lastIndex, returned, (tracks.lastReturned_eq_some_iff known).mpr rfl, behind⟩

theorem next (tracks : Tracks i rounds) (round : Round) : Tracks (next i round) (rounds ++ [round]) := by
  have moves := turn_moves i round
  rw [Watch.next]
  generalize (turn i round).1 = following, (turn i round).2 = done at moves
  cases moves with
  | clientFailed | queryFailed =>
    refine ⟨?_, ?_⟩
    · rw [lastReturned_append_singleton]
      exact tracks.last
    · rw [unanchored_append_failed rfl]
      exact tracks.wait
  | invalid nothing =>
    refine ⟨?_, ?_⟩
    · rw [lastReturned_append_singleton, nothing]
      exact tracks.last
    · rw [unanchored_append_succeeded rfl]
      refine iff_of_false (by decide : (1 : UInt64) ≠ 0) ?_
      rintro ⟨lower, _, returned, _⟩
      rw [nothing] at returned
      cases returned
  | rollback valid known behind =>
    refine ⟨?_, ?_⟩
    · rw [lastReturned_append_singleton, Round.index, if_neg valid]
      rfl
    · rw [unanchored_append_succeeded rfl, tracks.rollsBack_iff valid]
      exact iff_of_true rfl ⟨known, behind⟩
  | current valid level =>
    refine ⟨?_, ?_⟩
    · rw [lastReturned_append_singleton, Round.index, if_neg valid]
      rfl
    · rw [unanchored_append_succeeded rfl, tracks.rollsBack_iff valid]
      refine iff_of_false valid ?_
      rintro ⟨known, behind⟩
      exact UInt64.not_lt.mpr (level known) behind

end Tracks

theorem after_tracks (rounds : List Round) : Tracks (after rounds) rounds := by
  induction rounds using List.reverseRecOn with
  | nil =>
    refine ⟨rfl, iff_of_true rfl (.inl (List.forall_mem_nil _))⟩
  | append_singleton rounds round ih =>
    rw [after_append_singleton]
    exact ih.next round

/-- A round signals a change exactly if it returns a non-zero index that is not the last one. -/
theorem signalled_iff (rounds : List Round) (round : Round) : (turn (after rounds) round).2.signalled = true ↔
      ∃ index, round.index = some index ∧ lastReturned rounds ≠ some index := by
  have tracks := after_tracks rounds
  have moves := turn_moves (after rounds) round
  generalize (turn (after rounds) round).1 = following, (turn (after rounds) round).2 = done at moves
  cases moves with
  | clientFailed | queryFailed => simp [Round.index]
  | invalid nothing => simp [nothing]
  | @rollback lower valid known behind =>
    refine iff_of_true rfl ⟨lower, if_neg valid, ?_⟩
    rw [ne_eq, tracks.lastReturned_eq_some_iff valid]
    exact (UInt64.ne_of_lt behind).symm
  | @current lastIndex valid level =>
    have returned : (Round.responded (some lastIndex)).index = some lastIndex := if_neg valid
    simp [returned, tracks.lastReturned_eq_some_iff valid]

/-- A round is followed by another one at once exactly if it rolls back. -/
theorem pause_eq_none_iff (rounds : List Round) (round : Round) :
    (turn (after rounds) round).2.pause = none ↔ RollsBack rounds round := by
  have tracks := after_tracks rounds
  have moves := turn_moves (after rounds) round
  generalize (turn (after rounds) round).1 = following, (turn (after rounds) round).2 = done at moves
  cases moves with
  | clientFailed | queryFailed => simp [RollsBack, Round.index]
  | invalid nothing => simp [RollsBack, nothing]
  | rollback valid known behind => exact iff_of_true rfl ((tracks.rollsBack_iff valid).mpr ⟨known, behind⟩)
  | current valid level =>
    rw [tracks.rollsBack_iff valid]
    refine iff_of_false (Option.some_ne_none _) ?_
    rintro ⟨known, behind⟩
    exact UInt64.not_lt.mpr (level known) behind

/-- Each of the rounds is followed by the next one at once. -/
def Spins (i : ConsulWatchIndex) : List Round → Prop
  | [] => True
  | round :: rest => (turn i round).2.pause = none ∧ Spins (next i round) rest

/-- The recorded indexes along the rounds, from the first to the last. -/
def recorded (i : ConsulWatchIndex) (rounds : List Round) : List UInt64 :=
  (rounds.scanl next i).map ConsulWatchIndex.lastIndex

theorem next_lt_of_pause {i : ConsulWatchIndex} {round : Round} (atOnce : (turn i round).2.pause = none) :
    (next i round).lastIndex < i.lastIndex := by
  have moves := turn_moves i round
  rw [next]
  generalize (turn i round).1 = following, (turn i round).2 = done at moves atOnce
  cases moves with
  | rollback valid known behind => exact behind
  | _ => cases atOnce

section

variable {rounds : List Round} {i : ConsulWatchIndex} (spins : Spins i rounds)

include spins

/-- Rounds without a pause strictly decrease the recorded index. -/
theorem recorded_descends :
    (recorded i rounds).Pairwise (fun earlier later => later < earlier) ∧ ∀ index ∈ recorded i rounds, index ≤ i.lastIndex := by
  induction rounds generalizing i with
  | nil => exact ⟨List.pairwise_singleton _ _, fun index only => List.mem_singleton.mp only ▸ UInt64.le_refl _⟩
  | cons round rest ih =>
    obtain ⟨atOnce, spinning⟩ := spins
    have lower := next_lt_of_pause atOnce
    obtain ⟨descending, bounded⟩ := ih spinning
    have below : ∀ index ∈ recorded (next i round) rest, index < i.lastIndex :=
      fun index member => UInt64.lt_of_le_of_lt (bounded index member) lower
    rw [recorded, List.scanl_cons, List.map_cons]
    refine ⟨List.pairwise_cons.mpr ⟨below, descending⟩, fun index member => ?_⟩
    rcases List.mem_cons.mp member with rfl | later
    · exact UInt64.le_refl _
    · exact UInt64.le_of_lt (below index later)

theorem spins_length :
    rounds.length ≤ i.lastIndex.toNat := by
  induction rounds generalizing i with
  | nil => exact Nat.zero_le _
  | cons round rest ih =>
    obtain ⟨atOnce, spinning⟩ := spins
    have lower := UInt64.lt_iff_toNat_lt.mp (next_lt_of_pause atOnce)
    exact Nat.lt_of_le_of_lt (ih spinning) lower

end

/-- The index before a round of an endless run. -/
def along (rounds : ℕ → Round) (n : ℕ) : ConsulWatchIndex := after ((List.range n).map rounds)

theorem along_succ (rounds : ℕ → Round) (n : ℕ) : along rounds (n + 1) = next (along rounds n) (rounds n) := by
  rw [along, List.range_succ, List.map_append, List.map_singleton, after_append_singleton]
  rfl

/-- From any round on, some round waits. -/
theorem exists_pause (rounds : ℕ → Round) (n : ℕ) : ∃ m, n ≤ m ∧ (turn (along rounds m) (rounds m)).2.pause ≠ none := by
  induction bound : (along rounds n).lastIndex.toNat using Nat.strongRecOn generalizing n with
  | _ bound ih =>
    subst bound
    by_cases atOnce : (turn (along rounds n) (rounds n)).2.pause = none
    · have lower := UInt64.lt_iff_toNat_lt.mp (next_lt_of_pause atOnce)
      rw [← along_succ] at lower
      obtain ⟨m, later, waits⟩ := ih _ lower (n + 1) rfl
      exact ⟨m, Nat.le_of_succ_le later, waits⟩
    · exact ⟨n, Nat.le_refl n, atOnce⟩

/-- The index protocol after any rounds. A round signals a change exactly if its response has a non-zero index other than the
last one of that kind. A request names the index zero exactly before the first response and as long as no response followed a
rollback. The rounds that are repeated at once are the rollbacks; a run of them strictly decreases the recorded index and is no
longer than that index, so no endless run stops waiting. -/
theorem watch_index_protocol (rounds : List Round) : (∀ round, (turn (after rounds) round).2.signalled = true ↔
        ∃ index, round = .responded (some index) ∧ index ≠ 0 ∧ lastReturned rounds ≠ some index) ∧
      (∀ round, (turn (after rounds) round).2.request = some 0 ↔
        round ≠ .clientFailed ∧ ((∀ earlier ∈ rounds, earlier.succeeded = false) ∨ SinceRollback rounds)) ∧
      (∀ round, (turn (after rounds) round).2.pause = none ↔ RollsBack rounds round) ∧
      (∀ retries, Spins (after rounds) retries →
        (recorded (after rounds) retries).Pairwise (fun earlier later => later < earlier) ∧
          retries.length ≤ (after rounds).lastIndex.toNat) ∧
      ∀ stream : ℕ → Round, ∀ n, ∃ m, n ≤ m ∧ (turn (along stream m) (stream m)).2.pause ≠ none := by
  refine ⟨fun round => ?_, fun round => ?_, pause_eq_none_iff rounds, fun retries spins => ?_, exists_pause⟩
  · rw [signalled_iff]
    refine exists_congr fun index => ?_
    rw [index_eq_some_iff, and_assoc]
  · have anchored := (after_tracks rounds).wait
    cases round with
    | clientFailed => simp [turn]
    | queryFailed | responded => simpa [turn, Unanchored] using anchored
  · exact ⟨(recorded_descends spins).1, spins_length spins⟩

/-- Two rollbacks in a row, from nine to seven to three. -/
theorem two_rollbacks_descend : Spins (after [.responded (some 9)]) [.responded (some 7), .responded (some 3)] ∧
      recorded (after [.responded (some 9)]) [.responded (some 7), .responded (some 3)] = [9, 7, 3] ∧
      (recorded (after [.responded (some 9)]) [.responded (some 7), .responded (some 3)]).Pairwise
        (fun earlier later => later < earlier) := by
  have spins : Spins (after [.responded (some 9)]) [.responded (some 7), .responded (some 3)] := ⟨by decide, by decide, trivial⟩
  exact ⟨spins, by decide, ((watch_index_protocol [.responded (some 9)]).2.2.2.1 _ spins).1⟩

end Watch

end Spotter.Providers.Consul
