import Mathlib.Data.Prod.Lex
import Spotter.Library.LastWriter
import Spotter.Worker.Ledger

/-! # Delivery order of incremental pushes

Over one identity the gate is a last-writer-wins register ranked by the pair of effective revision
and offline flag: at one revision a removal beats a registration, and only a registration may be
written again. Retries and concurrent providers may therefore deliver in any order.
-/

namespace Spotter.Worker

open Library Domain Ports

/-- An incremental push of one item, with its trigger. -/
abbrev SinglePush := ℤ × Instance

namespace SinglePush

/-- The order in which the gate ranks pushes of one identity. -/
def rank (single : SinglePush) : ℤ ×ₗ Bool :=
  toLex (effectiveRevision single.1 single.2, single.2.offline)

end SinglePush

/-- A register that holds a live rank accepts it again. -/
def acceptsAgain (held : ℤ ×ₗ Bool) : Bool := !(ofLex held).2

/-- The ledger entry of a rank. -/
def entryOfRank (held : ℤ ×ₗ Bool) : IdentityRevision := ⟨(ofLex held).1, (ofLex held).2⟩

theorem entryOfRank_rank (single : SinglePush) : entryOfRank single.rank = entryOf single.1 single.2 := rfl

/-- The incremental gate and the register make the same decision. -/
theorem staleRevision_eq_refused (held : ℤ ×ₗ Bool) (single : SinglePush) :
    (entryOfRank held).staleRevision (effectiveRevision single.1 single.2) =
      !LastWriter.accepts SinglePush.rank acceptsAgain (some held) single := by
  obtain ⟨⟨revision, tombstone⟩, rfl⟩ := toLex.surjective held
  rw [Bool.eq_iff_iff, IdentityRevision.staleRevision_iff]
  simp only [entryOfRank, LastWriter.accepts, SinglePush.rank, acceptsAgain, ofLex_toLex, Prod.Lex.toLex_lt_toLex,
    toLex_inj, Prod.mk.injEq]
  generalize effectiveRevision single.1 single.2 = incoming
  -- A tombstone refuses its own revision outright; a live entry lets both flags through.
  cases tombstone <;> cases single.2.offline <;> simp <;> omega

/-- The gate after a sequence of single pushes that the wrapped sink acknowledges, and what it received. -/
def deliver (s : OrderedSink) (arrival : List SinglePush) : OrderedSink × List InnerCall :=
  arrival.foldl (fun state single =>
    let outcome := state.1.push single.1 [some single.2] .acknowledging
    (outcome.sink, state.2 ++ outcome.call.toList)) (s, [])

theorem deliver_append (s : OrderedSink) (earlier : List SinglePush) (single : SinglePush) : deliver s (earlier ++ [single]) =
      let outcome := (deliver s earlier).1.push single.1 [some single.2] .acknowledging
      (outcome.sink, (deliver s earlier).2 ++ outcome.call.toList) := by
  simp only [deliver, List.foldl_concat]

/-- An open gate forwards a single item exactly when its ledger does not judge it superseded. -/
theorem push_single {s : OrderedSink} (opened : s.closed = false) (single : SinglePush) :
    s.push single.1 [some single.2] .acknowledging =
      if staleItem s.latest ⟨false, false, false⟩ single.1 single.2 then { sink := s }
      else
        { sink := { s with latest := record single.1 ∅ [single.2] ∪ s.latest }
          call := some (.push single.1 [single.2]) } := by
  by_cases stale : staleItem s.latest ⟨false, false, false⟩ single.1 single.2 = true <;>
    simp [OrderedSink.push, OrderedSink.runLocked, filterItems, filterItem, opened, stale, OrderedSink.innerCall,
      OrderedSink.commit, operationScope, record, SinkEnv.acknowledging]

/-- Over one identity, delivery is the register: the ledger holds its rank and the wrapped sink
received exactly the accepted writes. -/
theorem deliver_refines_register (typed : Bool) {key : String} {arrival : List SinglePush}
    (identity : ∀ single ∈ arrival, identityKey single.2 = key) :
    let final := deliver { typed := typed } arrival
    let register := LastWriter.register SinglePush.rank acceptsAgain arrival
    final.1.closed = false ∧ final.1.latest.lookup key = register.1.map entryOfRank ∧
      final.2 = register.2.map (fun single => InnerCall.push single.1 [single.2]) := by
  induction arrival using List.reverseRecOn with
  | nil => exact ⟨rfl, rfl, rfl⟩
  | append_singleton earlier single ih =>
    obtain ⟨opened, ledger, received⟩ := ih (fun other member => identity other (by simp [member]))
    have named : identityKey single.2 = key := identity single (by simp)
    rw [deliver_append, LastWriter.register_append, push_single opened, LastWriter.absorb]
    have decision : staleItem (deliver { typed := typed } earlier).1.latest ⟨false, false, false⟩ single.1 single.2 =
        !LastWriter.accepts SinglePush.rank acceptsAgain
          (LastWriter.register SinglePush.rank acceptsAgain earlier).1 single := by
      rw [staleItem, named, ledger]
      cases (LastWriter.register SinglePush.rank acceptsAgain earlier).1 with
      | none => rfl
      | some held =>
        simp only [Option.map_some, staleRevision_eq_refused, IdentityRevision.trustedEqualRevisionHeal,
          Bool.false_and, Bool.not_false, Bool.and_true]
    cases accepted : LastWriter.accepts SinglePush.rank acceptsAgain
        (LastWriter.register SinglePush.rank acceptsAgain earlier).1 single with
    | false =>
      simp only [decision, accepted, Bool.not_false, ↓reduceIte, Bool.false_eq_true, Option.toList_none, List.append_nil]
      exact ⟨opened, ledger, received⟩
    | true =>
      simp only [decision, accepted, Bool.not_true, ↓reduceIte, Bool.false_eq_true, Option.toList_some,
        List.map_append, List.map_cons, List.map_nil, received, Option.map_some, entryOfRank_rank]
      refine ⟨opened, ?_, trivial⟩
      rw [FiniteMap.lookup_union, record, List.foldl_cons, List.foldl_nil, named, Finmap.lookup_insert, Option.some_or]

/-- For every order of arrival at a fresh gate whose wrapped sink acknowledges every write, the last
item forwarded and the final ledger entry are those of the greatest push. -/
theorem deliver_greatest (typed : Bool) {key : String} {pushes arrival : List SinglePush} {greatest : SinglePush}
    (identity : ∀ single ∈ pushes, identityKey single.2 = key)
    (ties : ∀ first ∈ pushes, ∀ second ∈ pushes, effectiveRevision first.1 first.2 = effectiveRevision second.1 second.2 →
      first.2.offline = second.2.offline → first.2 = second.2)
    (member : greatest ∈ pushes) (bound : ∀ single ∈ pushes, single.rank ≤ greatest.rank)
    (order : arrival.Perm pushes) :
    ((deliver { typed := typed } arrival).2.getLast?).map InnerCall.items = some [greatest.2] ∧
      (deliver { typed := typed } arrival).1.latest.lookup key = some (entryOf greatest.1 greatest.2) := by
  obtain ⟨_, ledger, received⟩ := deliver_refines_register typed
    (fun single among => identity single (order.mem_iff.mp among))
  obtain ⟨held, last, among, same, tail⟩ := LastWriter.register_greatest SinglePush.rank acceptsAgain
    (order.mem_iff.mpr member) (fun single inArrival => bound single (order.mem_iff.mp inArrival))
  have equal : last.2 = greatest.2 := by
    have ranks := Prod.ext_iff.mp (toLex_inj.mp same)
    exact ties last (order.mem_iff.mp among) greatest member ranks.1 ranks.2
  refine ⟨?_, ?_⟩
  · rw [received, List.getLast?_map, tail]
    simp only [Option.map_some, InnerCall.items, equal]
  · rw [ledger, held, Option.map_some, entryOfRank_rank]

/-- A pod that flaps: registered, updated, and removed at the revision of the update. -/
def registered : Instance := { sourceKey := "k8s/prod/uid-a", instanceId := "pod-a", reversion := 5, status := 1 }
def updated : Instance := { registered with reversion := 7 }
def removed : Instance := { updated with status := 3 }

/-- The removal wins even when it arrives before the update it belongs to. -/
theorem deliver_greatest_flap :
    ((deliver { typed := true } [(13, removed), (11, registered), (12, updated)]).2.getLast?).map InnerCall.items =
        some [removed] ∧
      (deliver { typed := true } [(13, removed), (11, registered), (12, updated)]).1.latest.lookup "k8s/prod/uid-a" =
        some ⟨7, true⟩ := by
  have member : ((13, removed) : SinglePush) ∈ [(11, registered), (12, updated), (13, removed)] := by simp
  refine deliver_greatest true ?_ ?_ member ?_ ?_
  · decide
  · decide
  · decide
  · decide

end Spotter.Worker
