import Spotter.Worker.MutualExclusion

/-! # Tickets in flight and the ledger

A call judges its items by the ledger, is away at the wrapped sink for a while, and then writes its own
entries. What it judged is still true when it comes back, because meanwhile nobody wrote the entries of
its identities. So every acknowledged write is at least as new as what the wrapped sink acknowledged of
its identity before, and the ledger only moves forward until the gate is closed.
-/

namespace Spotter.Worker

open Library Domain Ports

/-- An incremental push has at most one item per identity. -/
def SinkOp.Single : SinkOp → Prop
  | .push _ items => (keysOf items).Nodup
  | _ => True

/-- What the ledger still allows a ticket to write. -/
structure Ticket.Fits (ticket : Ticket) (s : OrderedSink) (op : SinkOp) : Prop where
  full : ticket.request.mode.full = op.exclusive
  keys : op.exclusive = false → ∀ key entry, ticket.admission.accepted.lookup key = some entry → key ∈ op.keys
  current : ∀ key entry, ticket.admission.accepted.lookup key = some entry → ∀ old, s.latest.lookup key = some old →
    old.revision ≤ entry.revision ∧ (op.exclusive = false → old.staleRevision entry.revision = false)
  recorded : ∀ write ∈ ticket.writes, ∃ entry, ticket.admission.accepted.lookup write.identity = some entry ∧
    entry.revision = write.revision
  distinct : ticket.writes.Pairwise fun first second => first.identity ≠ second.identity
  sent : ∀ trigger items, op = .push trigger items → items ≠ [] →
    ∃ item, some item ∈ items ∧ ticket.admission.accepted.lookup (identityKey item) = some (entryOf trigger item)

variable {s : OrderedSink} {request : Request} {ticket : Ticket} {op : SinkOp} {env : SinkEnv} {key : String}

/-! ## What a judgement promises -/

/-- A forwarded call carries what the ledger lets through. -/
theorem check_forward (forward : s.check request = .forward ticket) :
    s.closed = false ∧ (request.mode.full = true → (keysOf request.items).Nodup) ∧
      (request.items ≠ [] → survivors s.latest request.mode request.trigger request.items ≠ []) ∧
      ticket = ⟨request, admissionOf s.latest request.mode request.trigger request.items, s.requestCall request⟩ := by
  cases opened : s.closed with
  | true => simp [OrderedSink.check, opened] at forward
  | false =>
    by_cases distinct : request.mode.full = true → (keysOf request.items).Nodup
    · have looped := filterItems_eq_ok s.latest request.mode request.trigger request.items distinct
      simp only [OrderedSink.check, opened, Bool.false_eq_true, ↓reduceIte, looped] at forward
      split_ifs at forward with _ _ nothing
      cases forward
      refine ⟨rfl, distinct, ?_, rfl⟩
      intro some none
      simp [admissionOf, some, none] at nothing
    · obtain ⟨isFull, repeated⟩ := Classical.not_imp.mp distinct
      obtain ⟨name, looped⟩ := filterItems_eq_error s.latest request.mode request.trigger [] request.items isFull
        (by simp [keysOf]) repeated
      rw [admissionOf_nil] at looped
      simp [OrderedSink.check, opened, looped] at forward

variable {item : Instance} {old : IdentityRevision}

/-- An item that survives is not older than what the ledger has of it. -/
theorem survivor_current (survives : item ∈ survivors s.latest request.mode request.trigger request.items)
    (found : s.latest.lookup (identityKey item) = some old) :
    old.revision ≤ effectiveRevision request.trigger item ∧
      (request.mode.full = false → old.staleRevision (effectiveRevision request.trigger item) = false) := by
  have fresh := (mem_survivors.mp survives).2
  have judged : ¬(effectiveRevision request.trigger item < old.revision ∨
      (old.tombstone = true ∧ effectiveRevision request.trigger item = old.revision ∧
        ¬(request.mode.full = true ∧ request.mode.trustedComplete = true ∧ request.mode.revalidated = true ∧
          item.offline = false))) := by
    intro stale
    rw [staleItem_iff.mpr ⟨old, found, stale⟩] at fresh
    cases fresh
  rw [not_or] at judged
  refine ⟨not_lt.mp judged.1, ?_⟩
  intro shared
  rw [Bool.eq_false_iff]
  intro stale
  rcases (old.staleRevision_iff _).mp stale with below | ⟨gone, equal⟩
  · exact judged.1 below
  · refine judged.2 ⟨gone, equal, ?_⟩
    rintro ⟨full, _⟩
    rw [shared] at full
    cases full

theorem survivors_nodup (distinct : (keysOf request.items).Nodup) :
    ((survivors s.latest request.mode request.trigger request.items).map identityKey).Nodup :=
  distinct.sublist (List.filter_sublist.map identityKey)

/-- The entry of a surviving item is accepted under its identity. -/
theorem accepted_of_survivor (distinct : (keysOf request.items).Nodup)
    (survives : item ∈ survivors s.latest request.mode request.trigger request.items) :
    (admissionOf s.latest request.mode request.trigger request.items).accepted.lookup (identityKey item) =
      some (entryOf request.trigger item) := by
  set left := survivors s.latest request.mode request.trigger request.items with leftDef
  change (record request.trigger ∅ left).lookup (identityKey item) = _
  cases found : (record request.trigger ∅ left).lookup (identityKey item) with
  | none => exact absurd rfl (record_empty_eq_none.mp found item survives)
  | some entry =>
    obtain ⟨other, among, same, rfl⟩ := record_empty_lookup found
    rw [List.inj_on_of_nodup_map (leftDef ▸ survivors_nodup distinct) among survives same]

/-- A judgement promises that the ticket fits the ledger it was judged by. -/
theorem check_fits (forward : s.check request = .forward ticket) (full : request.mode.full = op.exclusive)
    (items : op.exclusive = false → (keysOf request.items).Nodup ∧ ∀ key ∈ keysOf request.items, key ∈ op.keys)
    (pushed : ∀ trigger items, op = .push trigger items → request.trigger = trigger ∧ request.items = items) :
    ticket.Fits s op := by
  obtain ⟨_, distinct, nonempty, rfl⟩ := check_forward forward
  have nodup : (keysOf request.items).Nodup := by
    cases exclusive : op.exclusive with
    | true => exact distinct (full.trans exclusive)
    | false => exact (items exclusive).1
  have writes : Ticket.writes ⟨request, admissionOf s.latest request.mode request.trigger request.items,
      s.requestCall request⟩ = (survivors s.latest request.mode request.trigger request.items).map
        fun item => ⟨identityKey item, effectiveRevision request.trigger item⟩ := by
    rw [Ticket.writes, OrderedSink.requestCall_items]
  refine ⟨full, ?_, ?_, ?_, ?_, ?_⟩
  · intro shared key entry accepted
    obtain ⟨item, survives, rfl, _⟩ := record_empty_lookup accepted
    exact (items shared).2 _ (mem_keysOf.mpr ⟨item, (mem_survivors.mp survives).1, rfl⟩)
  · intro key entry accepted old found
    obtain ⟨item, survives, rfl, rfl⟩ := record_empty_lookup accepted
    obtain ⟨above, fresh⟩ := survivor_current survives found
    exact ⟨above, fun shared => fresh (full.trans shared)⟩
  · intro write member
    rw [writes] at member
    obtain ⟨item, survives, rfl⟩ := List.mem_map.mp member
    exact ⟨_, accepted_of_survivor nodup survives, rfl⟩
  · rw [writes, List.pairwise_map]
    exact List.pairwise_map.mp (survivors_nodup nodup)
  · intro trigger items push some
    obtain ⟨rfl, rfl⟩ := pushed trigger items push
    obtain ⟨item, survives⟩ := List.exists_mem_of_ne_nil _ (nonempty some)
    exact ⟨item, (mem_survivors.mp survives).1, accepted_of_survivor nodup survives⟩

/-- The judgement of a call leaves the ledger alone, or closes the gate. -/
theorem enter_ledger (s : OrderedSink) (op : SinkOp) (env : SinkEnv) :
    ((s.enter (op, env)).1.latest = s.latest ∧ (s.enter (op, env)).1.closed = s.closed) ∨
      (op.exclusive = true ∧ (s.enter (op, env)).1.closed = true ∧ (s.enter (op, env)).1.latest = ∅ ∧
        ∀ ticket, (s.enter (op, env)).2 ≠ .forward ticket) := by
  cases op with
  | push trigger items | pushAll trigger items => exact .inl ⟨rfl, rfl⟩
  | pushAllWithRevalidate trigger items revalidate =>
    left
    simp only [OrderedSink.enter]
    split_ifs <;> exact ⟨rfl, rfl⟩
  | pushAllOperation operation =>
    left
    simp only [OrderedSink.enter]
    split_ifs
    · exact ⟨rfl, rfl⟩
    · cases resolve operation env with
      | none => exact ⟨rfl, rfl⟩
      | some resolved =>
        dsimp only
        split_ifs <;> exact ⟨rfl, rfl⟩
  | close =>
    simp only [OrderedSink.enter, OrderedSink.close]
    split_ifs
    · exact .inl ⟨rfl, rfl⟩
    · exact .inr ⟨rfl, rfl, rfl, fun ticket => Verdict.noConfusion⟩

/-- A forwarded call fits the ledger. -/
theorem enter_fits (single : op.Single) (forward : (s.enter (op, env)).2 = .forward ticket) :
    ticket.Fits (s.enter (op, env)).1 op ∧ (s.enter (op, env)).1.closed = false := by
  have fits : ∀ (gate : OrderedSink) (request : Request), gate.check request = .forward ticket →
      request.mode.full = op.exclusive → op.exclusive = true → ticket.Fits gate op ∧ gate.closed = false := by
    intro gate request judged full exclusive
    refine ⟨check_fits judged full ?_ ?_, (check_forward judged).1⟩
    · intro shared
      rw [exclusive] at shared
      cases shared
    · rintro trigger items rfl
      cases exclusive
  cases op with
  | push trigger items =>
    refine ⟨check_fits forward rfl (fun _ => ⟨single, ?_⟩) ?_, (check_forward forward).1⟩
    · intro key member
      exact (List.mem_insertionSort _).mpr (List.mem_dedup.mpr member)
    · rintro _ _ ⟨⟩
      exact ⟨rfl, rfl⟩
  | pushAll trigger items => exact fits s _ forward rfl rfl
  | pushAllWithRevalidate trigger items revalidate =>
    simp only [OrderedSink.enter] at forward ⊢
    split_ifs at forward ⊢
    · exact fits s _ forward rfl rfl
    · exact fits s _ forward rfl rfl
  | pushAllOperation operation =>
    simp only [OrderedSink.enter] at forward ⊢
    split_ifs at forward ⊢
    cases rebuilt : resolve operation env with
    | none => simp [rebuilt] at forward
    | some resolved =>
      simp only [rebuilt] at forward ⊢
      split_ifs at forward ⊢
      exact fits _ _ forward rfl rfl
  | close => cases forward

/-- A ticket fits as long as the entries of its identities stay. -/
theorem Ticket.Fits.congr {after : OrderedSink} (fits : ticket.Fits s op)
    (same : ∀ key entry, ticket.admission.accepted.lookup key = some entry → after.latest.lookup key = s.latest.lookup key) :
    ticket.Fits after op := by
  refine ⟨fits.full, fits.keys, ?_, fits.recorded, fits.distinct, fits.sent⟩
  intro key entry accepted old found
  rw [same key entry accepted] at found
  exact fits.current key entry accepted old found

/-! ## The ledger moves forward -/

/-- The gate was closed, or it is still open and no entry was lost or lowered. -/
structure OrderedSink.Onward (before after : OrderedSink) : Prop where
  shut : before.closed = true → after.closed = true
  raised : after.closed = false → ∀ key old, before.latest.lookup key = some old →
    ∃ new, after.latest.lookup key = some new ∧ old.revision ≤ new.revision

namespace OrderedSink.Onward

variable {before middle after : OrderedSink}

theorem of_same (latest : after.latest = before.latest) (closed : after.closed = before.closed) : before.Onward after := by
  refine ⟨fun shut => closed.trans shut, ?_⟩
  intro _ key old found
  exact ⟨old, latest ▸ found, le_rfl⟩

theorem of_closed (closed : after.closed = true) : before.Onward after := by
  refine ⟨fun _ => closed, ?_⟩
  intro opened
  rw [closed] at opened
  cases opened

theorem trans (first : before.Onward middle) (second : middle.Onward after) : before.Onward after := by
  refine ⟨fun shut => second.shut (first.shut shut), ?_⟩
  intro opened key old found
  have open_ : middle.closed = false := by
    by_contra shut
    have closed := second.shut (Bool.eq_true_of_not_eq_false shut)
    rw [opened] at closed
    cases closed
  obtain ⟨new, there, above⟩ := first.raised open_ key old found
  obtain ⟨newer, there', above'⟩ := second.raised opened key new there
  exact ⟨newer, there', above.trans above'⟩

end OrderedSink.Onward

theorem enter_onward (s : OrderedSink) (op : SinkOp) (env : SinkEnv) : s.Onward (s.enter (op, env)).1 := by
  rcases enter_ledger s op env with ⟨latest, closed⟩ | ⟨_, closed, _⟩
  · exact .of_same latest closed
  · exact .of_closed closed

/-- A push of a single stale item is answered at the gate. -/
theorem enter_stale {trigger : ℤ} (opened : s.closed = false) (found : s.latest.lookup (identityKey item) = some old)
    (stale : old.staleRevision (effectiveRevision trigger item) = true) :
    s.enter (.push trigger [some item], env) = (s, .answer none) := by
  have looped := filterItems_eq_ok s.latest ⟨false, false, false⟩ trigger [some item] (by simp)
  have dropped : survivors s.latest ⟨false, false, false⟩ trigger [some item] = [] := by
    apply List.filter_eq_nil_iff.mpr
    intro other member
    cases List.mem_singleton.mp member
    have judged : staleItem s.latest ⟨false, false, false⟩ trigger item = true := by
      apply staleItem_iff.mpr
      refine ⟨old, found, ?_⟩
      rcases (old.staleRevision_iff _).mp stale with below | ⟨gone, equal⟩
      · exact .inl below
      · exact .inr ⟨gone, equal, fun healing => absurd healing.1 (by decide)⟩
    simp [judged]
  simp only [OrderedSink.enter, OrderedSink.check, opened, looped, admissionOf, dropped]
  rfl

theorem acknowledge_accepted {entry : IdentityRevision} (accepted : ticket.admission.accepted.lookup key = some entry) :
    (s.acknowledge ticket).latest.lookup key = some entry := by
  simp only [OrderedSink.acknowledge, OrderedSink.commit, FiniteMap.lookup_union, accepted, Option.some_or]

/-- An identity that is not among the accepted ones keeps its revision. -/
theorem acknowledge_kept (absent : ticket.admission.accepted.lookup key = none) (found : s.latest.lookup key = some old) :
    ∃ new, (s.acknowledge ticket).latest.lookup key = some new ∧ new.revision = old.revision := by
  simp only [OrderedSink.acknowledge, OrderedSink.commit, FiniteMap.lookup_union, absent, Option.none_or]
  split_ifs
  · rw [OrderedSink.tombstoneOmitted, FiniteMap.lookup_mapValues, found, Option.map_some]
    refine ⟨_, rfl, ?_⟩
    split_ifs <;> rfl
  · exact ⟨old, found, rfl⟩

/-- An incremental push touches its own identities only. -/
theorem acknowledge_shared (absent : ticket.admission.accepted.lookup key = none)
    (shared : ticket.request.mode.full = false) : (s.acknowledge ticket).latest.lookup key = s.latest.lookup key := by
  simp only [OrderedSink.acknowledge, OrderedSink.commit, FiniteMap.lookup_union, absent, Option.none_or, shared,
    Bool.false_and, Bool.false_eq_true, ↓reduceIte]

theorem acknowledge_onward (fits : ticket.Fits s op) : s.Onward (s.acknowledge ticket) := by
  refine ⟨id, ?_⟩
  intro _ key old found
  cases accepted : ticket.admission.accepted.lookup key with
  | none =>
    obtain ⟨new, there, same⟩ := acknowledge_kept accepted found
    exact ⟨new, there, same.ge⟩
  | some entry => exact ⟨entry, acknowledge_accepted accepted, (fits.current key entry accepted old found).1⟩

/-! ## The writes along a run -/

namespace Gate

variable {gate after : Gate} {c next : Call} {index : ℕ}

/-- The write is in the ledger, or on its way there with the call that made it. -/
def Knows (gate : Gate) (write : Write) : Prop :=
  (∃ entry, gate.sink.latest.lookup write.identity = some entry ∧ write.revision ≤ entry.revision) ∨
    ∃ (i : ℕ) (c : Call) (ticket : Ticket) (entry : IdentityRevision), gate.calls[i]? = some c ∧
      c.phase = .acknowledged ticket ∧ ticket.admission.accepted.lookup write.identity = some entry ∧
      write.revision ≤ entry.revision

/-- What holds of a gate, its calls and its acknowledged writes. -/
structure Ordered (gate : Gate) : Prop where
  locked : gate.Locked
  single : ∀ c ∈ gate.calls, c.op.Single
  fits : ∀ (i : ℕ) (c : Call), gate.calls[i]? = some c → ∀ ticket, c.ticket = some ticket → ticket.Fits gate.sink c.op
  emptied : gate.sink.closed = true → gate.sink.latest = ∅
  shut : gate.sink.closed = true → ∀ (i : ℕ) (c : Call), gate.calls[i]? = some c → c.ticket = none
  known : gate.sink.closed = false → ∀ write ∈ gate.written, gate.Knows write
  sorted : gate.written.Pairwise fun earlier later => earlier.identity = later.identity → earlier.revision ≤ later.revision

theorem Ordered.open_of_ticket (ordered : gate.Ordered) (found : gate.calls[index]? = some c) (taken : c.ticket = some ticket) :
    gate.sink.closed = false := by
  by_contra closed
  have none := ordered.shut (Bool.eq_true_of_not_eq_false closed) index c found
  rw [taken] at none
  cases none

/-- A write stays known while the ledger moves forward and no acknowledged call disappears. -/
theorem Knows.mono {write : Write} (known : gate.Knows write) (onward : gate.sink.Onward after.sink)
    (opened : after.sink.closed = false)
    (kept : ∀ (i : ℕ) (d : Call) (ticket : Ticket), gate.calls[i]? = some d → d.phase = .acknowledged ticket →
      after.calls[i]? = some d ∨ ∀ key entry, ticket.admission.accepted.lookup key = some entry →
        ∃ new, after.sink.latest.lookup key = some new ∧ entry.revision ≤ new.revision) : after.Knows write := by
  rcases known with ⟨entry, found, above⟩ | ⟨i, d, ticket, entry, found, phase, accepted, above⟩
  · obtain ⟨new, there, raised⟩ := onward.raised opened _ entry found
    exact .inl ⟨new, there, above.trans raised⟩
  · rcases kept i d ticket found phase with still | recorded
    · exact .inr ⟨i, d, ticket, entry, still, phase, accepted, above⟩
    · obtain ⟨new, there, raised⟩ := recorded _ entry accepted
      exact .inl ⟨new, there, above.trans raised⟩

section

variable (ordered : gate.Ordered)

include ordered

section

variable (found : gate.calls[index]? = some c)

include found

theorem Ordered.single_set (op : next.op = c.op) :
    ∀ d ∈ gate.calls.set index next, d.op.Single := by
  intro d member
  rcases List.mem_or_eq_of_mem_set member with earlier | rfl
  · exact ordered.single d earlier
  · rw [op]
    exact ordered.single c (List.mem_of_getElem? found)

/-- A step of a call that is not recording an acknowledgement, and that leaves the ledger and the writes alone. -/
theorem Ordered.keep
    (locked : { after with calls := gate.calls.set index next }.Locked) (latest : after.sink.latest = gate.sink.latest)
    (closed : after.sink.closed = gate.sink.closed) (written : after.written = gate.written) (op : next.op = c.op)
    (taken : ∀ ticket, next.ticket = some ticket → ticket.Fits gate.sink c.op ∧ gate.sink.closed = false)
    (recording : ∀ ticket, c.phase = .acknowledged ticket → next = c) :
    { after with calls := gate.calls.set index next }.Ordered where
  locked := locked
  single := ordered.single_set found op
  fits := by
    intro i d there ticket own
    have unchanged : ∀ key entry, ticket.admission.accepted.lookup key = some entry →
        after.sink.latest.lookup key = gate.sink.latest.lookup key := fun _ _ _ => by rw [latest]
    rcases getElem?_set_cases there with ⟨rfl, rfl⟩ | ⟨_, before⟩
    · rw [op]
      exact (taken ticket own).1.congr unchanged
    · exact (ordered.fits i d before ticket own).congr unchanged
  emptied := fun shut => latest.trans (ordered.emptied (closed.symm.trans shut))
  shut := by
    intro shut i d there
    have shutBefore : gate.sink.closed = true := closed.symm.trans shut
    rcases getElem?_set_cases there with ⟨rfl, rfl⟩ | ⟨_, before⟩
    · cases own : d.ticket with
      | none => rfl
      | some ticket =>
        have opened := (taken ticket own).2
        rw [shutBefore] at opened
        cases opened
    · exact ordered.shut shutBefore i d before
  known := by
    intro opened write member
    have known := ordered.known (closed.symm.trans opened) write (written ▸ member)
    refine known.mono (.of_same latest closed) opened ?_
    intro i d ticket there phase
    left
    rcases eq_or_ne index i with rfl | here
    · have same : d = c := Option.some.inj (there.symm.trans found)
      subst same
      have bound := (List.getElem?_eq_some_iff.mp found).1
      rw [List.getElem?_set_self bound, recording ticket phase]
    · rw [List.getElem?_set_ne here]
      exact there
  sorted := by
    rw [show ({ after with calls := gate.calls.set index next } : Gate).written = gate.written from written]
    exact ordered.sorted

/-- Nobody else is at the wrapped sink when the gate is closed. -/
theorem Ordered.closes (locked : { after with calls := gate.calls.set index next }.Locked) (inside : c.inGate = true)
    (exclusive : c.op.exclusive = true) (closed : after.sink.closed = true) (emptied : after.sink.latest = ∅)
    (written : after.written = gate.written)
    (op : next.op = c.op) (none : next.ticket = none) : { after with calls := gate.calls.set index next }.Ordered := by
  have away : ∀ (i : ℕ) (d : Call), (gate.calls.set index next)[i]? = some d → d.ticket = Option.none := by
    intro i d there
    rcases getElem?_set_cases there with ⟨rfl, rfl⟩ | ⟨other, before⟩
    · exact none
    · cases own : d.ticket with
      | none => rfl
      | some ticket =>
        have within := ((ordered.locked.formed d (List.mem_of_getElem? before)).of_ticket own).1
        have shared := ((ordered.locked.apart index i c d found before other).1 inside within).1
        rw [exclusive] at shared
        cases shared
  refine ⟨locked, ordered.single_set found op, ?_, fun _ => emptied, fun _ => away, ?_, ?_⟩
  · intro i d there ticket own
    rw [away i d there] at own
    cases own
  · intro opened
    have shut : after.sink.closed = false := opened
    rw [closed] at shut
    cases shut
  · rw [show ({ after with calls := gate.calls.set index next } : Gate).written = gate.written from written]
    exact ordered.sorted

/-- What an acknowledged call writes is not older than what was written before. -/
theorem Ordered.write_above {earlier later : Write}
    (phase : c.phase = .calling ticket) (before : earlier ∈ gate.written) (now : later ∈ ticket.writes)
    (same : earlier.identity = later.identity) : earlier.revision ≤ later.revision := by
  have taken : c.ticket = some ticket := by simp only [Call.ticket, phase]
  have fits := ordered.fits index c found ticket taken
  obtain ⟨entry, accepted, revision⟩ := fits.recorded later now
  rw [← same] at accepted
  rcases ordered.known (ordered.open_of_ticket found taken) earlier before with
    ⟨old, there, above⟩ | ⟨i, d, other, theirs, there, phase', accepted', _⟩
  · have raised := (fits.current _ entry accepted old there).1
    omega
  · -- The earlier write is not recorded yet, so its call would share a key lock with this one.
    have distinct : index ≠ i := by
      rintro rfl
      cases Option.some.inj (found.symm.trans there)
      rw [phase] at phase'
      cases phase'
    have taken' : d.ticket = some other := by simp only [Call.ticket, phase']
    have fits' := ordered.fits i d there other taken'
    obtain ⟨shared, shared', disjoint⟩ := ordered.locked.identities found there distinct taken taken'
    exact absurd (fits'.keys shared' _ theirs accepted') (disjoint _ (fits.keys shared _ entry accepted))

/-- The wrapped sink acknowledges a call. -/
theorem Ordered.acknowledged (phase : c.phase = .calling ticket) (locked : { gate with
      written := gate.written ++ ticket.writes, calls := gate.calls.set index { c with phase := .acknowledged ticket } }.Locked) :
    { gate with
      written := gate.written ++ ticket.writes
      calls := gate.calls.set index { c with phase := .acknowledged ticket } }.Ordered := by
  have taken : c.ticket = some ticket := by simp only [Call.ticket, phase]
  have opened := ordered.open_of_ticket found taken
  have fits := ordered.fits index c found ticket taken
  have kept : ({ gate with calls := gate.calls.set index { c with phase := .acknowledged ticket } } : Gate).Ordered := by
    refine ordered.keep found ⟨locked.formed, locked.counts, locked.apart⟩ rfl rfl rfl rfl ?_ ?_
    · intro own same
      cases Option.some.inj same
      exact ⟨fits, opened⟩
    · intro own acknowledged
      rw [phase] at acknowledged
      cases acknowledged
  refine ⟨locked, kept.single, kept.fits, kept.emptied, kept.shut, ?_, ?_⟩
  · intro _ write member
    rcases List.mem_append.mp member with earlier | now
    · exact kept.known opened write earlier
    · obtain ⟨entry, accepted, revision⟩ := fits.recorded write now
      have bound := (List.getElem?_eq_some_iff.mp found).1
      exact .inr ⟨index, _, ticket, entry, List.getElem?_set_self bound, rfl, accepted, revision.ge⟩
  · apply List.pairwise_append.mpr
    refine ⟨ordered.sorted, ?_, ?_⟩
    · exact fits.distinct.imp fun distinct same => absurd same distinct
    · intro earlier before later now same
      exact ordered.write_above found phase before now same

/-- An acknowledged call writes its entries to the ledger. -/
theorem Ordered.records (phase : c.phase = .acknowledged ticket) (locked : { gate with
      sink := gate.sink.acknowledge ticket, calls := gate.calls.set index { c with phase := .unlocking none } }.Locked) :
    { gate with
      sink := gate.sink.acknowledge ticket
      calls := gate.calls.set index { c with phase := .unlocking none } }.Ordered := by
  have taken : c.ticket = some ticket := by simp only [Call.ticket, phase]
  have fits := ordered.fits index c found ticket taken
  have opened : (gate.sink.acknowledge ticket).closed ≠ true := by
    intro shut
    have still : gate.sink.closed = false := ordered.open_of_ticket found taken
    cases still.symm.trans shut
  refine ⟨locked, ordered.single_set found rfl, ?_, fun shut => absurd shut opened, fun shut => absurd shut opened, ?_,
    ordered.sorted⟩
  · intro i d there other own
    rcases getElem?_set_cases there with ⟨rfl, rfl⟩ | ⟨distinct, before⟩
    · cases own
    · -- The other call pushes other identities, and this one recorded only its own.
      have fits' := ordered.fits i d before other own
      obtain ⟨shared, shared', disjoint⟩ := ordered.locked.identities found before distinct taken own
      apply fits'.congr
      intro key entry accepted
      apply acknowledge_shared
      · cases mine : ticket.admission.accepted.lookup key with
        | none => rfl
        | some owned => exact absurd (fits'.keys shared' key entry accepted) (disjoint key (fits.keys shared key owned mine))
      · exact fits.full.trans shared
  · intro open_ write member
    refine (ordered.known open_ write member).mono (acknowledge_onward fits) open_ ?_
    intro i d other there acknowledged
    rcases eq_or_ne index i with rfl | here
    · cases Option.some.inj (there.symm.trans found)
      cases phase.symm.trans acknowledged
      exact .inr fun key entry accepted => ⟨entry, acknowledge_accepted accepted, le_rfl⟩
    · left
      rw [List.getElem?_set_ne here]
      exact there

/-- Every step of a call keeps the writes and the ledger in order. -/
theorem Ordered.advance (advances : gate.Advances c env after next) :
    { after with calls := gate.calls.set index next }.Ordered ∧ gate.sink.Onward after.sink := by
  have locked := ordered.locked.advance found advances
  have same : gate.sink.Onward gate.sink := .of_same rfl rfl
  have untaken : ∀ {d : Call}, d.ticket = none → ∀ ticket, d.ticket = some ticket →
      ticket.Fits gate.sink c.op ∧ gate.sink.closed = false := by
    intro d none ticket some
    rw [none] at some
    cases some
  have judged : c.Ready → ∀ ticket, c.phase = .acknowledged ticket → next = c := by
    intro ready ticket phase
    rcases ready with ⟨entered, _⟩ | ⟨locking, _⟩
    · rw [entered] at phase
      cases phase
    · rw [locking] at phase
      cases phase
  cases advances with
  | waits =>
    refine ⟨ordered.keep found locked rfl rfl rfl rfl ?_ (fun _ _ => rfl), same⟩
    exact fun ticket own => ⟨ordered.fits index c found ticket own, ordered.open_of_ticket found own⟩
  | enters phase admitted | refers phase shared | locks phase entry due free =>
    exact ⟨ordered.keep found locked rfl rfl rfl rfl (untaken rfl) (by simp [phase]), same⟩
  | answered ready err verdict =>
    refine ⟨?_, enter_onward _ _ _⟩
    rcases enter_ledger gate.sink c.op env with ⟨latest, closed⟩ | ⟨exclusive, closed, emptied, _⟩
    · exact ordered.keep found locked latest closed rfl rfl (untaken rfl) (judged ready)
    · exact ordered.closes found locked (ordered.locked.judged found ready).1 exclusive closed emptied rfl rfl rfl
  | forwarded ready ticket verdict =>
    refine ⟨?_, enter_onward _ _ _⟩
    rcases enter_ledger gate.sink c.op env with ⟨latest, closed⟩ | ⟨_, _, _, never⟩
    · refine ordered.keep found locked latest closed rfl rfl ?_ (judged ready)
      intro own taken
      cases Option.some.inj taken
      obtain ⟨fits, opened⟩ := enter_fits (ordered.single c (List.mem_of_getElem? found)) verdict
      exact ⟨fits.congr fun _ _ _ => by rw [latest], closed.symm.trans opened⟩
    · exact absurd verdict (never ticket)
  | failed ticket phase err =>
    exact ⟨ordered.keep found locked rfl rfl rfl rfl (untaken rfl) (by simp [phase]), same⟩
  | acknowledged ticket phase => exact ⟨ordered.acknowledged found phase locked, same⟩
  | records ticket phase =>
    refine ⟨ordered.records found phase locked, ?_⟩
    exact acknowledge_onward (ordered.fits index c found ticket (by simp only [Call.ticket, phase]))
  | unlocks err phase some | releases err phase none | leaves err phase =>
    exact ⟨ordered.keep found locked rfl rfl rfl rfl (untaken rfl) (by simp [phase]), same⟩

end

theorem Ordered.move (index : ℕ) (env : SinkEnv) :
    (gate.move index env).Ordered ∧ gate.sink.Onward (gate.move index env).sink := by
  rcases gate.move_advances index env with still | ⟨c, after, next, found, advances, moved⟩
  · rw [still]
    exact ⟨ordered, .of_same rfl rfl⟩
  · rw [moved]
    exact ordered.advance found advances

theorem Ordered.arrive (single : op.Single) : (gate.arrive op).Ordered where
  locked := ordered.locked.arrive op
  single := by
    intro d member
    rcases List.mem_append.mp member with earlier | last
    · exact ordered.single d earlier
    · rw [List.mem_singleton.mp last]
      exact single
  fits := by
    intro i d there ticket own
    rcases getElem?_arrive there with before | ⟨_, rfl⟩
    · exact ordered.fits i d before ticket own
    · cases own
  emptied := ordered.emptied
  shut := by
    intro shut i d there
    rcases getElem?_arrive there with before | ⟨_, rfl⟩
    · exact ordered.shut shut i d before
    · rfl
  known := by
    intro opened write member
    refine (ordered.known opened write member).mono (.of_same rfl rfl) opened ?_
    intro i d ticket there _
    exact .inl (arrive_call op there)
  sorted := ordered.sorted

end

/-- Nobody is on a fresh gate, and its ledger is empty. -/
theorem ordered_start (typed : Bool) : ({ sink := { typed := typed } } : Gate).Ordered where
  locked := locked_start _
  single := List.forall_mem_nil _
  fits := by
    intro i c found
    rw [List.getElem?_nil] at found
    cases found
  emptied := fun _ => rfl
  shut := by
    intro shut
    cases shut
  known := fun _ write nowhere => absurd nowhere List.not_mem_nil
  sorted := .nil

end Gate

end Spotter.Worker
