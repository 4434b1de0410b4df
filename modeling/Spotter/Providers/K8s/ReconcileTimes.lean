import Spotter.Providers.K8s.Reconcile

/-! # Events during a bootstrap or a compare

The consumer of events, the bootstrap and the compare each take the provider's lock several times, and read the informer
stores, the cache and the remote view in between. The steps here are those critical sections and reads, for any number of
events and compares at a time. Every write to the cache moves the generation on; a bootstrap installs the informers' snapshot
only while no write has been made, and a compare sends nothing if one was made since its own snapshot.

The cache copies instances on the way in and out, so reading it through an earlier reference is a read of the cache at an
earlier time. What the robot, the informer stores and the remote view return is the environment's choice.
-/

namespace Spotter.Providers.K8s

open Library Domain Ports Robot

/-! ## Processing an event -/

/-- How far `pod2Instance` is with an event; what is found in the cache is a copy. -/
inductive EventPhase where
  | started (obj : QueueObject) (items : List Pod)
  | comparing (event : EventType) (ins : Instance)
  | writing (event : EventType) (ins : Instance)
  | done (result : Option Instance)

/-- The read of the cache that decides about a pod the store no longer holds. -/
def Provider.lookUpGone (k : Provider) (obj : QueueObject) : EventPhase :=
  match obj.event, k.cache.get (deletedKey obj) with
  | .delete, some cached =>
    if cached.status ≠ instanceStatusOffline then .writing .delete (deletedCopy cached) else .done none
  | _, _ => .done none

/-- The conversion of a pod the store holds, with the read of the cache that an offline shell needs. -/
def Provider.lookUpFound (config : Config) (k : Provider) (obj : QueueObject) (pod : Pod) : EventPhase :=
  match config.convert obj pod with
  | none => .done none
  | some ins =>
    if offlineShell ins then
      match k.lastKnown ins with
      | none => .done none
      | some cached => .comparing obj.event (terminatedCopy cached ins)
    else .comparing obj.event ins

def Provider.lookUp (config : Config) (k : Provider) (obj : QueueObject) (items : List Pod) : EventPhase :=
  match items with
  | [] => k.lookUpGone obj
  | [pod] => if obj.uid ≠ "" ∧ pod.uid ≠ obj.uid then k.lookUpGone obj else k.lookUpFound config obj pod
  | _ => .done none

/-- The read of the cache that decides whether a converted instance is written. -/
def Provider.lookUpDiff (k : Provider) (event : EventType) (ins : Instance) : EventPhase :=
  if (k.cache.get (identityKey ins)).all fun cached => hasInstanceDiff cached ins then .writing event ins else .done none

/-- The next step of an event, with the instance that it writes. -/
def eventStep (config : Config) (k : Provider) : EventPhase → Provider × EventPhase × List Instance
  | .started obj items => (k, k.lookUp config obj items, [])
  | .comparing event ins => (k, k.lookUpDiff event ins, [])
  | .writing event ins => (k.processCache event ins, .done (some ins), [ins])
  | .done result => (k, .done result, [])

/-! ## A compare -/

/-- How far `CompareAndFlush` is. -/
inductive ComparePhase where
  | starting
  | listing (observed : ℕ)
  | installing (observed : ℕ) (source : List Instance)
  | snapshotting
  /-- The remote read is under way. -/
  | reading (all : List Instance) (generation : ℕ)
  | checking (all : List Instance) (generation : ℕ) (list : List Instance)
  | comparing (all list : List Instance)
  | done (events : Multiset Instance)

/-- What the informer stores and the remote view return to a compare, and the order in which it iterates its map. -/
structure CompareEnv where
  source : List Instance := []
  read : Except GoError (List Instance) := .ok []
  order : List Instance := []

/-- The events of a compare that passed its check. -/
def correct (config : ReconcileConfig) (all list order : List Instance) : Multiset Instance :=
  if list.isEmpty then if config.nacosReconcile then 0 else (all.map buildAndSendEvent).sum
  else compareViews config all (ofPushAppCodes config.pushAppCodes list) order

/-- The next step of a compare, its bootstrap included. -/
def compareStep (config : ReconcileConfig) (k : Provider) (env : CompareEnv) : ComparePhase → Provider × ComparePhase
  | .starting => (k, if k.generation ≠ 0 then .snapshotting else .listing k.generation)
  | .listing observed => (k, if env.source.isEmpty then .done 0 else .installing observed env.source)
  | .installing observed source =>
    (k.replaceCacheIfGeneration (source.foldl SortedStore.replaceOrInsert {}) observed, .snapshotting)
  | .snapshotting =>
    let ((all, generation, _), next) := k.snapshotForFullPushMode false
    (next, if all.isEmpty then .done 0 else .reading all generation)
  | .reading all generation =>
    (k, match env.read with
      | .ok list => .checking all generation list
      | .error _ => if config.nacosReconcile then .done 0 else .checking all generation [])
  | .checking all generation list => (k, if k.generation ≠ generation then .done 0 else .comparing all list)
  | .comparing all list => (k, .done (correct config all list env.order))
  | .done events => (k, .done events)

/-! ## The interleavings -/

/-- The provider with the events and compares under way; `written` records what events wrote to the cache. -/
structure Reconciling where
  provider : Provider := {}
  events : List EventPhase := []
  compares : List ComparePhase := []
  written : List Instance := []

/-- An event is popped, a compare begins, one of them takes its next step, or a full push takes its snapshot. -/
inductive ReconcileStep where
  | beginEvent (obj : QueueObject) (items : List Pod)
  | event (i : ℕ)
  | beginCompare
  | compare (j : ℕ) (env : CompareEnv)
  | fullPush

namespace Reconciling

variable (config : ReconcileConfig)

def event (s : Reconciling) (i : ℕ) : Reconciling :=
  match s.events[i]? with
  | none => s
  | some phase =>
    let (provider, next, write) := eventStep config.toConfig s.provider phase
    { s with provider := provider, events := s.events.set i next, written := s.written ++ write }

def compare (s : Reconciling) (j : ℕ) (env : CompareEnv) : Reconciling :=
  match s.compares[j]? with
  | none => s
  | some phase =>
    let (provider, next) := compareStep config s.provider env phase
    { s with provider := provider, compares := s.compares.set j next }

def step (s : Reconciling) : ReconcileStep → Reconciling
  | .beginEvent obj items => { s with events := s.events ++ [.started obj items] }
  | .event i => s.event config i
  | .beginCompare => { s with compares := s.compares ++ [.starting] }
  | .compare j env => s.compare config j env
  | .fullPush => { s with provider := (s.provider.snapshotForFullPushMode true).2 }

def after (s : Reconciling) (history : List ReconcileStep) : Reconciling := history.foldl (step config) s

end Reconciling

/-! ## How the generation moves on -/

variable {config : ReconcileConfig} {k next : Provider} {env : CompareEnv} {written later : List Instance}

/-- The generation stays or moves on by one. -/
def MovesOn (generation next : ℕ) : Prop := generation ≤ next ∧ next ≤ generation + 1

variable (generation : ℕ)

theorem MovesOn.refl : MovesOn generation generation := ⟨Nat.le_refl _, Nat.le_succ _⟩

theorem MovesOn.succ : MovesOn generation (generation + 1) := ⟨Nat.le_succ _, Nat.le_refl _⟩

theorem replaceCacheIfGeneration_generation (candidate : Cache) (observed : ℕ) :
    MovesOn k.generation (k.replaceCacheIfGeneration candidate observed).generation := by
  unfold Provider.replaceCacheIfGeneration
  split_ifs
  · exact .refl _
  · exact .succ _

theorem compareStep_generation (phase : ComparePhase) : MovesOn k.generation (compareStep config k env phase).1.generation := by
  cases phase with
  | installing observed source => exact replaceCacheIfGeneration_generation _ _
  | _ => exact .refl _

theorem eventStep_generation (phase : EventPhase) : MovesOn k.generation (eventStep config.toConfig k phase).1.generation := by
  cases phase with
  | writing event ins => exact .succ _
  | started _ _ | comparing _ | done _ => exact .refl _

namespace Reconciling

variable {s : Reconciling} {j : ℕ} {phase : ComparePhase}

theorem step_generation (event : ReconcileStep) :
    MovesOn s.provider.generation (s.step config event).provider.generation := by
  cases event with
  | event i =>
    simp only [step, Reconciling.event]
    cases s.events[i]? with
    | none => exact .refl _
    | some phase => exact eventStep_generation phase
  | compare j env =>
    simp only [step, Reconciling.compare]
    cases s.compares[j]? with
    | none => exact .refl _
    | some phase => exact compareStep_generation phase
  | beginEvent _ _ | beginCompare | fullPush => exact .refl _

variable (history : List ReconcileStep)

/-- Each step moves the generation on by one at most, so 64 bits hold it for as many steps. -/
theorem after_generation_le :
    (s.after config history).provider.generation ≤ s.provider.generation + history.length := by
  induction history generalizing s with
  | nil => exact Nat.le_refl _
  | cons event rest ih =>
    have moved : (s.step config event).provider.generation ≤ _ := (step_generation event).2
    have later : ((s.step config event).after config rest).provider.generation ≤ _ := ih
    change ((s.step config event).after config rest).provider.generation ≤ _
    rw [List.length_cons]
    omega

theorem after_append (history later : List ReconcileStep) :
    s.after config (history ++ later) = (s.after config history).after config later := by
  rw [after, after, after, List.foldl_append]

/-- A property of a compare's phase at the cache's generation that its own steps keep and that lasts while the generation
moves on. -/
structure Lasts (config : ReconcileConfig) (P : ℕ → ComparePhase → Prop) : Prop where
  own : ∀ k env phase, P k.generation phase → P (compareStep config k env phase).1.generation (compareStep config k env phase).2
  mono : ∀ {g g' : ℕ} {phase : ComparePhase}, g ≤ g' → P g phase → P g' phase

variable {P : ℕ → ComparePhase → Prop}

/-- What lasts for a compare holds of it after a step. -/
theorem Lasts.step (lasts : Lasts config P) (found : s.compares[j]? = some phase) (holds : P s.provider.generation phase) (event : ReconcileStep) :
    ∃ next, (s.step config event).compares[j]? = some next ∧ P (s.step config event).provider.generation next := by
  have bound := (List.getElem?_eq_some_iff.mp found).1
  have kept : (s.step config event).compares[j]? = some phase →
      ∃ next, (s.step config event).compares[j]? = some next ∧ P (s.step config event).provider.generation next :=
    fun same => ⟨phase, same, lasts.mono (step_generation event).1 holds⟩
  cases event with
  | beginEvent obj items => exact kept found
  | event i =>
    apply kept
    simp only [Reconciling.step, Reconciling.event]
    cases s.events[i]? with
    | none => exact found
    | some other => exact found
  | beginCompare =>
    apply kept
    simp only [Reconciling.step, List.getElem?_append_left bound]
    exact found
  | compare i env =>
    rcases eq_or_ne i j with rfl | other
    · simp only [Reconciling.step, Reconciling.compare, found, List.getElem?_set_self bound]
      exact ⟨_, rfl, lasts.own _ _ _ holds⟩
    · apply kept
      simp only [Reconciling.step, Reconciling.compare]
      cases s.compares[i]? with
      | none => exact found
      | some phase => simpa only [List.getElem?_set_ne other] using found
  | fullPush => exact kept found

theorem Lasts.after (lasts : Lasts config P) (found : s.compares[j]? = some phase) (holds : P s.provider.generation phase) (history : List ReconcileStep) :
    ∃ next, (s.after config history).compares[j]? = some next ∧ P (s.after config history).provider.generation next := by
  induction history generalizing s phase with
  | nil => exact ⟨phase, found, holds⟩
  | cons event rest ih =>
    obtain ⟨next, found', holds'⟩ := lasts.step found holds event
    exact ih found' holds'

/-- What holds of a compare that begins, and lasts, holds of all compares. -/
theorem Lasts.forall_step (lasts : Lasts config P) (begins : ∀ g, P g .starting)
    (all : ∀ phase ∈ s.compares, P s.provider.generation phase) (event : ReconcileStep) :
    ∀ phase ∈ (s.step config event).compares, P (s.step config event).provider.generation phase := by
  intro phase member
  obtain ⟨j, found⟩ := List.mem_iff_getElem?.mp member
  cases earlier : s.compares[j]? with
  | some before =>
    obtain ⟨after, found', holds⟩ := lasts.step earlier (all before (List.mem_of_getElem? earlier)) event
    rw [found] at found'
    cases found'
    exact holds
  | none =>
    have bound := List.getElem?_eq_none_iff.mp earlier
    have new : phase = .starting := by
      have grown := (List.getElem?_eq_some_iff.mp found).1
      cases event with
      | beginCompare =>
        simp only [Reconciling.step, List.getElem?_append_right bound] at found
        exact List.mem_singleton.mp (List.mem_of_getElem? found)
      | beginEvent | fullPush => exact absurd grown (Nat.not_lt.mpr bound)
      | event i =>
        simp only [Reconciling.step, Reconciling.event] at grown
        split at grown
        all_goals exact absurd grown (Nat.not_lt.mpr bound)
      | compare i env =>
        simp only [Reconciling.step, Reconciling.compare] at grown
        split at grown
        · exact absurd grown (Nat.not_lt.mpr bound)
        · exact absurd grown (by simpa using bound)
    rw [new]
    exact begins _

/-! ## What a compare has seen -/

/-- A bootstrap goes on only if it observed the generation zero, and a snapshot is not newer than the cache. -/
def Timely : ComparePhase → Prop
  | .listing observed => observed = 0
  | .installing observed _ => observed = 0
  | .reading _ taken => taken ≤ generation
  | .checking _ taken _ => taken ≤ generation
  | _ => True

/-- The compare took its snapshot, at a generation not after the given one. -/
def TakenBy : ComparePhase → Prop
  | .reading _ taken => taken ≤ generation
  | .checking _ taken _ => taken ≤ generation
  | .comparing _ _ => True
  | .done _ => True
  | _ => False

/-- The compare sends nothing: its snapshot is older than the cache, or it ended without events. -/
def Outdated : ComparePhase → Prop
  | .reading _ taken => taken < generation
  | .checking _ taken _ => taken < generation
  | .done events => events = 0
  | _ => False

theorem timely_lasts : Lasts config Timely where
  mono {g g' phase} moved timely := by
    cases phase with
    | reading all taken | checking all taken list => exact timely.trans moved
    | _ => exact timely
  own k env phase timely := by
    cases phase with
    | starting =>
      simp only [compareStep]
      split_ifs with processed
      · trivial
      · exact not_not.mp processed
    | listing seen =>
      simp only [compareStep]
      split_ifs
      · trivial
      · exact timely
    | installing seen source => trivial
    | snapshotting =>
      simp only [compareStep]
      split_ifs
      · trivial
      · exact Nat.le_refl _
    | reading all taken =>
      simp only [compareStep]
      cases env.read with
      | ok list => exact timely
      | error err =>
        simp only
        split_ifs
        · trivial
        · exact timely
    | checking all taken list =>
      simp only [compareStep]
      split_ifs
      · trivial
      · trivial
    | comparing _ _ | done _ => trivial

theorem takenBy_lasts : Lasts config fun _ => TakenBy generation where
  mono _ taken := taken
  own k env phase taken := by
    cases phase with
    | reading all at_ =>
      simp only [compareStep]
      cases env.read with
      | ok list => exact taken
      | error err =>
        simp only
        split_ifs
        · trivial
        · exact taken
    | checking all at_ list =>
      simp only [compareStep]
      split_ifs
      · trivial
      · trivial
    | comparing _ _ | done _ => trivial
    | _ => exact absurd taken not_false

theorem outdated_lasts : Lasts config Outdated where
  mono {g g' phase} moved outdated := by
    cases phase with
    | reading all taken | checking all taken list => exact Nat.lt_of_lt_of_le outdated moved
    | done events => exact outdated
    | _ => exact absurd outdated not_false
  own k env phase outdated := by
    cases phase with
    | reading all taken =>
      simp only [compareStep]
      cases env.read with
      | ok list => exact outdated
      | error err =>
        simp only
        split_ifs
        · rfl
        · exact outdated
    | checking all taken list =>
      have changed : k.generation ≠ taken := Nat.ne_of_gt outdated
      simp only [compareStep, if_pos changed]
      rfl
    | done events => exact outdated
    | _ => exact absurd outdated not_false

theorem after_timely :
    ∀ phase ∈ (after config {} history).compares, Timely (after config {} history).provider.generation phase := by
  induction history using List.reverseRecOn with
  | nil =>
    intro phase nowhere
    exact absurd nowhere List.not_mem_nil
  | append_singleton earlier event ih =>
    rw [after_append]
    exact timely_lasts.forall_step (fun _ => trivial) ih event

/-! ## What a step does to the cache -/

/-- A step leaves the cache alone, writes an instance of an event, or installs a snapshot where nothing was written yet. -/
inductive CacheMove (k : Provider) (written : List Instance) : Provider → List Instance → Prop where
  | keeps (next : Provider) (cache : next.cache = k.cache) (generation : next.generation = k.generation) :
      CacheMove k written next written
  | writes (event : EventType) (ins : Instance) : CacheMove k written (k.processCache event ins) (written ++ [ins])
  | installs (candidate : Cache) (fresh : k.generation = 0) :
      CacheMove k written { k with cache := candidate, generation := k.generation + 1 } written

theorem eventStep_move (phase : EventPhase) :
    CacheMove k written (eventStep config.toConfig k phase).1 (written ++ (eventStep config.toConfig k phase).2.2) := by
  cases phase with
  | writing event ins => exact .writes event ins
  | started _ _ | comparing _ _ | done _ =>
    simp only [eventStep, List.append_nil]
    exact .keeps k rfl rfl

theorem compareStep_move (timely : Timely k.generation phase) : CacheMove k written (compareStep config k env phase).1 written := by
  cases phase with
  | installing seen source =>
    simp only [Timely] at timely
    subst timely
    simp only [compareStep, Provider.replaceCacheIfGeneration]
    split_ifs with changed
    · exact .keeps k rfl rfl
    · exact .installs _ (not_not.mp changed)
  | snapshotting => exact .keeps _ rfl rfl
  | _ => exact .keeps k rfl rfl

theorem step_move (timely : ∀ phase ∈ s.compares, Timely s.provider.generation phase) (event : ReconcileStep) :
    CacheMove s.provider s.written (s.step config event).provider (s.step config event).written := by
  cases event with
  | beginEvent obj items => exact .keeps _ rfl rfl
  | event i =>
    simp only [step, Reconciling.event]
    cases s.events[i]? with
    | none => exact .keeps _ rfl rfl
    | some phase => exact eventStep_move phase
  | beginCompare => exact .keeps _ rfl rfl
  | compare j env =>
    simp only [step, Reconciling.compare]
    cases found : s.compares[j]? with
    | none => exact .keeps _ rfl rfl
    | some phase => exact compareStep_move (timely phase (List.mem_of_getElem? found))
  | fullPush => exact .keeps _ rfl rfl

/-! ## What events wrote stays -/

/-- What events wrote last of an identity. -/
def lastWritten (written : List Instance) (identity : String) : Option Instance :=
  (written.filter fun ins => decide (identityKey ins = identity)).getLast?

/-- The cache holds what events wrote, and a written cache has left the generation zero. -/
structure Kept (k : Provider) (written : List Instance) : Prop where
  processed : written ≠ [] → k.generation ≠ 0
  latest : ∀ identity ins, lastWritten written identity = some ins → k.cache.find identity = some ins

theorem lastWritten_append (written : List Instance) (ins : Instance) (identity : String) :
    lastWritten (written ++ [ins]) identity = if identity = identityKey ins then some ins else lastWritten written identity := by
  simp only [lastWritten, List.filter_append]
  split_ifs with own
  · have matching : [ins].filter (fun ins => decide (identityKey ins = identity)) = [ins] := by simp [own]
    rw [matching, List.getLast?_concat]
  · have other : [ins].filter (fun ins => decide (identityKey ins = identity)) = [] := by simp [Ne.symm own]
    rw [other, List.append_nil]

theorem Kept.move (kept : Kept k written) (move : CacheMove k written next later) : Kept next later := by
  cases move with
  | keeps _ cache generation =>
    refine ⟨?_, ?_⟩
    · rw [generation]
      exact kept.processed
    · rw [cache]
      exact kept.latest
  | writes event ins =>
    refine ⟨fun _ => Nat.succ_ne_zero _, ?_⟩
    intro identity last found
    rw [lastWritten_append] at found
    simp only [Provider.processCache_eq, SortedStore.find_replaceOrInsert]
    split_ifs at found ⊢
    · exact found
    · exact kept.latest identity last found
  | installs candidate fresh =>
    -- Nothing was written while the generation was zero.
    have none : written = [] := by
      by_contra some
      exact kept.processed some fresh
    subst none
    refine ⟨fun some => absurd rfl some, ?_⟩
    intro identity last found
    simp [lastWritten] at found

theorem after_kept :
    Kept (after config {} history).provider (after config {} history).written := by
  induction history using List.reverseRecOn with
  | nil => exact ⟨fun some => absurd rfl some, fun _ _ found => by simp [after, lastWritten] at found⟩
  | append_singleton earlier event ih =>
    rw [after_append]
    exact ih.move (step_move (after_timely earlier) event)

/-! ## Changes during a remote read -/

/-- From one time to a later one the generation moves on, unless the cache stays as it is. -/
structure MovesOn (s t : Reconciling) : Prop where
  generation : s.provider.generation ≤ t.provider.generation
  same : t.provider.generation = s.provider.generation → t.provider.cache = s.provider.cache ∧ t.written = s.written

theorem MovesOn.refl (s : Reconciling) : MovesOn s s := ⟨Nat.le_refl _, fun _ => ⟨rfl, rfl⟩⟩

theorem MovesOn.trans {s t u : Reconciling} (first : MovesOn s t) (second : MovesOn t u) : MovesOn s u := by
  refine ⟨first.generation.trans second.generation, ?_⟩
  intro equal
  have between := first.generation
  have between' := second.generation
  obtain ⟨cache, written⟩ := first.same (by omega)
  obtain ⟨cache', written'⟩ := second.same (by omega)
  exact ⟨cache'.trans cache, written'.trans written⟩

theorem movesOn_of_cacheMove {s t : Reconciling} (move : CacheMove s.provider s.written t.provider t.written) : MovesOn s t := by
  obtain ⟨provider, events, compares, written⟩ := t
  cases move with
  | keeps _ cache generation => exact ⟨Nat.le_of_eq generation.symm, fun _ => ⟨cache, rfl⟩⟩
  | writes ins | installs candidate fresh => exact ⟨Nat.le_succ _, fun equal => absurd equal (Nat.succ_ne_self _)⟩

theorem after_movesOn (earlier later : List ReconcileStep) :
    MovesOn (after config {} earlier) (after config {} (earlier ++ later)) := by
  induction later using List.reverseRecOn with
  | nil =>
    rw [List.append_nil]
    exact .refl _
  | append_singleton before event ih =>
    rw [← List.append_assoc, after_append]
    exact ih.trans (movesOn_of_cacheMove (step_move (after_timely _) event))

/-- The cache holds of every identity what an event wrote of it last, and a compare during whose remote read the cache changed
sends nothing. -/
theorem reconcile_uses_one_time (config : ReconcileConfig) (history : List ReconcileStep) :
    (∀ identity ins, lastWritten (after config {} history).written identity = some ins →
      (after config {} history).provider.cache.find identity = some ins) ∧
    (∀ earlier during rest (j : ℕ) all all' generation generation' events, history = earlier ++ during ++ rest →
      (after config {} earlier).compares[j]? = some (.reading all generation) →
      (after config {} (earlier ++ during)).compares[j]? = some (.reading all' generation') →
      (after config {} (earlier ++ during)).provider.cache ≠ (after config {} earlier).provider.cache ∨
        (after config {} (earlier ++ during)).written ≠ (after config {} earlier).written →
      (after config {} history).compares[j]? = some (.done events) → events = 0) := by
  refine ⟨(after_kept history).latest, ?_⟩
  rintro earlier during rest j all all' generation generation' events rfl snapshot reading changed ended
  -- The snapshot was taken at a generation that the change left behind.
  have taken : generation ≤ (after config {} earlier).provider.generation :=
    after_timely earlier _ (List.mem_of_getElem? snapshot)
  have takenBy : Lasts config fun _ => TakenBy (after config {} earlier).provider.generation := takenBy_lasts _
  obtain ⟨phase, found, by_⟩ := takenBy.after snapshot taken during
  rw [← after_append, reading] at found
  cases found
  have movesOn : MovesOn (after config {} earlier) (after config {} (earlier ++ during)) := after_movesOn earlier during
  have beyond : generation' < (after config {} (earlier ++ during)).provider.generation := by
    have moved : (after config {} (earlier ++ during)).provider.generation ≠ (after config {} earlier).provider.generation := by
      intro equal
      obtain ⟨cache, written⟩ := movesOn.same equal
      rcases changed with other | other
      · exact other cache
      · exact other written
    have before : generation' ≤ (after config {} earlier).provider.generation := by_
    have forward := movesOn.generation
    omega
  have lasting : Lasts config Outdated := outdated_lasts
  obtain ⟨last, found, outdated⟩ := lasting.after reading beyond rest
  rw [← after_append, ended] at found
  cases found
  exact outdated

def atlasConfig : ReconcileConfig where
  lib := ⟨id, fun _ => 0, fun _ => 0, fun _ _ => 0⟩
  json := ⟨Instance.instanceId, fun _ => none⟩
  nacosReconcile := false

def listedInstance : Instance := { sourceKey := "east/uid-1", instanceId := "orders-0", status := instanceStatusOnline }

/-- A compare installs the informers' snapshot, takes its own and begins its remote read. -/
def readingRemote : List ReconcileStep :=
  [.beginCompare, .compare 0 {}, .compare 0 { source := [listedInstance] }, .compare 0 {}, .compare 0 {}]

/-- The listed pod is deleted. -/
def processingDeletion : List ReconcileStep :=
  [.beginEvent { key := "shop/orders-0", clusterID := "east", uid := "uid-1", event := .delete } [], .event 0, .event 0]

/-- The compare goes on, and another one bootstraps. -/
def goingOn : List ReconcileStep :=
  [.compare 0 {}, .compare 0 {}, .beginCompare, .compare 1 {}, .compare 1 { source := [listedInstance] }, .compare 1 {}]

/-- The tombstone stays, and the compare sends nothing. -/
theorem deletion_during_read :
    (after atlasConfig {} (readingRemote ++ processingDeletion ++ goingOn)).provider.cache.find "east/uid-1" =
        some (deletedCopy listedInstance) ∧
      ∃ events, (after atlasConfig {} (readingRemote ++ processingDeletion ++ goingOn)).compares[0]? = some (.done events) ∧
        events = 0 := by
  have oneTime := reconcile_uses_one_time atlasConfig (readingRemote ++ processingDeletion ++ goingOn)
  refine ⟨oneTime.1 _ _ (by decide +kernel), _, rfl, ?_⟩
  refine oneTime.2 readingRemote processingDeletion goingOn 0 _ _ _ _ _ rfl rfl rfl (.inr ?_) rfl
  decide +kernel

end Reconciling


end Spotter.Providers.K8s
