import Spotter.Library.History
import Spotter.Nacos.Steps

/-! # Claims on composite ids

A register reserves its composite id before it sends and gives the reservation up when it has its answer.
Registers of one owner scope share a reservation without counting each other, so the first of them to fail
gives it up for all, and so does an acknowledged removal. As long as nobody gives up a reservation that
another register still relies on, registers of different owner scopes never hold one id together.
-/

namespace Spotter.Nacos

open Library Domain Ports

/-! ## Concurrent calls on one sink -/

/-- The pair a job is about. -/
def Job.pair : Job → ClusterKey
  | .register ins => clusterKeyOf ins
  | .deregister ins => clusterKeyOf ins
  | .sweep task => task.key

/-- Any number of register, deregister and prune calls under way on one sink. -/
structure Pool where
  world : World
  threads : List Thread := []

inductive PoolStep where
  | call (job : Job)
  | move (index : ℕ) (answer : Answer)

variable (config : Config)

namespace Pool

def step (pool : Pool) : PoolStep → Pool
  | .call job => { pool with threads := pool.threads ++ [{ job := job, scope := job.pair }] }
  | .move index answer =>
    let next := moveThread config pool.world pool.threads index answer
    ⟨next.1, next.2⟩

/-- The pool after a history of steps. -/
def after (pool : Pool) (history : List PoolStep) : Pool := history.foldl (step config) pool

end Pool

/-! ## Claims and what deletes them -/

/-- The thread is past its checks and has not given its claim up. -/
def Phase.claiming : Phase → Bool
  | .admitted _ => true
  | .answered _ _ => true
  | _ => false

variable {ins : Instance} {t : Thread}

namespace Thread

/-- The instance of a register between its successful claim and its release. -/
def inFlight (t : Thread) : Option Instance :=
  match t.job with
  | .register ins => if t.phase.claiming then some ins else none
  | _ => none

theorem inFlight_eq_some :
    t.inFlight = some ins ↔ t.job = .register ins ∧ t.phase.claiming = true := by
  cases job : t.job with
  | register other =>
    simp only [inFlight, job]
    split_ifs with claiming
    · simp [claiming]
    · simp [claiming]
  | deregister other | sweep task => simp [inFlight, job]

theorem inFlight_eq_none (landed : t.phase.claiming = false) : t.inFlight = none := by
  rw [Option.eq_none_iff_forall_not_mem]
  intro ins flying
  rw [(inFlight_eq_some.mp flying).2] at landed
  cases landed

/-- The id whose reservation or owner the thread's next step deletes: a failed register gives up the claim it
made, an acknowledged removal forgets its host. -/
def drops (t : Thread) : Option String :=
  match t.job, t.phase with
  | .register ins, .answered true (some _) => some (compositeIDWithGroup ins config.group)
  | .register _, _ => none
  | job, .answered _ none => (job.removal config).map (forgottenID config)
  | _, _ => none

end Thread

/-- Registers in flight on one id have one owner scope. -/
def Exclusive (threads : List Thread) : Prop :=
  ∀ t ∈ threads, ∀ u ∈ threads, ∀ ins other, t.inFlight = some ins → u.inFlight = some other →
    compositeIDWithGroup ins config.group = compositeIDWithGroup other config.group →
    wireOwnerScope ins = wireOwnerScope other

/-- The step deletes no reservation or owner of an id that another register has in flight. -/
def DropsAlone (threads : List Thread) : PoolStep → Prop
  | .call _ => True
  | .move index _ => ∀ t, threads[index]? = some t → ∀ id, t.drops config = some id →
      ∀ position u ins, position ≠ index → threads[position]? = some u → u.inFlight = some ins →
        compositeIDWithGroup ins config.group ≠ id

theorem dropsAlone_of_none {config : Config} {threads : List Thread} {index : ℕ} {answer : Answer}
    (quiet : (threads[index]?).bind (Thread.drops config) = none) : DropsAlone config threads (.move index answer) := by
  intro t found id drops
  rw [found, Option.bind_some, drops] at quiet
  cases quiet

/-- The id is reserved or recorded for the scope. -/
def Held (o : Ownership) (id scope : String) : Prop := o.wireClaims.value id = scope ∨ o.wireOwners.value id = scope

/-- Every register in flight has its id reserved or recorded, and shares it only with its own scope. -/
structure Protected (o : Ownership) (threads : List Thread) : Prop where
  held : ∀ t ∈ threads, ∀ ins, t.inFlight = some ins → Held o (compositeIDWithGroup ins config.group) (wireOwnerScope ins)
  exclusive : Exclusive config threads

variable {config : Config} {world : World} {threads : List Thread} {index : ℕ} {answer : Answer} {o : Ownership}

/-- A granted claim is held, and whoever else holds the id has the same scope. -/
theorem Held.claim {next : Ownership} {claimed : Bool} {id scope : String} (held : Held o id scope)
    (named : scope ≠ "") (granted : o.claimWireIdentity config.group ins = .ok (next, claimed)) :
    Held next id scope ∧ (id = compositeIDWithGroup ins config.group → scope = wireOwnerScope ins) := by
  obtain ⟨owner, claim, owners, _, claims⟩ := Ownership.claim_granted granted
  have same : id = compositeIDWithGroup ins config.group → scope = wireOwnerScope ins := by
    rintro rfl
    rcases held with byClaim | byOwner
    · rw [byClaim] at claim
      exact claim.resolve_left named
    · rw [byOwner] at owner
      exact owner.resolve_left named
  refine ⟨?_, same⟩
  rw [Held, claims id, owners]
  by_cases own : id = compositeIDWithGroup ins config.group
  · rw [if_pos own]
    exact .inl (same own).symm
  · rw [if_neg own]
    exact held

/-- A step of a thread that leaves the owners alone protects as before. -/
theorem Protected.unchanged {phase : Phase} {next : World} (protect : Protected config world.ownership threads)
    (found : threads[index]? = some t) (ownership : next.ownership = world.ownership)
    (flight : phase.claiming = true → ∀ ins, t.job = .register ins → t.phase.claiming = true) :
    Protected config next.ownership (threads.set index { t with phase := phase }) := by
  have earlier : ∀ u ∈ threads.set index { t with phase := phase }, ∀ ins, u.inFlight = some ins →
      ∃ v ∈ threads, v.inFlight = some ins := by
    intro u among ins claimed
    rcases mem_set_cases among with rfl | ⟨position, _, here⟩
    · obtain ⟨job, claiming⟩ := Thread.inFlight_eq_some.mp claimed
      exact ⟨t, List.mem_of_getElem? found, Thread.inFlight_eq_some.mpr ⟨job, flight claiming ins job⟩⟩
    · exact ⟨u, List.mem_of_getElem? here, claimed⟩
  refine ⟨?_, ?_⟩
  · intro u among ins claimed
    obtain ⟨v, member, claimed⟩ := earlier u among ins claimed
    rw [ownership]
    exact protect.held v member ins claimed
  · intro u among v among' ins other claimed claimed' same
    obtain ⟨u', member, claimed⟩ := earlier u among ins claimed
    obtain ⟨v', member', claimed'⟩ := earlier v among' other claimed'
    exact protect.exclusive u' member v' member' ins other claimed claimed' same

/-- A step after which the thread has nothing in flight protects if the others' ids stay held. -/
theorem Protected.settled {phase : Phase} {next : World} (protect : Protected config world.ownership threads)
    (landed : phase.claiming = false)
    (held : ∀ position u ins, position ≠ index → threads[position]? = some u → u.inFlight = some ins →
      Held next.ownership (compositeIDWithGroup ins config.group) (wireOwnerScope ins)) :
    Protected config next.ownership (threads.set index { t with phase := phase }) := by
  have elsewhere : ∀ u ∈ threads.set index { t with phase := phase }, ∀ ins, u.inFlight = some ins →
      ∃ position, position ≠ index ∧ threads[position]? = some u := by
    intro u among ins claimed
    refine (mem_set_cases among).resolve_left ?_
    rintro rfl
    rw [Thread.inFlight_eq_none landed] at claimed
    cases claimed
  refine ⟨?_, ?_⟩
  · intro u among ins claimed
    obtain ⟨position, apart, here⟩ := elsewhere u among ins claimed
    exact held position u ins apart here claimed
  · intro u among v among' ins other claimed claimed' same
    obtain ⟨_, _, here⟩ := elsewhere u among ins claimed
    obtain ⟨_, _, here'⟩ := elsewhere v among' other claimed'
    exact protect.exclusive u (List.mem_of_getElem? here) v (List.mem_of_getElem? here') ins other claimed claimed' same

/-- A granted claim puts its register in flight. -/
theorem Protected.claimed {scope : ClusterKey} {batch : ℕ} {ownership : Ownership} {made : Bool}
    (protect : Protected config world.ownership threads)
    (granted : world.ownership.claimWireIdentity config.group ins = .ok (ownership, made)) :
    Protected config ownership (threads.set index ⟨.register ins, scope, batch, .admitted made⟩) := by
  obtain ⟨_, _, _, _, claims⟩ := Ownership.claim_granted granted
  -- Whoever else is in flight on the id has the scope of the new claim.
  have others : ∀ position u other, position ≠ index → threads[position]? = some u → u.inFlight = some other →
      Held ownership (compositeIDWithGroup other config.group) (wireOwnerScope other) ∧
        (compositeIDWithGroup other config.group = compositeIDWithGroup ins config.group →
          wireOwnerScope other = wireOwnerScope ins) :=
    fun position u other apart here flying =>
      (protect.held u (List.mem_of_getElem? here) other flying).claim (wireOwnerScope_ne_empty other) granted
  refine ⟨?_, ?_⟩
  · intro u among other flying
    rcases mem_set_cases among with rfl | ⟨position, apart, here⟩
    · cases flying
      exact .inl (by rw [claims, if_pos rfl])
    · exact (others position u other apart here flying).1
  · intro u among v among' first second flying flying' same
    rcases mem_set_cases among with rfl | ⟨position, apart, here⟩
    · rcases mem_set_cases among' with rfl | ⟨position', apart', here'⟩
      · cases flying
        cases flying'
        rfl
      · cases flying
        exact ((others position' v second apart' here' flying').2 same.symm).symm
    · rcases mem_set_cases among' with rfl | ⟨position', apart', here'⟩
      · cases flying'
        exact (others position u first apart here flying).2 same
      · exact protect.exclusive u (List.mem_of_getElem? here) v (List.mem_of_getElem? here') first second flying flying' same

/-- A register that returns leaves the others' ids held, if a failed one deletes no reservation that they rely on. -/
theorem Held.release {other : Instance} {made : Bool} {err : Option GoError}
    (held : Held o (compositeIDWithGroup other config.group) (wireOwnerScope other))
    (scopes : compositeIDWithGroup other config.group = compositeIDWithGroup ins config.group →
      wireOwnerScope other = wireOwnerScope ins)
    (alone : made = true → err ≠ none → compositeIDWithGroup other config.group ≠ compositeIDWithGroup ins config.group) :
    Held (o.releaseWireIdentity config.group ins made err.isNone) (compositeIDWithGroup other config.group)
      (wireOwnerScope other) := by
  rw [Held, Ownership.release_owners]
  by_cases same : compositeIDWithGroup other config.group = compositeIDWithGroup ins config.group
  · cases err with
    | none => exact .inr (by rw [if_pos ⟨rfl, same⟩, scopes same])
    | some err =>
      rw [if_neg fun both => nomatch both.1]
      rcases Ownership.release_claims with kept | ⟨_, deleted, _⟩
      · rw [kept]
        exact held
      · -- The failed register made the claim and deletes it.
        rw [Option.isNone_some, Bool.or_false] at deleted
        exact absurd same (alone deleted (Option.some_ne_none err))
  · rw [if_neg fun both => same both.2]
    rcases Ownership.release_claims with kept | ⟨own, _, _⟩
    · rw [kept]
      exact held
    · exact absurd own same

theorem Protected.move (protect : Protected config world.ownership threads)
    (alone : DropsAlone config threads (.move index answer)) :
    Protected config (moveThread config world threads index answer).1.ownership
      (moveThread config world threads index answer).2 := by
  rcases moveThread_acts config world threads index answer with ⟨same, _⟩ | ⟨t, next, phase, found, _, acts, moved⟩
  · rw [same]
    exact protect
  have named : ∀ ins : Instance, wireOwnerScope ins ≠ "" := wireOwnerScope_ne_empty
  have heldBefore : ∀ position u ins, position ≠ index → threads[position]? = some u → u.inFlight = some ins →
      Held world.ownership (compositeIDWithGroup ins config.group) (wireOwnerScope ins) :=
    fun position u ins _ here claimed => protect.held u (List.mem_of_getElem? here) ins claimed
  rw [moved]
  obtain ⟨job, scope, batch, before⟩ := t
  simp only at acts
  cases acts with
  | stay => exact protect.unchanged found rfl fun claiming _ _ => claiming
  | refuse early silent | recover writes known | scan writes free unknown scanned => exact protect.unchanged found rfl nofun
  | record writes merged | collide writes merged =>
    obtain ⟨owners, claims, _, _⟩ := Ownership.recordScan_spec merged
    refine protect.settled rfl ?_
    intro position u ins apart here claimed
    rw [Held, owners, claims]
    refine (heldBefore position u ins apart here claimed).imp_right fun owner => ?_
    exact ((world.ownership.mergeOwners_keeps _).1 _ (by rw [owner]; exact named ins)).trans owner
  | claim granted => exact protect.claimed granted
  | check free | start task => exact protect.unchanged found rfl fun _ ins same => nomatch same
  | write ins claimed | remove claimed removal => exact protect.unchanged found rfl fun _ _ _ => rfl
  | release ins claimed err =>
    refine protect.settled rfl ?_
    intro position u other apart here flying
    refine (heldBefore position u other apart here flying).release ?_ ?_
    · exact protect.exclusive u (List.mem_of_getElem? here) _ (List.mem_of_getElem? found) other ins flying rfl
    · rintro rfl failed
      cases err with
      | none => exact absurd rfl failed
      | some err => exact alone _ found _ rfl position u other apart here flying
  | @forget _ _ key claimed removal =>
    have dropped : Thread.drops config ⟨job, scope, batch, .answered claimed none⟩ = some (forgottenID config key) := by
      cases job with
      | register ins => cases removal
      | deregister ins | sweep task => exact congrArg (Option.map (forgottenID config)) removal
    refine protect.settled rfl ?_
    intro position u other apart here flying
    have other_id := alone _ found _ dropped position u other apart here flying
    rw [Held, Ownership.forget_owners, Ownership.forget_claims, if_neg other_id, if_neg other_id]
    exact heldBefore position u other apart here flying
  | fail claimed err removal => exact protect.unchanged found rfl nofun

/-- In every run in which nobody deletes a reservation or an owner that another register relies on, registers in
flight on one composite id have one owner scope. -/
theorem claims_exclusive (config : Config) (world : World) {history : List PoolStep}
    (alone : History.AllSteps (fun before label => DropsAlone config ((Pool.mk world []).after config before).threads label)
      history) : Exclusive config ((Pool.mk world []).after config history).threads := by
  suffices Protected config ((Pool.mk world []).after config history).world.ownership
      ((Pool.mk world []).after config history).threads from this.exclusive
  refine History.invariant (fun history => Protected config ((Pool.mk world []).after config history).world.ownership
    ((Pool.mk world []).after config history).threads) ?_ ?_ alone
  · exact ⟨List.forall_mem_nil _, List.forall_mem_nil _⟩
  intro earlier label drops protect
  rw [Pool.after, List.foldl_append]
  cases label with
  | move index answer => exact protect.move drops
  | call job =>
      -- A new call has nothing in flight yet.
      have flying : ∀ t ∈ (((Pool.mk world []).after config earlier).step config (.call job)).threads, ∀ ins,
          t.inFlight = some ins → t ∈ ((Pool.mk world []).after config earlier).threads := by
        intro t among ins claimed
        refine (List.mem_append.mp among).resolve_right fun last => ?_
        cases List.mem_singleton.mp last
        rw [Thread.inFlight_eq_none rfl] at claimed
        cases claimed
      refine ⟨fun t among ins claimed => protect.held t (flying t among ins claimed) ins claimed, ?_⟩
      intro t among u among' ins other claimed claimed'
      exact protect.exclusive t (flying t among ins claimed) u (flying u among' other claimed') ins other claimed claimed'

/-! ### Two registers of one source and one of another -/

/-- One address in one business cluster, seen by two source clusters. -/
def eastOrder : Instance :=
  { instanceId := "o-1", appCode := "orders", provider := "k8s", sourceCluster := "east", cluster := "blue"
    ip := "10.0.0.7", status := instanceStatusOnline }

def westOrder : Instance := { eastOrder with sourceCluster := "west" }

def bareConfig : Config where
  lib :=
    { marshal := fun _ => "", unmarshal := fun _ => none, compress := id, decompress := fun _ => none
      formatFloat := fun _ => "0", parseFloat := fun _ => none }

/-- Two registers of the first source share a claim, the one that made it fails and gives it up, and a register of the
other source gets it. -/
def sharedClaim : List PoolStep :=
  [.call (.register eastOrder), .call (.register eastOrder), .call (.register westOrder), .move 0 .done, .move 0 .done,
    .move 1 .done, .move 2 .done, .move 0 .done, .move 1 .done, .move 0 (.failed false .staleFullPush), .move 0 .done,
    .move 2 .done]

/-- The second register of the first source and the register of the other one are in flight together. -/
theorem shared_claim_not_exclusive :
    let threads := ((Pool.mk { catalog := {} } []).after bareConfig sharedClaim).threads
    threads.map Thread.inFlight = [none, some eastOrder, some westOrder] ∧
      compositeIDWithGroup eastOrder bareConfig.group = compositeIDWithGroup westOrder bareConfig.group ∧
      wireOwnerScope eastOrder ≠ wireOwnerScope westOrder := by
  decide +kernel

/-- Up to the failure, both registers of the first source are in flight. -/
theorem claims_exclusive_shared :
    let threads := ((Pool.mk { catalog := {} } []).after bareConfig (sharedClaim.take 9)).threads
    threads.map Thread.inFlight = [some eastOrder, some eastOrder, none] ∧ Exclusive bareConfig threads := by
  refine ⟨by decide +kernel, claims_exclusive bareConfig { catalog := {} } ?_⟩
  simp only [sharedClaim, List.take_succ_cons, List.take_zero, History.allSteps_cons]
  refine ⟨trivial, trivial, trivial, ?_, ?_, ?_, ?_, ?_, ?_, History.allSteps_nil _⟩
  all_goals
    apply dropsAlone_of_none
    decide +kernel

end Spotter.Nacos
