import Spotter.Nacos.Wire

/-! # Application batches of a full push

A full push groups the snapshot's items by service, wire cluster and operation, in batches of bounded
size and in first-seen order. Namespace and group are the sink's own and the same for every batch.
-/

namespace Spotter.Nacos

open Library Domain

def maxPersistentBatchSize : ℕ := 100

inductive BatchOperation where
  | register
  | deregister
deriving DecidableEq

/-- The service and wire cluster that batches and prunes are scoped to. -/
structure ClusterKey where
  service : String
  cluster : String
deriving DecidableEq

/-- The pair an instance belongs to. -/
def clusterKeyOf (ins : Instance) : ClusterKey := ⟨ins.appCode, clusterOf ins⟩

structure BatchKey where
  scope : ClusterKey
  operation : BatchOperation
deriving DecidableEq

structure PersistentBatch where
  key : BatchKey
  items : List Instance
  indexes : List ℕ

/-- Unknown statuses have no operation: the full push skips them. -/
def persistentBatchOperation (status : ℤ) : Option BatchOperation :=
  if status = instanceStatusOnline ∨ status = instanceStatusUnhealthy then some .register
  else if status = instanceStatusOffline then some .deregister
  else none

/-- The batches made so far and the last one of each key. -/
structure BatchSplit where
  batches : List PersistentBatch := []
  lastByKey : FiniteMap BatchKey ℕ := ∅

namespace BatchSplit

/-- The key's last batch if it has room. -/
def room (split : BatchSplit) (maxItems : ℕ) (key : BatchKey) : Option ℕ :=
  (split.lastByKey.lookup key).filter fun position =>
    (split.batches[position]?).any fun batch => decide (batch.items.length < maxItems)

def add (maxItems : ℕ) (split : BatchSplit) (item : Option Instance × ℕ) : BatchSplit :=
  match item with
  | (none, _) => split
  | (some ins, index) =>
    match persistentBatchOperation ins.status with
    | none => split
    | some operation =>
      let key : BatchKey := ⟨clusterKeyOf ins, operation⟩
      match split.room maxItems key with
      | some position =>
        { split with
          batches := split.batches.modify position fun batch =>
            { batch with items := batch.items ++ [ins], indexes := batch.indexes ++ [index] } }
      | none =>
        { batches := split.batches ++ [⟨key, [ins], [index]⟩]
          lastByKey := split.lastByKey.insert key split.batches.length }

end BatchSplit

def splitPersistentBatchesForScope (instances : Instances) (maxItems : ℕ) : List PersistentBatch :=
  (instances.zipIdx.foldl (BatchSplit.add (max 1 (min maxItems maxPersistentBatchSize))) {}).batches

end Spotter.Nacos
