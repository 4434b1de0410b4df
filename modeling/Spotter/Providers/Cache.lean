import Mathlib.Data.String.Basic
import Spotter.Domain.Instance
import Spotter.Library.SortedStore

/-! # The provider cache

A provider keeps its processed instances in a tree ordered by identity. Values are copied on the way
in and out, so the cache is a value here and no caller shares an instance with it.
-/

namespace Spotter.Providers

open Library Domain

/-- Processed instances in increasing order of identity. -/
abbrev Cache := SortedStore identityKey

namespace Cache

/-- An id that is an identity rather than a bare wire id. -/
def sourceQualified (id : String) : Bool := id.toList.contains ':' || id.toList.contains '/'

/-- `Get`: by identity, else by a wire id that exactly one stored instance has. -/
def get (cache : Cache) (id : String) : Option Instance :=
  match cache.find id with
  | some ins => some ins
  | none =>
    if sourceQualified id then none
    else match cache.entries.filter (fun ins => decide (ins.instanceId = id)) with
      | [only] => some only
      | _ => none

/-- `List`: every stored instance in increasing order of identity. -/
def list (cache : Cache) : List Instance := cache.entries

variable {cache : Cache} {id : String}

theorem get_of_find {ins : Instance} (found : cache.find id = some ins) : cache.get id = some ins := by
  rw [get, found]

theorem get_qualified (qualified : sourceQualified id = true) : cache.get id = cache.find id := by
  unfold get
  split
  · next found => exact found.symm
  · next missing => rw [if_pos qualified, missing]

theorem get_mem {ins : Instance} (found : cache.get id = some ins) : ins ∈ cache.entries := by
  unfold get at found
  split at found
  · next stored =>
    cases found
    exact (SortedStore.find_eq_some_iff.mp stored).1
  · split_ifs at found
    split at found
    · next only matching =>
      cases found
      exact List.mem_of_mem_filter (matching ▸ List.mem_singleton_self _)
    · cases found

end Cache

end Spotter.Providers
