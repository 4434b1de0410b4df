import Mathlib.Data.List.Basic

/-! # Memory that only grows

Objects are found by address, and a new object gets an address that no object had before. A program that does not keep an
address cannot write to it, so whether two values share memory is a matter of which addresses they lead to.
-/

namespace Spotter.Library

abbrev Ref := ℕ

structure Heap (O : Type) where
  objects : List O := []

namespace Heap

variable {O : Type} {old heap new : Heap O} {ref query : Ref} {object : O}

def size (heap : Heap O) : ℕ := heap.objects.length

def read (heap : Heap O) (ref : Ref) : Option O := heap.objects[ref]?

/-- The memory with one object more, at the address `heap.size`. -/
def alloc (heap : Heap O) (object : O) : Heap O := ⟨heap.objects ++ [object]⟩

def write (heap : Heap O) (ref : Ref) (object : O) : Heap O := ⟨heap.objects.set ref object⟩

theorem read_bound (found : heap.read ref = some object) : ref < heap.size := by
  obtain ⟨bound, _⟩ := List.getElem?_eq_some_iff.mp found
  exact bound

@[simp] theorem size_alloc (heap : Heap O) (object : O) : (heap.alloc object).size = heap.size + 1 := List.length_append

@[simp] theorem size_write (heap : Heap O) (ref : Ref) (object : O) : (heap.write ref object).size = heap.size := List.length_set

@[simp] theorem read_alloc_size (heap : Heap O) (object : O) : (heap.alloc object).read heap.size = some object :=
  List.getElem?_concat_length

theorem read_alloc_of_lt (object : O) (bound : ref < heap.size) : (heap.alloc object).read ref = heap.read ref :=
  List.getElem?_append_left bound

@[simp] theorem read_write_self (object : O) (bound : ref < heap.size) : (heap.write ref object).read ref = some object :=
  List.getElem?_set_self bound

theorem read_write_of_ne (object : O) (other : ref ≠ query) : (heap.write ref object).read query = heap.read query :=
  List.getElem?_set_ne other

/-- Every object is still there and unchanged. -/
def Extends (old new : Heap O) : Prop := ∀ ref object, old.read ref = some object → new.read ref = some object

theorem Extends.refl (heap : Heap O) : Extends heap heap := fun _ _ found => found

theorem Extends.trans (first : Extends old heap) (second : Extends heap new) : Extends old new :=
  fun ref object found => second ref object (first ref object found)

theorem extends_alloc (heap : Heap O) (object : O) : Extends heap (heap.alloc object) := by
  intro ref other found
  rw [read_alloc_of_lt object (read_bound found), found]

theorem Extends.size_le (extension : Extends old new) : old.size ≤ new.size := by
  by_contra smaller
  have bound : new.size < old.size := by omega
  have found : old.read new.size = some (old.objects.get ⟨new.size, bound⟩) := List.getElem?_eq_getElem bound
  exact Nat.lt_irrefl _ (read_bound (extension _ _ found))

theorem Extends.read_eq (extension : Extends old new) (bound : ref < old.size) : new.read ref = old.read ref := by
  have found : old.read ref = some (old.objects.get ⟨ref, bound⟩) := List.getElem?_eq_getElem bound
  rw [found, extension _ _ found]

end Heap

end Spotter.Library
