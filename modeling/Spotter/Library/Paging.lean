import Mathlib.Data.List.Basic
import Mathlib.Order.Nat

/-! # Walking a paged listing

A server keeps a list and hands it out in pages of an effective size that may be below the requested one, with the true length of
the list on each page. A client asks for one page after the other, appends what it gets and stops by a rule of its own, or
after a fixed number of pages.
-/

namespace Spotter.Library

variable {α ε : Type*}

/-- A page and the declared length of the whole list. -/
structure Page (α : Type*) where
  count : ℤ
  entries : List α

/-- The list a server keeps, the effective page size for each requested one, and the requests that fail. -/
structure Listing (α ε : Type*) where
  entries : List α
  effective : ℕ → ℕ
  clamped : ∀ size, effective size ≤ size
  failure : ℕ → Option ε := fun _ => none

/-- The page that follows a number of earlier ones. -/
def Listing.body (server : Listing α ε) (size earlier : ℕ) : Page α :=
  ⟨server.entries.length, (server.entries.drop (earlier * server.effective size)).take (server.effective size)⟩

/-- The answer to a request; pages count from one. -/
def Listing.page (server : Listing α ε) (size page : ℕ) : Except ε (Page α) :=
  (server.failure page).elim (.ok (server.body size (page - 1))) .error

/-- The walk from a page on, with the number of pages that it may still read and what it collected so far. -/
def walkPages (fetch : ℕ → Except ε (Page α)) (done : List α → Page α → Bool) (exceeded : ε) :
    ℕ → ℕ → List α → Except ε (List α)
  | 0, _, _ => .error exceeded
  | left + 1, page, collected =>
    match fetch page with
    | .error err => .error err
    | .ok body =>
      if done (collected ++ body.entries) body then .ok (collected ++ body.entries)
      else walkPages fetch done exceeded left (page + 1) (collected ++ body.entries)

/-- The result is the whole list or an error. -/
def Listing.Complete (server : Listing α ε) (result : Except ε (List α)) : Prop :=
  result = .ok server.entries ∨ ∃ err, result = .error err

/-- A walk that reads the same pages gives the same result. -/
theorem walkPages_congr {fetch other : ℕ → Except ε (Page α)} (done : List α → Page α → Bool) (exceeded : ε) {left page : ℕ}
    (same : ∀ read, page ≤ read → read < page + left → fetch read = other read) (collected : List α) :
    walkPages fetch done exceeded left page collected = walkPages other done exceeded left page collected := by
  induction left generalizing page collected with
  | zero => rfl
  | succ left ih =>
    have own := same page (le_refl page) (Nat.lt_add_of_pos_right (Nat.succ_pos left))
    have rest : ∀ read, page + 1 ≤ read → read < page + 1 + left → fetch read = other read :=
      fun read lower upper => same read (Nat.le_of_succ_le lower) (by omega)
    simp only [walkPages, own, ih rest]

namespace Listing

variable (server : Listing α ε) (size : ℕ) (done : List α → Page α → Bool) (exceeded : ε)

/-- What a page adds to the pages before it. -/
theorem take_append_page (n : ℕ) : server.entries.take (n * server.effective size) ++ (server.body size n).entries =
      server.entries.take ((n + 1) * server.effective size) := by
  rw [Nat.add_mul, Nat.one_mul, List.take_add, body]

theorem page_succ (n : ℕ) : server.page size (n + 1) = (server.failure (n + 1)).elim (.ok (server.body size n)) .error := rfl

/-- A walk whose rule stops only when everything is collected returns everything or an error. -/
theorem walkPages_complete
    (sound : ∀ n, done (server.entries.take ((n + 1) * server.effective size)) (server.body size n) = true →
      server.entries.length ≤ (n + 1) * server.effective size) (left n : ℕ) :
    server.Complete (walkPages (server.page size) done exceeded left (n + 1) (server.entries.take (n * server.effective size))) := by
  induction left generalizing n with
  | zero => exact .inr ⟨exceeded, rfl⟩
  | succ left ih =>
    rw [walkPages, page_succ]
    cases server.failure (n + 1) with
    | some err => exact .inr ⟨err, rfl⟩
    | none =>
      simp only [Option.elim_none, take_append_page]
      split_ifs with stops
      · exact .inl (congrArg Except.ok (List.take_of_length_le (sound n stops)))
      · exact ih (n + 1)

end Listing

end Spotter.Library
