import Spotter.Library.Paging
import Spotter.Nacos.Wire

/-! # The page walkers

The catalog, the service list of the SDK and the service list of the HTTP interface are read page by page. The first two look
at the declared count when a page is shorter than requested; the third takes any short page for the last one.
-/

namespace Spotter.Nacos

open Library Ports

def maxServiceListPages : ℕ := 10000

def catalogPageSize : ℕ := 100

/-- The walk ends: the page is short and does not leave a part of a declared count uncollected, or it is full and the declared
count is collected. -/
def countReached {α : Type*} (pageSize : ℕ) (collected : List α) (body : Page α) : Bool :=
  if body.entries.length < pageSize then !decide (0 < body.count ∧ (collected.length : ℤ) < body.count)
  else decide (0 < body.count ∧ body.count ≤ collected.length)

/-- `ListCatalogInstances` of the HTTP transport, over the answers to its page requests. -/
def listCatalogInstances (fetch : ℕ → ℕ → Except GoError (Page Host)) (serviceName clusterName : String) :
    Except GoError (List Host) :=
  walkPages (fetch catalogPageSize) (countReached catalogPageSize)
    (.errorf "nacos: catalog instances pagination exceeded %d pages for %s/%s"
      [Nat.repr maxServiceListPages, serviceName, clusterName])
    maxServiceListPages 1 []

/-- The page size that is asked for. -/
def requestedPageSize (pageSize : ℤ) : ℕ := if pageSize < 1 then 100 else pageSize.toNat

/-- `listServicesSDK`; the facade's request has room for 32 bits of the page size. -/
def listServicesSDK (fetch : ℕ → ℕ → Except GoError (Page String)) (pageSize : ℤ) : Except GoError (List String) :=
  walkPages (fetch (requestedPageSize pageSize % 2 ^ 32)) (countReached (requestedPageSize pageSize))
    (.errorf "nacos sdk: service list pagination exceeded %d pages" [Nat.repr maxServiceListPages])
    maxServiceListPages 1 []

/-- `listServicesHTTP`: the walk ends with the first page that is shorter than requested. -/
def listServicesHTTP (fetch : ℕ → ℕ → Except GoError (Page String)) (pageSize : ℤ) : Except GoError (List String) :=
  walkPages (fetch (requestedPageSize pageSize)) (fun _ body => decide (body.entries.length < requestedPageSize pageSize))
    (.errorf "nacos: service list pagination exceeded %d pages" [Nat.repr maxServiceListPages])
    maxServiceListPages 1 []

section Complete

variable {α : Type*} (server : Listing α GoError) (size : ℕ)

/-- The rule of the declared count is sound for every effective page size. -/
theorem countReached_sound {pageSize : ℕ} (n : ℕ)
    (stops : countReached pageSize (server.entries.take ((n + 1) * server.effective size)) (server.body size n) = true) :
    server.entries.length ≤ (n + 1) * server.effective size := by
  rw [countReached] at stops
  by_contra short
  have collected : (server.entries.take ((n + 1) * server.effective size)).length = (n + 1) * server.effective size :=
    List.length_take_of_le (Nat.le_of_not_le short)
  have declared : (server.body size n).count = server.entries.length := rfl
  rw [collected, declared] at stops
  split_ifs at stops with shortPage
  · simp only [Bool.not_eq_true', decide_eq_false_iff_not] at stops
    omega
  · rw [decide_eq_true_eq] at stops
    omega

theorem walkPages_countReached (pageSize : ℕ) (exceeded : GoError) (left : ℕ) :
    server.Complete (walkPages (server.page size) (countReached pageSize) exceeded left 1 []) := by
  have walked := server.walkPages_complete size (countReached pageSize) exceeded (countReached_sound server size) left 0
  rwa [Nat.zero_mul, List.take_zero] at walked

end Complete

/-- The first page of a clamped server is short, so it is all that the HTTP walk reads. -/
theorem listServicesHTTP_clamped (server : Listing String GoError) {pageSize : ℤ} (answered : server.failure 1 = none)
    (clamped : server.effective (requestedPageSize pageSize) < requestedPageSize pageSize) :
    listServicesHTTP server.page pageSize = .ok (server.entries.take (server.effective (requestedPageSize pageSize))) := by
  have short : (server.body (requestedPageSize pageSize) 0).entries.length < requestedPageSize pageSize :=
    lt_of_le_of_lt (List.length_take_le _ _) clamped
  have first : server.page (requestedPageSize pageSize) 1 = .ok (server.body (requestedPageSize pageSize) 0) := by
    rw [Listing.page_succ, answered]
    rfl
  rw [listServicesHTTP, maxServiceListPages, walkPages, first]
  simp only [decide_eq_true short, ↓reduceIte, List.nil_append]
  rw [Listing.body, Nat.zero_mul, List.drop_zero]

theorem listServicesHTTP_complete_iff (server : Listing String GoError) (pageSize : ℤ) :
    server.Complete (listServicesHTTP server.page pageSize) ↔
      server.failure 1 ≠ none ∨ server.effective (requestedPageSize pageSize) = requestedPageSize pageSize ∨
        server.entries.length ≤ server.effective (requestedPageSize pageSize) := by
  rcases eq_or_ne (server.failure 1) none with answered | failed
  · rcases eq_or_ne (server.effective (requestedPageSize pageSize)) (requestedPageSize pageSize) with unclamped | other
    · refine iff_of_true ?_ (.inr (.inl unclamped))
      have walked := server.walkPages_complete (requestedPageSize pageSize)
        (fun _ body => decide (body.entries.length < requestedPageSize pageSize))
        (.errorf "nacos: service list pagination exceeded %d pages" [Nat.repr maxServiceListPages]) ?_ maxServiceListPages 0
      · rwa [Nat.zero_mul, List.take_zero] at walked
      · intro n stops
        have short := of_decide_eq_true stops
        rw [Listing.body, List.length_take, List.length_drop, unclamped] at short
        rw [unclamped, Nat.add_mul, Nat.one_mul]
        omega
    · have clamped := lt_of_le_of_ne (server.clamped _) other
      rw [listServicesHTTP_clamped server answered clamped, Listing.Complete, Except.ok.injEq, List.take_eq_self_iff]
      simp [answered, other]
  · refine iff_of_true ?_ (.inl failed)
    obtain ⟨err, failure⟩ := Option.ne_none_iff_exists'.mp failed
    refine .inr ⟨err, ?_⟩
    rw [listServicesHTTP, maxServiceListPages, walkPages, Listing.page_succ, failure]
    rfl

/-- Over every list of the server, requested page size, effective page size and failing requests: the catalog and the SDK's
service list are complete or an error, and the HTTP service list is exactly if its first request fails, the server does not
clamp the page size, or one clamped page holds the whole list. None of them reads more than the allowed number of pages. -/
theorem page_walkers_complete (hosts : Listing Host GoError) (services : Listing String GoError)
    (serviceName clusterName : String) (pageSize : ℤ) :
    hosts.Complete (listCatalogInstances hosts.page serviceName clusterName) ∧
      services.Complete (listServicesSDK services.page pageSize) ∧
      (services.Complete (listServicesHTTP services.page pageSize) ↔
        services.failure 1 ≠ none ∨ services.effective (requestedPageSize pageSize) = requestedPageSize pageSize ∨
          services.entries.length ≤ services.effective (requestedPageSize pageSize)) ∧
      ∀ fetchHosts fetchServices, (∀ size page, page ≤ maxServiceListPages → fetchHosts size page = hosts.page size page) →
        (∀ size page, page ≤ maxServiceListPages → fetchServices size page = services.page size page) →
        listCatalogInstances fetchHosts serviceName clusterName = listCatalogInstances hosts.page serviceName clusterName ∧
          listServicesSDK fetchServices pageSize = listServicesSDK services.page pageSize ∧
          listServicesHTTP fetchServices pageSize = listServicesHTTP services.page pageSize := by
  refine ⟨walkPages_countReached hosts _ _ _ _, walkPages_countReached services _ _ _ _,
    listServicesHTTP_complete_iff services pageSize, ?_⟩
  intro fetchHosts fetchServices sameHosts sameServices
  refine ⟨walkPages_congr _ _ ?_ _, walkPages_congr _ _ ?_ _, walkPages_congr _ _ ?_ _⟩
  · exact fun page _ upper => sameHosts _ page (by omega)
  · exact fun page _ upper => sameServices _ page (by omega)
  · exact fun page _ upper => sameServices _ page (by omega)

/-- A server of three services that cuts its pages to two. -/
def clampedServices : Listing String GoError where
  entries := ["a", "b", "c"]
  effective size := min size 2
  clamped size := Nat.min_le_left size 2

/-- Asked for pages of two, it does not clamp them, and the HTTP walk is complete. -/
theorem small_pages_complete : clampedServices.effective (requestedPageSize 2) = requestedPageSize 2 ∧
      clampedServices.Complete (listServicesHTTP clampedServices.page 2) :=
  ⟨rfl, (page_walkers_complete ⟨[], id, le_refl, fun _ => none⟩ clampedServices "shop" "k8s" 2).2.2.1.mpr (.inr (.inl rfl))⟩

/-- The HTTP walk takes the first page of two for the last one, while the SDK walk goes on. -/
theorem clamped_services_truncated : listServicesHTTP clampedServices.page 100 = .ok ["a", "b"] ∧
      listServicesSDK clampedServices.page 100 = .ok ["a", "b", "c"] ∧
      ¬ clampedServices.Complete (listServicesHTTP clampedServices.page 100) := by
  have truncated : listServicesHTTP clampedServices.page 100 = .ok ["a", "b"] := rfl
  refine ⟨truncated, rfl, ?_⟩
  rw [truncated, Listing.Complete]
  simp [clampedServices]

end Spotter.Nacos
