import Mathlib.Data.Bool.AllAny
import Mathlib.Data.List.Sort
import Spotter.Nacos.WireNames

/-! # Logical Consul sources

A source is configured by an id and a list of addresses. The configuration and the provider each have a loop that trims the
addresses, resolves the id and refuses a second source of the same id; the provider's loop also looks at the ids after
sanitising. A source without an id gets one from a digest of its addresses.
-/

namespace Spotter.Providers.Consul

open Library Nacos Ports

/-! ## Ids and addresses -/

/-- `strings.TrimSpace`. -/
def trimSpace (text : String) : String := String.ofList (trimBoth isSpace text.toList)

/-- One address more: it is trimmed, and kept if it is not empty and was not seen. -/
def addAddress (addresses : List String) (address : String) : List String :=
  if trimSpace address = "" then addresses
  else if trimSpace address ∈ addresses then addresses
  else addresses ++ [trimSpace address]

/-- The usable addresses in their configured order. -/
def cleanAddresses (addresses : List String) : List String := addresses.foldl addAddress []

/-- The usable addresses, sorted. -/
def canonicalAddresses (addresses : List String) : List String := (cleanAddresses addresses).insertionSort (· ≤ ·)

def hexDigits : List Char := "0123456789abcdef".toList

/-- `hex.EncodeToString`. -/
def hexEncode (bytes : List UInt8) : List Char :=
  bytes.flatMap fun byte => [hexDigits.getD (byte.toNat / 16) '0', hexDigits.getD (byte.toNat % 16) '0']

section Normalise

variable (sum256 : String → Vector UInt8 32)

/-- The id of a source whose addresses have the given digest. -/
def digestID (digest : Vector UInt8 32) : String := String.ofList ("consul-".toList ++ hexEncode (digest.toList.take 6))

/-- The id of a source without a configured one. -/
def derivedID (addresses : List String) : String := digestID (sum256 (",".intercalate (canonicalAddresses addresses)))

/-- `ConsulSourceID`: a configured id has to be its own wire scope. -/
def consulSourceID (configured : String) (addresses : List String) : Except GoError String :=
  let configured := trimSpace configured
  if configured ≠ "" then
    if !configured.toList.all wireSafe then
      .error (.errorf "consul source ID %q must contain only letters, digits, hyphen, underscore, or dot" [configured])
    else if sanitizeWireScope configured ≠ configured then
      .error (.errorf "consul source ID %q must be identical to its Nacos wire scope" [configured])
    else .ok configured
  else .ok (derivedID sum256 addresses)

/-- The descriptor of a source in the configuration. -/
structure ConsulSourceConfig where
  id : String
  addresses : List String
  token : String := ""
  tokenFile : String := ""
  tlsCAFile : String := ""
  tlsCertFile : String := ""
  tlsKeyFile : String := ""
  tlsServerName : String := ""
  tlsInsecureSkipVerify : Bool := false
  datacenter : String := ""
  namespaceName : String := ""
  caFile : String := ""
  certFile : String := ""
  keyFile : String := ""
  serverName : String := ""
  insecureSkipVerify : Bool := false
deriving DecidableEq

/-- The loop of `normalizeConsulSources`, with the ids seen so far; all other fields are copied. -/
def normalizeConfigFrom (seenIDs : List String) (index : ℕ) : List ConsulSourceConfig → Except GoError (List ConsulSourceConfig)
  | [] => .ok []
  | source :: rest =>
    let addresses := cleanAddresses source.addresses
    if addresses.isEmpty then
      .error (.errorf "normalize consul source %d: consul source has no usable addresses" [Nat.repr index])
    else
      match consulSourceID sum256 source.id addresses with
      | .error err => .error (.wrapped ("normalize consul source " ++ Nat.repr index ++ ": %w") err)
      | .ok id =>
        if id ≠ "" ∧ id ∈ seenIDs then .error (.errorf "duplicate consul source ID %q" [id])
        else
          (normalizeConfigFrom (if id ≠ "" then id :: seenIDs else seenIDs) (index + 1) rest).map
            ({ source with id := id, addresses := addresses } :: ·)

def normalizeConsulSources (sources : List ConsulSourceConfig) : Except GoError (List ConsulSourceConfig) :=
  if sources.isEmpty then .error (.errorf "no consul sources configured" []) else normalizeConfigFrom sum256 [] 0 sources

/-- The descriptor of a source in the provider, which also has the client library's own settings. -/
structure ConsulSource (TLSConfig : Type) extends ConsulSourceConfig where
  tlsConfig : TLSConfig

variable {TLSConfig : Type}

/-- `Normalized`. -/
def ConsulSource.normalized (s : ConsulSource TLSConfig) : Except GoError (ConsulSource TLSConfig) :=
  let addresses := cleanAddresses s.addresses
  if addresses.isEmpty then .error (.errorf "consul source has no usable addresses" [])
  else (consulSourceID sum256 (trimSpace s.id) addresses).map fun id => { s with id := id, addresses := addresses }

/-- The loop of `NormalizeSources`, with the ids and the wire ids seen so far. -/
def normalizeSourcesFrom (seen : List String) (wireSeen : FiniteMap String String) (index : ℕ) :
    List (ConsulSource TLSConfig) → Except GoError (List (ConsulSource TLSConfig))
  | [] => .ok []
  | source :: rest =>
    match source.normalized sum256 with
    | .error err => .error (.wrapped ("normalize consul source " ++ Nat.repr index ++ ": %w") err)
    | .ok resolved =>
      if resolved.id ∈ seen then .error (.errorf "duplicate consul source ID %q" [resolved.id])
      else
        let wireID := sanitizeWireScope resolved.id
        if wireID = "" then .error (.errorf "consul source ID %q has no usable Nacos wire scope" [resolved.id])
        else
          match wireSeen.lookup wireID with
          | some previous =>
            .error (.errorf "consul source IDs %q and %q collide after Nacos wire sanitization as %q"
              [previous, resolved.id, wireID])
          | none =>
            (normalizeSourcesFrom (resolved.id :: seen) (wireSeen.insert wireID resolved.id) (index + 1) rest).map
              (resolved :: ·)

def normalizeSources (sources : List (ConsulSource TLSConfig)) : Except GoError (List (ConsulSource TLSConfig)) :=
  if sources.isEmpty then .error (.errorf "no consul sources configured" [])
  else normalizeSourcesFrom sum256 [] ∅ 0 sources

end Normalise

/-! ## What the loops keep -/

theorem trimBoth_trimBoth (drop : Char → Bool) (text : List Char) : trimBoth drop (trimBoth drop text) = trimBoth drop text := by
  have again : trimBoth drop ([] ++ trimBoth drop text ++ []) = trimBoth drop text :=
    trimBoth_of_split (List.forall_mem_nil _) fun c atEnd => trimBoth_ends atEnd
  simpa using again

theorem trimSpace_trimSpace (text : String) : trimSpace (trimSpace text) = trimSpace text := by
  rw [trimSpace, trimSpace, String.toList_ofList, trimBoth_trimBoth]

section Addresses

variable {addresses other : List String}

theorem cleanAddresses_append (address : String) :
    cleanAddresses (addresses ++ [address]) = addAddress (cleanAddresses addresses) address := by
  rw [cleanAddresses, List.foldl_append]
  rfl

/-- The usable addresses are the trimmed ones that are not empty. -/
theorem mem_cleanAddresses {usable : String} : usable ∈ cleanAddresses addresses ↔ usable ≠ "" ∧ usable ∈ addresses.map trimSpace := by
  induction addresses using List.reverseRecOn with
  | nil => simp [cleanAddresses]
  | append_singleton addresses address ih =>
    rw [cleanAddresses_append, addAddress, List.map_append, List.mem_append, List.map_singleton, List.mem_singleton]
    split_ifs with blank seen
    · rw [ih, blank, and_congr_right_iff]
      intro named
      rw [or_iff_left named]
    · rw [ih, and_congr_right_iff]
      intro _
      rw [or_iff_left_of_imp]
      rintro rfl
      exact (ih.mp seen).2
    · rw [List.mem_append, List.mem_singleton, ih]
      constructor
      · rintro (⟨named, among⟩ | rfl)
        · exact ⟨named, .inl among⟩
        · exact ⟨blank, .inr rfl⟩
      · rintro ⟨named, among | rfl⟩
        · exact .inl ⟨named, among⟩
        · exact .inr rfl

theorem nodup_cleanAddresses (addresses : List String) : (cleanAddresses addresses).Nodup := by
  induction addresses using List.reverseRecOn with
  | nil => exact List.nodup_nil
  | append_singleton addresses address ih =>
    rw [cleanAddresses_append, addAddress]
    split_ifs with blank seen
    · exact ih
    · exact ih
    · refine List.nodup_append.mpr ⟨ih, List.nodup_singleton _, ?_⟩
      rintro kept member _ added rfl
      exact seen (List.mem_singleton.mp added ▸ member)

/-- Addresses that are trimmed, not empty and all different are kept as they are. -/
theorem cleanAddresses_eq_self (distinct : addresses.Nodup) (clean : ∀ address ∈ addresses, address ≠ "" ∧ trimSpace address = address) :
    cleanAddresses addresses = addresses := by
  induction addresses using List.reverseRecOn with
  | nil => rfl
  | append_singleton addresses address ih =>
    obtain ⟨earlier, _, apart⟩ := List.nodup_append.mp distinct
    rw [List.forall_mem_append, List.forall_mem_singleton] at clean
    obtain ⟨before, named, trimmed⟩ := clean
    have fresh : address ∉ addresses := fun member => apart address member address (List.mem_singleton_self _) rfl
    rw [cleanAddresses_append, ih earlier before, addAddress, trimmed, if_neg named, if_neg fresh]

theorem cleanAddresses_cleanAddresses (addresses : List String) :
    cleanAddresses (cleanAddresses addresses) = cleanAddresses addresses := by
  refine cleanAddresses_eq_self (nodup_cleanAddresses addresses) fun usable member => ?_
  obtain ⟨named, among⟩ := mem_cleanAddresses.mp member
  obtain ⟨address, _, rfl⟩ := List.mem_map.mp among
  exact ⟨named, trimSpace_trimSpace address⟩

/-- The sources' addresses agree up to order, repetition and surrounding blanks. -/
def SameAddresses (addresses other : List String) : Prop :=
  ∀ usable, usable ≠ "" → (usable ∈ addresses.map trimSpace ↔ usable ∈ other.map trimSpace)

theorem SameAddresses.sorted (same : SameAddresses addresses other) :
    canonicalAddresses addresses = canonicalAddresses other := by
  have perm : (cleanAddresses addresses).Perm (cleanAddresses other) := by
    rw [List.perm_ext_iff_of_nodup (nodup_cleanAddresses addresses) (nodup_cleanAddresses other)]
    intro usable
    rw [mem_cleanAddresses, mem_cleanAddresses]
    exact and_congr_right (same usable)
  have sorted := ((List.perm_insertionSort (· ≤ ·) _).trans perm).trans (List.perm_insertionSort (· ≤ ·) _).symm
  exact sorted.eq_of_sortedLE List.sortedLE_insertionSort List.sortedLE_insertionSort

theorem sameAddresses_cleanAddresses (addresses : List String) : SameAddresses (cleanAddresses addresses) addresses := by
  intro usable named
  constructor
  · intro member
    obtain ⟨kept, among, rfl⟩ := List.mem_map.mp member
    obtain ⟨address, listed, rfl⟩ := List.mem_map.mp (mem_cleanAddresses.mp among).2
    rw [trimSpace_trimSpace]
    exact List.mem_map_of_mem listed
  · intro member
    have kept := mem_cleanAddresses.mpr ⟨named, member⟩
    obtain ⟨address, listed, rfl⟩ := List.mem_map.mp member
    exact List.mem_map.mpr ⟨_, kept, trimSpace_trimSpace address⟩

end Addresses

section Names

variable (sum256 : String → Vector UInt8 32)

theorem derivedID_congr {addresses other : List String} (same : SameAddresses addresses other) :
    derivedID sum256 addresses = derivedID sum256 other :=
  congrArg (fun canonical => digestID (sum256 (",".intercalate canonical))) same.sorted

/-- An id that is its own wire scope. -/
structure WireName (id : String) : Prop where
  named : id ≠ ""
  sanitized : sanitizeWireScope id = id
  safe : id.toList.all wireSafe = true

theorem WireName.trimmed {id : String} (name : WireName id) : trimSpace id = id := by
  have kept : trimBoth isSpace ([] ++ id.toList ++ []) = id.toList := by
    refine trimBoth_of_split (List.forall_mem_nil _) fun c atEnd => ?_
    have member : c ∈ id.toList := atEnd.elim List.mem_of_head? List.mem_of_getLast?
    exact not_isSpace_of_wireSafe (List.all_eq_true.mp name.safe c member)
  rw [List.nil_append, List.append_nil] at kept
  rw [trimSpace, kept, String.ofList_toList]

theorem usable_hexDigits : ∀ c ∈ hexDigits, Usable c := List.all_iff_forall_prop.mp rfl

theorem usable_hexEncode {bytes : List UInt8} {c : Char} (member : c ∈ hexEncode bytes) : Usable c := by
  have digit : ∀ n : ℕ, hexDigits.getD n '0' ∈ hexDigits := by
    intro n
    rw [List.getD_eq_getElem?_getD]
    cases found : hexDigits[n]? with
    | none => decide
    | some c => exact List.mem_of_getElem? found
  obtain ⟨byte, _, among⟩ := List.mem_flatMap.mp member
  simp only [List.mem_cons, List.not_mem_nil, or_false] at among
  rcases among with rfl | rfl
  · exact usable_hexDigits _ (digit _)
  · exact usable_hexDigits _ (digit _)

theorem wireName_digestID (digest : Vector UInt8 32) : WireName (digestID digest) := by
  have text : (digestID digest).toList = "consul-".toList ++ hexEncode (digest.toList.take 6) := String.toList_ofList
  have length : (digest.toList.take 6).length = 6 := by
    rw [List.length_take, Vector.length_toList]
    rfl
  generalize digest.toList.take 6 = bytes at text length
  have some : hexEncode bytes ≠ [] := by
    cases bytes with
    | nil => cases length
    | cons byte rest => exact List.cons_ne_nil _ _
  have safe : ∀ c ∈ (digestID digest).toList, wireSafe c = true := by
    rw [text, List.forall_mem_append]
    exact ⟨List.all_eq_true.mp rfl, fun c member => (usable_hexEncode member).1⟩
  refine ⟨?_, ?_, List.all_eq_true.mpr safe⟩
  · intro empty
    rw [empty] at text
    exact absurd text.symm (List.append_ne_nil_of_right_ne_nil _ some)
  · refine sanitizeWireScope_eq_iff.mpr ⟨spells_self_iff.mpr safe, ?_⟩
    intro c atEnd
    rw [text] at atEnd
    rcases atEnd with first | last
    · cases first
      decide
    · rw [List.getLast?_append_of_ne_nil _ some] at last
      exact (usable_hexEncode (List.mem_of_getLast? last)).2

variable {sum256}

/-- Every resolved id is its own wire scope. -/
theorem wireName_of_consulSourceID {configured id : String} {addresses : List String}
    (resolved : consulSourceID sum256 configured addresses = .ok id) : WireName id := by
  rw [consulSourceID] at resolved
  split_ifs at resolved with named odd other
  · cases resolved
    exact ⟨named, not_not.mp other, by simpa using odd⟩
  · cases resolved
    exact wireName_digestID _

theorem consulSourceID_of_wireName {id : String} (name : WireName id) (addresses : List String) :
    consulSourceID sum256 id addresses = .ok id := by
  rw [consulSourceID, name.trimmed]
  simp only [ne_eq, name.named, not_false_eq_true, ↓reduceIte, name.safe, Bool.not_true, Bool.false_eq_true, name.sanitized,
    not_true_eq_false]

theorem consulSourceID_trimSpace (configured : String) (addresses : List String) :
    consulSourceID sum256 (trimSpace configured) addresses = consulSourceID sum256 configured addresses := by
  rw [consulSourceID, consulSourceID, trimSpace_trimSpace]

end Names

/-! ## One relation for both loops -/

section Loops

variable {sum256 : String → Vector UInt8 32} {TLSConfig : Type} {seen : List String}

/-- The sources resolve one by one, to ids that are neither among the given ones nor repeated. -/
inductive Normalises (sum256 : String → Vector UInt8 32) :
    List String → List ConsulSourceConfig → List ConsulSourceConfig → Prop
  | nil (seen : List String) : Normalises sum256 seen [] []
  | cons {seen : List String} {source : ConsulSourceConfig} {sources result : List ConsulSourceConfig} {id : String}
      (usable : cleanAddresses source.addresses ≠ [])
      (resolved : consulSourceID sum256 source.id (cleanAddresses source.addresses) = .ok id) (fresh : id ∉ seen)
      (rest : Normalises sum256 (id :: seen) sources result) :
      Normalises sum256 seen (source :: sources) ({ source with id := id, addresses := cleanAddresses source.addresses } :: result)

theorem normalises_cons_iff {source resolved : ConsulSourceConfig} {sources result : List ConsulSourceConfig} :
    Normalises sum256 seen (source :: sources) (resolved :: result) ↔
      cleanAddresses source.addresses ≠ [] ∧ consulSourceID sum256 source.id (cleanAddresses source.addresses) = .ok resolved.id ∧
        resolved = { source with id := resolved.id, addresses := cleanAddresses source.addresses } ∧ resolved.id ∉ seen ∧
          Normalises sum256 (resolved.id :: seen) sources result := by
  constructor
  · rintro (_ | ⟨usable, accepted, fresh, rest⟩)
    exact ⟨usable, accepted, rfl, fresh, rest⟩
  · rintro ⟨usable, accepted, same, fresh, rest⟩
    rw [same]
    exact .cons usable accepted fresh rest

theorem ok_of_map_ok {α β : Type} {f : α → β} {attempt : Except GoError α} {value : β} (done : attempt.map f = .ok value) :
    ∃ found, attempt = .ok found ∧ f found = value := by
  cases attempt with
  | error err => cases done
  | ok found =>
    cases done
    exact ⟨found, rfl, rfl⟩

/-- The configuration accepts exactly what the relation holds of. -/
theorem normalizeConfigFrom_eq_ok_iff {index : ℕ} {sources result : List ConsulSourceConfig} :
    normalizeConfigFrom sum256 seen index sources = .ok result ↔ Normalises sum256 seen sources result := by
  induction sources generalizing seen index result with
  | nil =>
    rw [normalizeConfigFrom]
    constructor
    · intro done
      cases done
      exact .nil seen
    · rintro ⟨⟩
      rfl
  | cons source rest ih =>
    rw [normalizeConfigFrom]
    constructor
    · intro done
      split_ifs at done with none
      split at done
      case h_1 => cases done
      case h_2 id resolved =>
        have named := (wireName_of_consulSourceID resolved).named
        split_ifs at done with known
        obtain ⟨result, accepted, rfl⟩ := ok_of_map_ok done
        refine .cons (fun empty => none (List.isEmpty_iff.mpr empty)) resolved (fun known' => known ⟨named, known'⟩) ?_
        exact ih.mp accepted
    · intro normalises
      cases normalises with
      | @cons _ _ _ result id usable resolved fresh others =>
        have named := (wireName_of_consulSourceID resolved).named
        have occupied : (cleanAddresses source.addresses).isEmpty = false := List.isEmpty_eq_false_iff.mpr usable
        simp only [occupied, Bool.false_eq_true, ↓reduceIte, resolved, fresh, and_false, named, ne_eq, not_false_eq_true,
          ih.mpr others]
        rfl

/-- The wire ids seen are the ids seen. -/
def Mirrors (wireSeen : FiniteMap String String) (seen : List String) : Prop := ∀ id, wireSeen.lookup id = none ↔ id ∉ seen

theorem Mirrors.insert {wireSeen : FiniteMap String String} (mirrors : Mirrors wireSeen seen) (id value : String) :
    Mirrors (wireSeen.insert id value) (id :: seen) := by
  intro other
  rw [FiniteMap.lookup_insert_ite, List.mem_cons, not_or]
  split_ifs with same
  · simp [same]
  · rw [mirrors other]
    exact (and_iff_right same).symm

theorem normalized_eq_ok_iff {source resolved : ConsulSource TLSConfig} : source.normalized sum256 = .ok resolved ↔
      cleanAddresses source.addresses ≠ [] ∧ consulSourceID sum256 source.id (cleanAddresses source.addresses) = .ok resolved.id ∧
        resolved = { source with id := resolved.id, addresses := cleanAddresses source.addresses } := by
  rw [ConsulSource.normalized, consulSourceID_trimSpace]
  constructor
  · intro done
    split_ifs at done with none
    obtain ⟨id, accepted, rfl⟩ := ok_of_map_ok done
    exact ⟨fun empty => none (List.isEmpty_iff.mpr empty), accepted, rfl⟩
  · rintro ⟨usable, accepted, same⟩
    have occupied : (cleanAddresses source.addresses).isEmpty = false := List.isEmpty_eq_false_iff.mpr usable
    rw [occupied, accepted, same]
    rfl

/-- The provider accepts the same, and passes the client settings on: the further checks of its loop never fire. -/
theorem normalizeSourcesFrom_eq_ok_iff {wireSeen : FiniteMap String String} (mirrors : Mirrors wireSeen seen) {index : ℕ}
    {sources result : List (ConsulSource TLSConfig)} :
    normalizeSourcesFrom sum256 seen wireSeen index sources = .ok result ↔
      Normalises sum256 seen (sources.map (·.toConsulSourceConfig)) (result.map (·.toConsulSourceConfig)) ∧
        result.map (·.tlsConfig) = sources.map (·.tlsConfig) := by
  induction sources generalizing seen wireSeen index result with
  | nil =>
    rw [normalizeSourcesFrom]
    constructor
    · intro done
      cases done
      exact ⟨.nil seen, rfl⟩
    · rintro ⟨_, none⟩
      rw [List.map_eq_nil_iff.mp none]
  | cons source sources ih =>
    rw [normalizeSourcesFrom]
    constructor
    · intro done
      split at done
      case h_1 => cases done
      case h_2 resolved normalized =>
        obtain ⟨usable, accepted, same⟩ := normalized_eq_ok_iff.mp normalized
        have name := wireName_of_consulSourceID accepted
        dsimp only at done
        rw [name.sanitized, if_neg name.named] at done
        split_ifs at done with known
        split at done
        case h_1 => cases done
        case h_2 unknown =>
          obtain ⟨result, others, rfl⟩ := ok_of_map_ok done
          obtain ⟨normalises, settings⟩ := (ih (mirrors.insert resolved.id resolved.id)).mp others
          refine ⟨?_, ?_⟩
          · rw [List.map_cons, List.map_cons, same]
            exact .cons usable accepted known normalises
          · rw [List.map_cons, List.map_cons, settings, same]
    · rintro ⟨normalises, settings⟩
      cases result with
      | nil => cases settings
      | cons resolved result =>
        rw [List.map_cons, List.map_cons] at normalises settings
        obtain ⟨setting, settings⟩ := List.cons_eq_cons.mp settings
        obtain ⟨usable, accepted, same, fresh, others⟩ := normalises_cons_iff.mp normalises
        have name := wireName_of_consulSourceID accepted
        have normalized : source.normalized sum256 = .ok resolved := by
          refine normalized_eq_ok_iff.mpr ⟨usable, accepted, ?_⟩
          rcases resolved with ⟨resolved, own⟩
          dsimp only at same setting
          rw [← same, setting]
        have unknown := (mirrors resolved.id).mpr fresh
        have rest : normalizeSourcesFrom sum256 (resolved.id :: seen) (wireSeen.insert resolved.id resolved.id) (index + 1)
            sources = .ok result := (ih (mirrors.insert resolved.id resolved.id)).mpr ⟨others, settings⟩
        simp only [normalized, if_neg fresh]
        rw [name.sanitized, if_neg name.named, unknown, rest]
        rfl

theorem normalizeConsulSources_eq_ok_iff {sources result : List ConsulSourceConfig} :
    normalizeConsulSources sum256 sources = .ok result ↔ sources ≠ [] ∧ Normalises sum256 [] sources result := by
  rw [normalizeConsulSources]
  cases sources with
  | nil => simp
  | cons source sources => simp [normalizeConfigFrom_eq_ok_iff]

theorem normalizeSources_eq_ok_iff {sources result : List (ConsulSource TLSConfig)} :
    normalizeSources sum256 sources = .ok result ↔
      sources ≠ [] ∧ Normalises sum256 [] (sources.map (·.toConsulSourceConfig)) (result.map (·.toConsulSourceConfig)) ∧
        result.map (·.tlsConfig) = sources.map (·.tlsConfig) := by
  have mirrors : Mirrors ∅ [] := fun id => iff_of_true (Finmap.lookup_empty id) List.not_mem_nil
  rw [normalizeSources]
  cases sources with
  | nil => simp
  | cons source sources =>
    rw [List.isEmpty_cons, if_neg Bool.false_ne_true, normalizeSourcesFrom_eq_ok_iff mirrors,
      and_iff_right (List.cons_ne_nil source sources)]

/-! ## What is accepted -/

section Accepted

variable {sources result : List ConsulSourceConfig}

section

variable (normalises : Normalises sum256 seen sources result)

include normalises

theorem Normalises.names : ∀ resolved ∈ result, WireName resolved.id := by
  induction normalises with
  | nil seen => exact List.forall_mem_nil _
  | cons usable resolved fresh rest ih => exact List.forall_mem_cons.mpr ⟨wireName_of_consulSourceID resolved, ih⟩

theorem Normalises.distinct :
    (result.map (·.id)).Nodup ∧ ∀ resolved ∈ result, resolved.id ∉ seen := by
  induction normalises with
  | nil seen => exact ⟨List.nodup_nil, List.forall_mem_nil _⟩
  | cons usable resolved fresh rest ih =>
    obtain ⟨others, apart⟩ := ih
    refine ⟨List.nodup_cons.mpr ⟨?_, others⟩, List.forall_mem_cons.mpr ⟨fresh, ?_⟩⟩
    · intro repeated
      obtain ⟨other, member, same⟩ := List.mem_map.mp repeated
      exact apart other member (same ▸ List.mem_cons_self)
    · exact fun other member known => apart other member (List.mem_cons_of_mem _ known)

/-- What was resolved resolves to itself. -/
theorem Normalises.again : Normalises sum256 seen result result := by
  induction normalises with
  | nil seen => exact .nil seen
  | cons usable resolved fresh rest ih =>
    refine normalises_cons_iff.mpr ⟨?_, ?_, ?_, fresh, ih⟩
    · rwa [cleanAddresses_cleanAddresses]
    · exact consulSourceID_of_wireName (wireName_of_consulSourceID resolved) _
    · rw [cleanAddresses_cleanAddresses]

end

/-- The sources are given the same ids, or none, and the same addresses up to order, repetition and blanks. -/
structure SameSource (source other : ConsulSourceConfig) : Prop where
  id : trimSpace source.id = trimSpace other.id
  addresses : SameAddresses source.addresses other.addresses

theorem SameAddresses.clean {addresses other : List String} (same : SameAddresses addresses other) :
    SameAddresses (cleanAddresses addresses) (cleanAddresses other) := by
  intro usable named
  rw [sameAddresses_cleanAddresses addresses usable named, sameAddresses_cleanAddresses other usable named]
  exact same usable named

section

variable {other : ConsulSourceConfig} {source : ConsulSourceConfig} (same : SameSource source other)

include same

theorem SameSource.consulSourceID : consulSourceID sum256 source.id (cleanAddresses source.addresses) =
      consulSourceID sum256 other.id (cleanAddresses other.addresses) := by
  rw [Consul.consulSourceID, Consul.consulSourceID, same.id, derivedID_congr sum256 same.addresses.clean]

theorem SameSource.usable (usable : cleanAddresses source.addresses ≠ []) : cleanAddresses other.addresses ≠ [] := by
  obtain ⟨address, member⟩ := List.exists_mem_of_ne_nil _ usable
  obtain ⟨named, listed⟩ := mem_cleanAddresses.mp member
  exact List.ne_nil_of_mem (mem_cleanAddresses.mpr ⟨named, (same.addresses address named).mp listed⟩)

end

/-- The ids do not depend on how the addresses are written. -/
theorem Normalises.sameIDs {others : List ConsulSourceConfig} (same : List.Forall₂ SameSource sources others)
    (normalises : Normalises sum256 seen sources result) :
    ∃ other, Normalises sum256 seen others other ∧ other.map (·.id) = result.map (·.id) := by
  induction normalises generalizing others with
  | nil seen =>
    cases same
    exact ⟨[], .nil seen, rfl⟩
  | cons usable resolved fresh rest ih =>
    cases same with
    | cons first same =>
      obtain ⟨other, accepted, ids⟩ := ih same
      rw [first.consulSourceID] at resolved
      exact ⟨_, .cons (first.usable usable) resolved fresh accepted, congrArg (List.cons _) ids⟩

theorem Normalises.length (normalises : Normalises sum256 seen sources result) : result.length = sources.length := by
  induction normalises with
  | nil seen => rfl
  | cons usable resolved fresh rest ih => rw [List.length_cons, List.length_cons, ih]

end Accepted

theorem exists_settings {configs : List ConsulSourceConfig} {sources : List (ConsulSource TLSConfig)}
    (length : configs.length = sources.length) :
    ∃ result : List (ConsulSource TLSConfig), result.map (·.toConsulSourceConfig) = configs ∧
      result.map (·.tlsConfig) = sources.map (·.tlsConfig) := by
  induction configs generalizing sources with
  | nil => exact ⟨[], rfl, by rw [List.length_eq_zero_iff.mp length.symm]⟩
  | cons config configs ih =>
    cases sources with
    | nil => cases length
    | cons source sources =>
      obtain ⟨result, same, settings⟩ := ih (Nat.succ.inj length)
      exact ⟨⟨config, source.tlsConfig⟩ :: result, congrArg (List.cons _) same, congrArg (List.cons _) settings⟩

/-- The provider accepts a list exactly if the configuration accepts its descriptors, and with the same ones. -/
theorem accepted_iff {sources : List (ConsulSource TLSConfig)} {configs : List ConsulSourceConfig} :
    normalizeConsulSources sum256 (sources.map (·.toConsulSourceConfig)) = .ok configs ↔
      ∃ result, normalizeSources sum256 sources = .ok result ∧ result.map (·.toConsulSourceConfig) = configs := by
  rw [normalizeConsulSources_eq_ok_iff, ne_eq, List.map_eq_nil_iff]
  constructor
  · rintro ⟨some, normalises⟩
    obtain ⟨result, rfl, settings⟩ := exists_settings (normalises.length.trans (List.length_map _))
    exact ⟨result, normalizeSources_eq_ok_iff.mpr ⟨some, normalises, settings⟩, rfl⟩
  · rintro ⟨result, accepted, rfl⟩
    obtain ⟨some, normalises, _⟩ := normalizeSources_eq_ok_iff.mp accepted
    exact ⟨some, normalises⟩

end Loops

/-- Both normalisers reject the sources, or both accept them with the same descriptors. What is accepted has distinct ids that
are their own wire scopes, is accepted unchanged again, and has the ids that any other spelling of the addresses has. -/
theorem source_normalisers_agree {TLSConfig : Type} (sum256 : String → Vector UInt8 32) (sources : List (ConsulSource TLSConfig)) :
    ((∃ err, normalizeConsulSources sum256 (sources.map (·.toConsulSourceConfig)) = .error err) ∧
        ∃ err, normalizeSources sum256 sources = .error err) ∨
      ∃ result, normalizeSources sum256 sources = .ok result ∧
        normalizeConsulSources sum256 (sources.map (·.toConsulSourceConfig)) = .ok (result.map (·.toConsulSourceConfig)) ∧
        (∀ resolved ∈ result, resolved.id ≠ "" ∧ sanitizeWireScope resolved.id = resolved.id) ∧ (result.map (·.id)).Nodup ∧
        normalizeSources sum256 result = .ok result ∧
        normalizeConsulSources sum256 (result.map (·.toConsulSourceConfig)) = .ok (result.map (·.toConsulSourceConfig)) ∧
        ∀ others : List (ConsulSource TLSConfig),
          List.Forall₂ (fun source other => SameSource source.toConsulSourceConfig other.toConsulSourceConfig) sources others →
            ∃ other, normalizeSources sum256 others = .ok other ∧
              normalizeConsulSources sum256 (others.map (·.toConsulSourceConfig)) = .ok (other.map (·.toConsulSourceConfig)) ∧
              other.map (·.id) = result.map (·.id) := by
  cases provided : normalizeSources sum256 sources with
  | error err =>
      left
      refine ⟨?_, err, rfl⟩
      cases configured : normalizeConsulSources sum256 (sources.map (·.toConsulSourceConfig)) with
      | error err => exact ⟨err, rfl⟩
      | ok configs =>
          obtain ⟨result, accepted, _⟩ := accepted_iff.mp configured
          rw [provided] at accepted
          cases accepted
  | ok result =>
      right
      obtain ⟨some, normalises, settings⟩ := normalizeSources_eq_ok_iff.mp provided
      have kept : result ≠ [] := by
        rintro rfl
        exact some (List.map_eq_nil_iff.mp settings.symm)
      have again : normalizeSources sum256 result = .ok result := normalizeSources_eq_ok_iff.mpr ⟨kept, normalises.again, rfl⟩
      refine ⟨result, rfl, accepted_iff.mpr ⟨result, provided, rfl⟩, ?_, ?_, again, accepted_iff.mpr ⟨result, again, rfl⟩, ?_⟩
      · intro resolved member
        have name := normalises.names _ (List.mem_map_of_mem member)
        exact ⟨name.named, name.sanitized⟩
      · have distinct := normalises.distinct.1
        rwa [List.map_map] at distinct
      · intro others same
        have descriptors : List.Forall₂ SameSource (sources.map (·.toConsulSourceConfig)) (others.map (·.toConsulSourceConfig)) :=
          List.forall₂_map_right_iff.mpr (List.forall₂_map_left_iff.mpr same)
        obtain ⟨configs, accepted, ids⟩ := normalises.sameIDs descriptors
        have named : others.map (·.toConsulSourceConfig) ≠ [] := by
          intro none
          rw [List.map_eq_nil_iff.mp none] at same
          cases same
          exact some rfl
        obtain ⟨other, provided, rfl⟩ := accepted_iff.mp (normalizeConsulSources_eq_ok_iff.mpr ⟨named, accepted⟩)
        refine ⟨other, provided, accepted_iff.mpr ⟨other, provided, rfl⟩, ?_⟩
        rw [List.map_map, List.map_map] at ids
        exact ids

/-- A source without an id and one with an id, and the same two with their addresses written another way. -/
def plainSources : List (ConsulSource Unit) :=
  [{ id := "", addresses := ["10.0.0.1:8500", "10.0.0.2:8500"], tlsConfig := () }, { id := "dc2", addresses := ["c"], tlsConfig := () }]

def untidySources : List (ConsulSource Unit) :=
  [{ id := " ", addresses := ["10.0.0.2:8500", " 10.0.0.1:8500", "", "10.0.0.2:8500 "], tlsConfig := () },
    { id := "dc2 ", addresses := ["c", "c"], tlsConfig := () }]

theorem untidy_sources_same_ids : ∃ other, normalizeSources (fun _ => Vector.replicate 32 171) untidySources = .ok other ∧
      other.map (·.id) = ["consul-abababababab", "dc2"] := by
  have same : List.Forall₂ (fun source other => SameSource source.toConsulSourceConfig other.toConsulSourceConfig)
      plainSources untidySources := by
    refine .cons ⟨by decide, ?_⟩ (.cons ⟨by decide, ?_⟩ .nil)
    · intro usable named
      have listed : ["10.0.0.1:8500", "10.0.0.2:8500"].map trimSpace = ["10.0.0.1:8500", "10.0.0.2:8500"] := by decide
      have written : ["10.0.0.2:8500", " 10.0.0.1:8500", "", "10.0.0.2:8500 "].map trimSpace =
          ["10.0.0.2:8500", "10.0.0.1:8500", "", "10.0.0.2:8500"] := by decide
      rw [listed, written]
      grind
    · intro usable named
      simp
  have accepted : (normalizeSources (fun _ => Vector.replicate 32 171) plainSources).toOption.map (·.map (·.id)) =
      some ["consul-abababababab", "dc2"] := by decide +kernel
  rcases source_normalisers_agree (fun _ => Vector.replicate 32 171) plainSources with
    ⟨_, err, rejected⟩ | ⟨result, provided, _, _, _, _, _, spelled⟩
  · rw [rejected] at accepted
    cases accepted
  · rw [provided] at accepted
    obtain ⟨other, provided, _, ids⟩ := spelled untidySources same
    exact ⟨other, provided, ids.trans (Option.some.inj accepted)⟩

end Spotter.Providers.Consul
