import Cryptogram.Keyring.Loader
import Cryptogram.Proofs.Cache

/-!
# Loaders and their memory

A loader answers from its memory what it would find by reading the keyring anew, whatever keyrings were
put in the places of others since (`run_publicKey`).
-/

namespace Cryptogram.Keyring

variable {suite : Suite} {location : String} {data : Bytes}

/-! ## Places -/

/-- What a keyring holds does not depend on where it is kept. -/
theorem Ring.read_of_read {keys : List RingKey} (h : Ring.read suite location data = .ok keys)
    (location' : String) : Ring.read suite location' data = .ok keys := by
  unfold Ring.read at h ⊢
  cases assembled : unarmored? data >>= Item.ofBytes? >>= assemble? suite with
  | none =>
    rw [assembled] at h
    cases h
  | some all =>
    rw [assembled] at h
    dsimp only at h ⊢
    split at h
    · cases h
    · exact h

theorem PublicEntry.readAll_of_readAll {entries : List PublicEntry}
    (h : PublicEntry.readAll suite location data = .ok entries) (location' : String) :
    PublicEntry.readAll suite location' data = .ok entries := by
  unfold PublicEntry.readAll at h ⊢
  cases read : Ring.read suite location data with
  | error f => simp [read, bind, Except.bind] at h
  | ok keys =>
    rw [read] at h
    rw [Ring.read_of_read read location']
    exact h

theorem Shelf.find?_add (s : Shelf) (location' : String) :
    (s.add location data).find? location' =
      if location = location' then some data else s.find? location' := by
  unfold Shelf.add Shelf.find?
  split_ifs with same
  · simp [same]
  · rw [List.find?_cons_of_neg (by simpa using same), List.find?_filter]
    congr 2
    funext e
    by_cases here : e.1 = location'
    · simp [here, Ne.symm same]
    · simp [here]

namespace Loader

/-! ## Requests -/

/-- What is asked of a loader. -/
inductive Request
  /-- Puts a keyring at a location, in the place of one that is there. -/
  | add (location : String) (data : Bytes)
  /-- Looks for the key of a recipient. -/
  | publicKey (location userId : String)
  /-- Opens a private keyring. -/
  | privateKeyring (location : String) (passphrase : Bytes)
  /-- Empties the memory. -/
  | clear
  deriving DecidableEq, Repr

inductive Answer
  | done
  | publicKey (found : Except Failure EncryptionKey)
  | privateKeyring (opened : Except Failure PrivateKeyring)

/-- The answer to a request, and the loader afterwards. -/
def serve (suite : Suite) (l : Loader) : Request → Answer × Loader
  | .add location data => (.done, { l with shelf := l.shelf.add location data })
  | .publicKey location userId =>
    let (found, l) := l.publicKey suite location userId
    (.publicKey found, l)
  | .privateKeyring location passphrase =>
    (.privateKeyring (l.privateKeyring suite location passphrase), l)
  | .clear => (.done, { l with cache := l.cache.clear })

/-- The answers to requests one after another. -/
def run (suite : Suite) : Loader → List Request → List Answer
  | _, [] => []
  | l, request :: rest => (l.serve suite request).1 :: run suite (l.serve suite request).2 rest

/-- The loader after requests. -/
def after (suite : Suite) (l : Loader) (past : List Request) : Loader :=
  past.foldl (fun l request => (l.serve suite request).2) l

theorem getElem?_run (l : Loader) (requests : List Request) (i : Nat) :
    (run suite l requests)[i]? =
      requests[i]?.map fun request => (((l.after suite (requests.take i)).serve suite) request).1 := by
  induction requests generalizing l i with
  | nil => rfl
  | cons request rest ih =>
    cases i with
    | zero => rfl
    | succ i => exact ih (l.serve suite request).2 i

/-! ## Without a memory -/

namespace Request

/-- The keyring that a request puts somewhere. -/
def keyring? : Request → Option Bytes
  | .add _ data => some data
  | _ => none

/-- The keyring that a request puts at a location. -/
def keyringAt? (location : String) : Request → Option Bytes
  | .add location' data => if location' = location then some data else none
  | _ => none

end Request

/-- All keyrings that requests put somewhere. -/
def keyrings (past : List Request) : List Bytes := past.filterMap Request.keyring?

/-- The keyring that requests put at a location last. -/
def contentAt (location : String) (past : List Request) : Option Bytes :=
  (past.filterMap (Request.keyringAt? location)).getLast?

/-- The key of a recipient in the keyring that was put at a location last. -/
def readAnew (suite : Suite) (past : List Request) (location userId : String) :
    Except Failure EncryptionKey :=
  match contentAt location past with
  | none => .error (.keyringMissing location)
  | some data => PublicEntry.readAll suite location data >>= PublicEntry.select location userId

theorem contentAt_concat (past : List Request) (request : Request) :
    contentAt location (past ++ [request]) =
      (request.keyringAt? location).or (contentAt location past) := by
  unfold contentAt
  rw [List.filterMap_append]
  cases found : request.keyringAt? location <;> simp [found]

theorem mem_keyrings_of_contentAt {past : List Request} (h : contentAt location past = some data) :
    data ∈ keyrings past := by
  obtain ⟨request, hr, put⟩ := List.mem_filterMap.1 (List.mem_of_getLast? h)
  refine List.mem_filterMap.2 ⟨request, hr, ?_⟩
  cases request with
  | add location' data' =>
    simp only [Request.keyringAt?] at put
    split_ifs at put
    exact put
  | publicKey => cases put
  | privateKeyring => cases put
  | clear => cases put

/-! ## Histories and loaders -/

/-- A memory holds what was read from keyrings that requests put somewhere, under their hashes. -/
def Recalls (suite : Suite) (past : List Request) (cache : Cache Bytes (List PublicEntry)) : Prop :=
  ∀ entry ∈ cache.entries, ∃ data ∈ keyrings past, entry.1 = (suite.digest .sha256).hash data ∧
    ∀ location, PublicEntry.readAll suite location data = .ok entry.2

/-- A loader has the keyrings that were put on its shelf, and its memory was read from them. -/
structure Faithful (suite : Suite) (past : List Request) (l : Loader) : Prop where
  shelf : ∀ location, l.shelf.find? location = contentAt location past
  memory : Recalls suite past l.cache

theorem publicKey_of_missing {l : Loader} {userId : String} (h : l.shelf.find? location = none) :
    l.publicKey suite location userId = (.error (.keyringMissing location), l) := by
  simp only [publicKey, Shelf.read, h]

theorem publicKey_of_find? {l : Loader} {userId : String} (h : l.shelf.find? location = some data) :
    l.publicKey suite location userId =
      ((l.entries suite location data).1 >>= PublicEntry.select location userId,
        (l.entries suite location data).2) := by
  simp only [publicKey, Shelf.read, h]

namespace Faithful

variable {past : List Request} {l : Loader}

theorem start (suite : Suite) (capacity : Nat) :
    Faithful suite [] ⟨{}, ⟨capacity, []⟩⟩ where
  shelf := fun _ => rfl
  memory := by
    intro entry he
    cases he

/-- A request that puts no keyring anywhere leaves the shelf as it is. -/
theorem of_quiet (h : Faithful suite past l) {request : Request} (quiet : request.keyring? = none)
    {cache : Cache Bytes (List PublicEntry)} (memory : Recalls suite past cache) :
    Faithful suite (past ++ [request]) { l with cache := cache } where
  shelf := by
    intro location
    have none : request.keyringAt? location = none := by
      cases request with
      | add => cases quiet
      | publicKey => rfl
      | privateKeyring => rfl
      | clear => rfl
    rw [contentAt_concat, none, Option.none_or]
    exact h.shelf location
  memory := by
    intro entry he
    obtain ⟨data, put, facts⟩ := memory entry he
    exact ⟨data, by simpa [keyrings, quiet] using put, facts⟩

theorem add (h : Faithful suite past l) (location : String) (data : Bytes) :
    Faithful suite (past ++ [.add location data]) { l with shelf := l.shelf.add location data } where
  shelf := by
    intro location'
    rw [contentAt_concat, Shelf.find?_add, h.shelf location']
    simp only [Request.keyringAt?]
    split_ifs <;> rfl
  memory := by
    intro entry he
    obtain ⟨data', put, facts⟩ := h.memory entry he
    refine ⟨data', ?_, facts⟩
    rw [keyrings, List.filterMap_append]
    exact List.mem_append_left _ put

/-- What a lookup remembers was read from the keyring that it was asked about. -/
theorem recalls_entries (h : Faithful suite past l) (put : data ∈ keyrings past) :
    Recalls suite past (l.entries suite location data).2.cache := by
  intro entry he
  unfold Loader.entries at he
  rcases Cache.mem_of_mem_getOrLoad he with kept | ⟨key, loaded⟩
  · exact h.memory entry kept
  · exact ⟨data, put, key, PublicEntry.readAll_of_readAll loaded⟩

/-- One request keeps the loader and the history together. -/
theorem serve (h : Faithful suite past l) (request : Request) :
    Faithful suite (past ++ [request]) (l.serve suite request).2 := by
  cases request with
  | add location data => exact h.add location data
  | privateKeyring => exact h.of_quiet rfl h.memory
  | clear =>
    refine h.of_quiet rfl fun entry he => ?_
    cases he
  | publicKey location userId =>
    show Faithful suite _ (l.publicKey suite location userId).2
    cases found : l.shelf.find? location with
    | none =>
      rw [publicKey_of_missing found]
      exact h.of_quiet rfl h.memory
    | some data =>
      rw [publicKey_of_find? found]
      rw [h.shelf location] at found
      exact h.of_quiet rfl (h.recalls_entries (mem_keyrings_of_contentAt found))

theorem after (h : Faithful suite past l) (requests : List Request) :
    Faithful suite (past ++ requests) (l.after suite requests) := by
  induction requests generalizing past l with
  | nil => simpa [Loader.after] using h
  | cons request rest ih =>
    have later := ih (h.serve request)
    rwa [List.append_assoc] at later

/-- Where no two keyrings have one hash, the memory gives what the keyring holds. -/
theorem entries_eq (h : Faithful suite past l)
    (distinct : ∀ data' ∈ keyrings past,
      (suite.digest .sha256).hash data = (suite.digest .sha256).hash data' → data = data') :
    (l.entries suite location data).1 = PublicEntry.readAll suite location data := by
  unfold Loader.entries
  rw [Cache.getOrLoad_eq]
  cases found : l.cache.find? ((suite.digest .sha256).hash data) with
  | some entries =>
    -- They may have been read from another location.
    obtain ⟨data', put', same, read⟩ := h.memory _ (Cache.mem_of_find? found)
    obtain rfl := distinct data' put' same
    exact (read location).symm
  | none =>
    dsimp only
    cases PublicEntry.readAll suite location data <;> rfl

theorem publicKey_eq (h : Faithful suite past l)
    (distinct : ∀ data ∈ keyrings past, ∀ data' ∈ keyrings past,
      (suite.digest .sha256).hash data = (suite.digest .sha256).hash data' → data = data')
    (location userId : String) :
    (l.publicKey suite location userId).1 = readAnew suite past location userId := by
  unfold readAnew
  rw [← h.shelf location]
  cases found : l.shelf.find? location with
  | none => rw [publicKey_of_missing found]
  | some data =>
    rw [publicKey_of_find? found]
    rw [h.shelf location] at found
    rw [h.entries_eq (distinct data (mem_keyrings_of_contentAt found))]

end Faithful

/-- A loader that began without keyrings and with an empty memory, of whatever capacity, answers every
lookup of a recipient as if it read the keyring anew that was put at the location last: with the same
key, or with the same failure about the same location.  No two keyrings that were put anywhere may
have one hash. -/
theorem run_publicKey (suite : Suite) {n : Nat} (pos : 1 ≤ n) (requests : List Request)
    (distinct : ∀ data ∈ keyrings requests, ∀ data' ∈ keyrings requests,
      (suite.digest .sha256).hash data = (suite.digest .sha256).hash data' → data = data') :
    ∃ cache, Cache.make n = .ok cache ∧
      ∀ (i : Nat) (location userId : String),
        requests[i]? = some (.publicKey location userId) →
        (run suite ⟨{}, cache⟩ requests)[i]? =
          some (.publicKey (readAnew suite (requests.take i) location userId)) := by
  have room : ¬ (n : Int) ≤ 0 := by omega
  refine ⟨⟨n, []⟩, by rw [Cache.make, if_neg room]; rfl, fun i location userId asked => ?_⟩
  have faithful := (Faithful.start suite n).after (requests.take i)
  rw [List.nil_append] at faithful
  have earlier : ∀ data ∈ keyrings (requests.take i), data ∈ keyrings requests := fun data put =>
    ((List.take_sublist i requests).filterMap _).subset put
  have same := faithful.publicKey_eq
    (fun data put data' put' => distinct data (earlier data put) data' (earlier data' put'))
    location userId
  rw [getElem?_run, asked, ← same]
  rfl

/-- With room for the recipients of one keyring: the same keyring at another location, and another one
in the place of the first. -/
theorem run_publicKey_replaced :
    let ring (name : UInt8) : Bytes :=
      [0xc6, 0x2b, 0x04, 0x00, 0x00, 0x00, 0x00, 0x01, 0x01, 0x00, 0x80, 0x00, 0x00, 0x00, 0x00,
        0x00, 0x00, 0x00, 0x00, 0x00, 0x00, 0x00, 0x00, 0x00, 0x00, 0x00, 0x00, 0x00, 0x00, 0x00,
        0x00, 0x00, 0x00, 0x00, 0x00, 0x00, 0x00, 0x00, 0x00, 0x00, 0x00, 0x01, 0x00, 0x02, 0x03,
        0xcd, 0x01, name]
    let requests : List Request :=
      [.add "a" (ring 0x41), .publicKey "a" "A", .add "b" (ring 0x41), .publicKey "b" "B",
        .add "a" (ring 0x42), .publicKey "a" "A", .publicKey "b" "A"]
    1 ≤ 1 ∧
      (∀ data ∈ keyrings requests, ∀ data' ∈ keyrings requests,
        (Suite.standard.digest .sha256).hash data = (Suite.standard.digest .sha256).hash data' →
          data = data') ∧
      ∃ cache, Cache.make 1 = .ok cache ∧
        (run .standard ⟨{}, cache⟩ requests)[3]? = some (.publicKey (.error (.noPublicKey "b"))) ∧
        (run .standard ⟨{}, cache⟩ requests)[5]? = some (.publicKey (.error (.noPublicKey "a"))) ∧
        (run .standard ⟨{}, cache⟩ requests)[6]? =
          some (.publicKey (readAnew .standard (requests.take 6) "b" "A")) := by
  intro ring requests
  have distinct : ∀ data ∈ keyrings requests, ∀ data' ∈ keyrings requests,
      (Suite.standard.digest .sha256).hash data = (Suite.standard.digest .sha256).hash data' →
        data = data' := by decide +kernel
  obtain ⟨cache, made, answers⟩ := run_publicKey .standard (by decide : 1 ≤ 1) requests distinct
  have unnamed : readAnew .standard (requests.take 3) "b" "B" = .error (.noPublicKey "b") := by
    decide
  have replaced : readAnew .standard (requests.take 5) "a" "A" = .error (.noPublicKey "a") := by
    decide
  refine ⟨by decide, distinct, cache, made, ?_, ?_, answers 6 "b" "A" rfl⟩
  · rw [← unnamed]
    exact answers 3 "b" "B" rfl
  · rw [← replaced]
    exact answers 5 "a" "A" rfl

end Loader

end Cryptogram.Keyring
