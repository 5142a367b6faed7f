import Mathlib.Data.List.Dedup
import Mathlib.Data.List.DropRight
import Cryptogram.Cache

/-!
# What a cache remembers

Requests to a cache leave a history of events.  What the cache holds can be told from that history:
the keys that were returned last, each with what its most recent load gave (`remembers_run`).
-/

namespace Cryptogram.Cache

variable {κ α ε : Type}

/-! ## Requests and events -/

/-- What is asked of a cache. -/
inductive Request (κ α ε : Type)
  /-- The value of a key, with what the loader gives if it is run. -/
  | get (key : κ) (load : Except ε α)
  | clear
  deriving Repr

/-- What came of a request. -/
inductive Event (κ α ε : Type)
  /-- A key was asked for: how often the loader was run, and the answer. -/
  | got (key : κ) (runs : Nat) (answer : Except ε α)
  | cleared
  deriving Repr

/-- A loader that counts how often it is run. -/
def counted (load : Except ε α) : StateM Nat (Except ε α) := do
  modify (· + 1)
  return load

section

variable [DecidableEq κ]

/-- What comes of a request, and the cache afterwards. -/
def serve (c : Cache κ α) : Request κ α ε → Event κ α ε × Cache κ α
  | .get key load =>
    let ((answer, c), runs) := (c.getOrLoadM key fun _ => counted load).run 0
    (.got key runs answer, c)
  | .clear => (.cleared, c.clear)

/-- What comes of requests one after another, and the cache afterwards. -/
def run (c : Cache κ α) : List (Request κ α ε) → List (Event κ α ε) × Cache κ α
  | [] => ([], c)
  | request :: rest =>
    let served := c.serve request
    let later := run served.2 rest
    (served.1 :: later.1, later.2)

end

/-! ## Histories -/

namespace Event

def isCleared : Event κ α ε → Bool
  | .cleared => true
  | .got .. => false

/-- The key that a value was returned for. -/
def returned? : Event κ α ε → Option κ
  | .got key _ (.ok _) => some key
  | _ => none

/-- What the loader of a key gave, if it was run. -/
def load? [DecidableEq κ] (key : κ) : Event κ α ε → Option (Except ε α)
  | .got key' runs answer => if key' = key ∧ runs ≠ 0 then some answer else none
  | .cleared => none

end Event

/-- The keys that values were returned for since the cache was last cleared, in order. -/
def returnedKeys (past : List (Event κ α ε)) : List κ :=
  (past.rtakeWhile fun event => !event.isCleared).filterMap Event.returned?

/-- The last `n` distinct keys among these, the latest at the end. -/
def lastReturned [DecidableEq κ] (n : Nat) (past : List (Event κ α ε)) : List κ :=
  (returnedKeys past).dedup.rtake n

/-- What the most recent load of a key gave. -/
def lastLoad? [DecidableEq κ] (key : κ) (past : List (Event κ α ε)) : Option (Except ε α) :=
  (past.filterMap (Event.load? key)).getLast?

section

variable {past : List (Event κ α ε)} {key key' : κ} {value : α} {e : ε} {runs n : Nat}

theorem returnedKeys_cleared : returnedKeys (past ++ [.cleared]) = [] := by
  unfold returnedKeys
  rw [List.rtakeWhile_concat_neg _ _ _ (by simp [Event.isCleared])]
  rfl

theorem returnedKeys_ok :
    returnedKeys (past ++ [.got key runs (.ok value)]) = returnedKeys past ++ [key] := by
  unfold returnedKeys
  rw [List.rtakeWhile_concat_pos _ _ _ (by simp [Event.isCleared]), List.filterMap_append]
  rfl

theorem returnedKeys_error :
    returnedKeys (past ++ [.got key runs (.error e)]) = returnedKeys past := by
  unfold returnedKeys
  rw [List.rtakeWhile_concat_pos _ _ _ (by simp [Event.isCleared]), List.filterMap_append]
  exact List.append_nil _

variable [DecidableEq κ]

theorem lastLoad?_same {answer : Except ε α} (h : runs ≠ 0) :
    lastLoad? key (past ++ [.got key runs answer]) = some answer := by
  simp [lastLoad?, Event.load?, h]

theorem lastLoad?_unrun {answer : Except ε α} :
    lastLoad? key' (past ++ [.got key 0 answer]) = lastLoad? key' past := by
  simp [lastLoad?, Event.load?]

theorem lastLoad?_other {answer : Except ε α} (h : key ≠ key') :
    lastLoad? key' (past ++ [.got key runs answer]) = lastLoad? key' past := by
  simp [lastLoad?, Event.load?, h]

end

/-! ## The last distinct keys -/

section

variable {ks : List κ} {key : κ} {n : Nat}

theorem dedup_concat [DecidableEq κ] (ks : List κ) (key : κ) :
    (ks ++ [key]).dedup = ks.dedup.filter (· ≠ key) ++ [key] := by
  induction ks with
  | nil => rfl
  | cons k ks ih =>
    by_cases again : k ∈ ks
    · rw [List.cons_append, List.dedup_cons_of_mem (List.mem_append_left _ again), ih,
        List.dedup_cons_of_mem again]
    · by_cases same : k = key
      · subst same
        rw [List.cons_append, List.dedup_cons_of_mem (by simp), ih, List.dedup_cons_of_notMem again,
          List.filter_cons_of_neg (by simp)]
      · have absent : k ∉ ks ++ [key] := by simp [again, same]
        rw [List.cons_append, List.dedup_cons_of_notMem absent, ih, List.dedup_cons_of_notMem again,
          List.filter_cons_of_pos (by simpa using same), List.cons_append]

theorem rtake_append_of_le (front : List κ) {back : List κ} (h : n ≤ back.length) :
    (front ++ back).rtake n = back.rtake n := by
  unfold List.rtake
  rw [List.length_append, List.drop_append, List.drop_eq_nil_of_le (by omega), List.nil_append]
  congr 1
  omega

theorem rtake_of_length_le (h : ks.length ≤ n) : ks.rtake n = ks := by
  unfold List.rtake
  rw [Nat.sub_eq_zero_of_le h, List.drop_zero]

/-- What is in front of the last keys; only a full number of them leaves anything in front. -/
theorem exists_rtake (n : Nat) (ks : List κ) :
    ∃ front, ks = front ++ ks.rtake n ∧ (ks.rtake n).length ≤ n ∧
      (front = [] ∨ (ks.rtake n).length = n) := by
  refine ⟨ks.rdrop n, (List.take_append_drop _ ks).symm, ?_, ?_⟩
  · simp only [List.rtake, List.length_drop]
    omega
  · rw [List.rdrop, List.take_eq_nil_iff]
    simp only [List.rtake, List.length_drop]
    omega

variable [DecidableEq κ]

/-- A key that comes again moves to the end. -/
theorem rtake_of_mem (distinct : ks.Nodup) (h : key ∈ ks.rtake (n + 1)) :
    (ks.filter (· ≠ key)).rtake n = (ks.rtake (n + 1)).filter (· ≠ key) := by
  obtain ⟨front, layout, short, full⟩ := exists_rtake (n + 1) ks
  generalize ks.rtake (n + 1) = back at h layout short full ⊢
  subst layout
  have removed : (back.filter (· ≠ key)).length = back.length - 1 := by
    rw [← List.length_erase_of_mem h, (List.nodup_append.1 distinct).2.1.erase_eq_filter]
    congr 1
    exact List.filter_congr fun k _ => by by_cases same : k = key <;> simp [same]
  have kept : front.filter (· ≠ key) = front := by
    rw [List.filter_eq_self]
    intro k hk
    have := (List.nodup_append.1 distinct).2.2 k hk key h
    simpa using this
  rw [List.filter_append, kept]
  -- One fewer of the last keys is left, so they are the last ones that fit beside the key.
  rcases full with rfl | full
  · exact rtake_of_length_le (by simp only [List.nil_append]; omega)
  · rw [rtake_append_of_le _ (by omega)]
    exact rtake_of_length_le (by omega)

/-- A key that is new among the last ones drives the oldest of them out if there are enough. -/
theorem rtake_of_not_mem (h : key ∉ ks.rtake (n + 1)) :
    (ks.filter (· ≠ key)).rtake n =
      if n + 1 ≤ (ks.rtake (n + 1)).length then (ks.rtake (n + 1)).drop 1 else ks.rtake (n + 1) := by
  obtain ⟨front, layout, short, full⟩ := exists_rtake (n + 1) ks
  generalize ks.rtake (n + 1) = back at h layout short full ⊢
  subst layout
  have kept : back.filter (· ≠ key) = back := by
    rw [List.filter_eq_self]
    intro k hk
    have other : k ≠ key := fun same => h (same ▸ hk)
    simpa using other
  rw [List.filter_append, kept]
  split_ifs with enough
  · rw [rtake_append_of_le _ (by omega), List.rtake]
    congr 1
    omega
  · rcases full with rfl | full
    · exact rtake_of_length_le (by simp only [List.filter_nil, List.nil_append]; omega)
    · omega

end

/-! ## Entries -/

/-- The keys, the one asked for least recently in front. -/
def keys (c : Cache κ α) : List κ := c.entries.map Prod.fst

section

variable {c : Cache κ α} {key : κ} {value : α}

theorem keys_insert : (c.insert key value).keys =
    (if c.capacity ≤ c.keys.length then c.keys.drop 1 else c.keys) ++ [key] := by
  unfold keys insert
  rw [List.length_map]
  split_ifs <;> simp

theorem mem_of_mem_insert {entry : κ × α} (h : entry ∈ (c.insert key value).entries) :
    entry ∈ c.entries ∨ entry = (key, value) := by
  unfold insert at h
  rcases List.mem_append.1 h with kept | new
  · refine .inl ?_
    split_ifs at kept
    · exact List.mem_of_mem_drop kept
    · exact kept
  · exact .inr (List.mem_singleton.1 new)

variable [DecidableEq κ]

theorem find?_eq_none_iff : c.find? key = none ↔ key ∉ c.keys := by
  rw [find?, Option.map_eq_none_iff, List.find?_eq_none, keys, List.mem_map]
  constructor
  · rintro absent ⟨entry, he, same⟩
    exact absent entry he (decide_eq_true same)
  · intro absent entry he same
    exact absent ⟨entry, he, of_decide_eq_true same⟩

theorem mem_of_find? (h : c.find? key = some value) : (key, value) ∈ c.entries := by
  obtain ⟨⟨k, v⟩, found, rfl⟩ := Option.map_eq_some_iff.1 h
  have same : k = key := by simpa using List.find?_some found
  exact same ▸ List.mem_of_find?_eq_some found

theorem keys_touch : (c.touch key value).keys = c.keys.filter (· ≠ key) ++ [key] := by
  simp [keys, touch, without, List.filter_map, Function.comp_def]

theorem mem_of_mem_touch {entry : κ × α} (h : entry ∈ (c.touch key value).entries) :
    entry ∈ c.entries ∧ entry.1 ≠ key ∨ entry = (key, value) := by
  rcases List.mem_append.1 h with kept | new
  · obtain ⟨held, other⟩ := List.mem_filter.1 kept
    exact .inl ⟨held, of_decide_eq_true other⟩
  · exact .inr (List.mem_singleton.1 new)

/-- What is held after a request was held before, or it is what the loader gave for the key. -/
theorem mem_of_mem_getOrLoad {load : Unit → Except ε α} {entry : κ × α}
    (h : entry ∈ (c.getOrLoad key load).2.entries) :
    entry ∈ c.entries ∨ entry.1 = key ∧ load () = .ok entry.2 := by
  rw [getOrLoad_eq] at h
  cases found : c.find? key with
  | some value =>
    rw [found] at h
    rcases mem_of_mem_touch h with ⟨kept, -⟩ | rfl
    · exact .inl kept
    · exact .inl (mem_of_find? found)
  | none =>
    rw [found] at h
    cases loaded : load () with
    | error e =>
      rw [loaded] at h
      exact .inl h
    | ok value =>
      rw [loaded] at h
      rcases mem_of_mem_insert h with kept | rfl
      · exact .inl kept
      · exact .inr ⟨rfl, rfl⟩

/-! ## Requests one at a time -/

variable {load : Except ε α} {e : ε}

theorem serve_held (h : c.find? key = some value) :
    c.serve (.get key load) = (.got key 0 (.ok value), c.touch key value) := by
  simp only [serve, getOrLoadM, h]
  rfl

theorem serve_loaded (h : c.find? key = none) :
    c.serve (.get key (.ok value) : Request κ α ε) = (.got key 1 (.ok value), c.insert key value) := by
  simp only [serve, getOrLoadM, h]
  rfl

theorem serve_failed (h : c.find? key = none) :
    c.serve (.get key (.error e)) = (.got key 1 (.error e), c) := by
  simp only [serve, getOrLoadM, h]
  rfl

/-- Counting the runs of a loader changes neither the answer nor the cache. -/
theorem exists_serve_eq (c : Cache κ α) (key : κ) (load : Except ε α) :
    ∃ runs, c.serve (.get key load) =
      (.got key runs (c.getOrLoad key fun _ => load).1, (c.getOrLoad key fun _ => load).2) := by
  rw [getOrLoad_eq]
  cases found : c.find? key with
  | some value => exact ⟨0, serve_held found⟩
  | none =>
    cases load with
    | ok value => exact ⟨1, serve_loaded found⟩
    | error e => exact ⟨1, serve_failed found⟩

end

/-! ## Histories and caches -/

variable [DecidableEq κ]

/-- A cache for `n` values holds what a history says. -/
structure Remembers (n : Nat) (past : List (Event κ α ε)) (c : Cache κ α) : Prop where
  capacity : c.capacity = n
  keys : c.keys = lastReturned n past
  values : ∀ entry ∈ c.entries, lastLoad? entry.1 past = some (.ok entry.2)

namespace Remembers

variable {n : Nat} {past : List (Event κ α ε)} {c : Cache κ α} {key : κ} {value : α} {e : ε}

theorem size_le (h : Remembers n past c) : c.size ≤ n := by
  have short : c.keys.length ≤ n := by
    rw [h.keys, lastReturned, List.rtake, List.length_drop]
    omega
  simpa [Cache.keys, size] using short

theorem touch (h : Remembers (n + 1) past c) (held : c.find? key = some value) :
    Remembers (n + 1) (past ++ [.got key 0 (.ok value)]) (c.touch key value) where
  capacity := h.capacity
  keys := by
    have among : key ∈ (returnedKeys past).dedup.rtake (n + 1) := by
      rw [← lastReturned, ← h.keys]
      exact List.mem_map_of_mem (mem_of_find? held)
    rw [keys_touch, h.keys, lastReturned, lastReturned, returnedKeys_ok, dedup_concat,
      List.rtake_concat_succ, rtake_of_mem (List.nodup_dedup _) among]
  values := by
    intro entry he
    rw [lastLoad?_unrun]
    rcases mem_of_mem_touch he with ⟨kept, -⟩ | rfl
    · exact h.values entry kept
    · exact h.values _ (mem_of_find? held)

theorem insert (h : Remembers (n + 1) past c) (missing : c.find? key = none) :
    Remembers (n + 1) (past ++ [.got key 1 (.ok value)]) (c.insert key value) where
  capacity := h.capacity
  keys := by
    have absent : key ∉ (returnedKeys past).dedup.rtake (n + 1) := by
      rw [← lastReturned, ← h.keys]
      exact find?_eq_none_iff.1 missing
    rw [keys_insert, h.capacity, h.keys, lastReturned, lastReturned, returnedKeys_ok, dedup_concat,
      List.rtake_concat_succ, rtake_of_not_mem absent]
  values := by
    intro entry he
    rcases mem_of_mem_insert he with kept | rfl
    -- The key was missing, so the load is no news about the entries that were there.
    · have other : key ≠ entry.1 := by
        rintro rfl
        exact find?_eq_none_iff.1 missing (List.mem_map_of_mem kept)
      rw [lastLoad?_other other]
      exact h.values entry kept
    · exact lastLoad?_same Nat.one_ne_zero

theorem failed (h : Remembers n past c) (missing : c.find? key = none) :
    Remembers n (past ++ [.got key 1 (.error e)]) c where
  capacity := h.capacity
  keys := by rw [h.keys, lastReturned, lastReturned, returnedKeys_error]
  values := by
    intro entry he
    have other : key ≠ entry.1 := by
      rintro rfl
      exact find?_eq_none_iff.1 missing (List.mem_map_of_mem he)
    rw [lastLoad?_other other]
    exact h.values entry he

theorem clear (h : Remembers n past c) : Remembers n (past ++ [.cleared]) c.clear where
  capacity := h.capacity
  keys := by
    rw [lastReturned, returnedKeys_cleared, List.dedup_nil, List.rtake_nil]
    rfl
  values := by
    intro entry he
    cases he

/-- One request keeps the cache and the history together. -/
theorem serve (h : Remembers (n + 1) past c) (request : Request κ α ε) :
    Remembers (n + 1) (past ++ [(c.serve request).1]) (c.serve request).2 := by
  cases request with
  | clear => exact h.clear
  | get key load =>
    cases found : c.find? key with
    | some value =>
      rw [serve_held found]
      exact h.touch found
    | none =>
      cases load with
      | ok value =>
        rw [serve_loaded found]
        exact h.insert found
      | error e =>
        rw [serve_failed found]
        exact h.failed found

theorem run (h : Remembers (n + 1) past c) (requests : List (Request κ α ε)) :
    Remembers (n + 1) (past ++ (c.run requests).1) (c.run requests).2 := by
  induction requests generalizing past c with
  | nil => simpa [Cache.run] using h
  | cons request rest ih =>
    have later := ih (h.serve request)
    rwa [List.append_assoc] at later

end Remembers

/-- Whatever was asked of a cache for `n` values that was empty, its keys are the last `n` distinct
ones that a value was returned for since it was cleared, in the order in which they were returned last,
and each has the value of its most recent load.  What it holds is answered without a run of the loader;
otherwise the loader is run once and has the last word, and one that fails changes nothing. -/
theorem remembers_run {n : Nat} (pos : 1 ≤ n) (requests : List (Request κ α ε)) :
    ∃ empty : Cache κ α, make n = .ok empty ∧
      let past := (empty.run requests).1
      let c := (empty.run requests).2
      c.keys = lastReturned n past ∧
      (∀ entry ∈ c.entries, lastLoad? entry.1 past = some (.ok entry.2)) ∧
      c.size ≤ n ∧
      ∀ (key : κ) (load : Except ε α),
        (key ∈ lastReturned n past → ∃ value, (key, value) ∈ c.entries ∧
          (c.serve (.get key load)).1 = .got key 0 (.ok value)) ∧
        (key ∉ lastReturned n past → (c.serve (.get key load)).1 = .got key 1 load ∧
          ∀ e, load = .error e → (c.serve (.get key load)).2 = c) := by
  obtain ⟨n, rfl⟩ : ∃ k, n = k + 1 := ⟨n - 1, by omega⟩
  have room : ¬ ((n + 1 : Nat) : Int) ≤ 0 := by omega
  refine ⟨⟨n + 1, []⟩, by rw [make, if_neg room]; rfl, ?_⟩
  have start : Remembers (n + 1) ([] : List (Event κ α ε)) ⟨n + 1, []⟩ :=
    ⟨rfl, by simp [Cache.keys, lastReturned, returnedKeys], fun entry he => by cases he⟩
  have h := start.run requests
  rw [List.nil_append] at h
  refine ⟨h.keys, h.values, h.size_le, fun key load => ⟨fun held => ?_, fun absent => ?_⟩⟩
  · rw [← h.keys] at held
    cases found : ((⟨n + 1, []⟩ : Cache κ α).run requests).2.find? key with
    | none => exact absurd held (find?_eq_none_iff.1 found)
    | some value => exact ⟨value, mem_of_find? found, by rw [serve_held found]⟩
  · rw [← h.keys] at absent
    have missing := find?_eq_none_iff.2 absent
    cases load with
    | ok value => exact ⟨by rw [serve_loaded missing], by simp⟩
    | error e => exact ⟨by rw [serve_failed missing], fun _ _ => by rw [serve_failed missing]⟩

/-- A hit that spares a value, a loader that fails, and a new value that takes the place of another. -/
theorem remembers_run_two :
    let requests : List (Request Nat Nat String) :=
      [.get 1 (.ok 10), .get 2 (.ok 20), .get 1 (.error "not run"), .get 3 (.error "down"),
        .get 3 (.ok 30)]
    1 ≤ 2 ∧ ∃ empty : Cache Nat Nat, make 2 = .ok empty ∧
      let past := (empty.run requests).1
      let c := (empty.run requests).2
      c.keys = lastReturned 2 past ∧ lastReturned 2 past = [1, 3] ∧
      (∀ entry ∈ c.entries, lastLoad? entry.1 past = some (.ok entry.2)) ∧ c.size ≤ 2 ∧
      (∃ value, (1, value) ∈ c.entries ∧
        (c.serve (.get 1 (.error "not run"))).1 = .got 1 0 (.ok value)) ∧
      (c.serve (.get 2 (.error "down"))).1 = .got 2 1 (.error "down") ∧
      (c.serve (.get 2 (.error "down"))).2 = c := by
  intro requests
  obtain ⟨empty, made, keys, values, size, next⟩ :=
    remembers_run (α := Nat) (by decide : 1 ≤ 2) requests
  obtain rfl : ⟨2, []⟩ = empty := Except.ok.inj made
  have last : lastReturned 2 ((⟨2, []⟩ : Cache Nat Nat).run requests).1 = [1, 3] := by decide
  obtain ⟨answered, unchanged⟩ := (next 2 (.error "down")).2 (by rw [last]; decide)
  exact ⟨by decide, _, rfl, keys, last, values, size,
    (next 1 (.error "not run")).1 (by rw [last]; decide), answered, unchanged _ rfl⟩

end Cryptogram.Cache
