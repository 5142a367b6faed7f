import Cryptogram.Unpack.Decoder
import Mathlib.Tactic.SplitIfs

/-!
# Decoders on octets that are cut

A decoder is steady if what it finds in octets stays when more of them follow: a value and an error stay
as they are, and only at the end of cut octets anything may still come, behind what was put out so far
(`Steady`).  Decoders that are made of steady ones are steady; a loop is, if each of its steps takes a
bit (`steady_loop`), for the number of its rounds is then no limit.
-/

namespace Cryptogram

/-! ## The course of unpacking -/

namespace Unpacking

/-- The same course with more octets behind. -/
def more (s : Unpacking) (q : Bytes) : Unpacking := { s with rest := s.rest ++ q }

@[simp] theorem out_more (s : Unpacking) (q : Bytes) : (s.more q).out = s.out := rfl

/-- Bits were only taken of an octet that is still there, and not all of its bits. -/
structure Sound (s : Unpacking) : Prop where
  used_lt : s.used < 8
  begun : s.rest = [] → s.used = 0

theorem Sound.more {s : Unpacking} (h : s.Sound) (q : Bytes) : (s.more q).Sound :=
  ⟨h.used_lt, fun none => h.begun (List.append_eq_nil_iff.1 none).1⟩

theorem sound_start (octets : Bytes) : Sound { rest := octets } :=
  ⟨Nat.zero_lt_succ _, fun _ => rfl⟩

/-- The number of bits that are left. -/
def bits (s : Unpacking) : Nat := 8 * s.rest.length - s.used

end Unpacking

/-! ## What a decoder comes to -/

namespace Reading

variable {α : Type}

/-- Whether some octets are the first that were put out. -/
def Begins (out : Array UInt8) : Reading α → Prop
  | .done _ s => out.toList <+: s.out.toList
  | .cut made => out.toList <+: made.toList
  | .invalid => True

theorem Begins.trans {out made : Array UInt8} {r : Reading α} (h : r.Begins made)
    (first : out.toList <+: made.toList) : r.Begins out := by
  cases r with
  | done a s => exact first.trans h
  | cut last => exact first.trans h
  | invalid => trivial

/-- Whether a decoder that began with `s` has taken at least so many bits by then, and has only added
to what was put out. -/
structure Behind (least : Nat) (s : Unpacking) (r : Reading α) : Prop where
  begins : r.Begins s.out
  left : ∀ a s', r = .done a s' → s'.Sound ∧ s'.bits + least ≤ s.bits

theorem behind_done {least : Nat} {s s' : Unpacking} (a : α) (begins : s.out.toList <+: s'.out.toList)
    (sound : s'.Sound) (fewer : s'.bits + least ≤ s.bits) : (done a s').Behind least s := by
  refine ⟨begins, ?_⟩
  rintro _ _ ⟨⟩
  exact ⟨sound, fewer⟩

theorem behind_cut {least : Nat} {s : Unpacking} {out : Array UInt8}
    (begins : s.out.toList <+: out.toList) : (cut out : Reading α).Behind least s := by
  refine ⟨begins, ?_⟩
  rintro _ _ ⟨⟩

theorem behind_invalid (least : Nat) (s : Unpacking) : (invalid : Reading α).Behind least s := by
  refine ⟨trivial, ?_⟩
  rintro _ _ ⟨⟩

/-- Whether `later` may come of octets with `q` behind those that this came of. -/
def Agrees (r : Reading α) (q : Bytes) (later : Reading α) : Prop :=
  match r with
  | .done a s => later = .done a (s.more q)
  | .cut out => later.Begins out
  | .invalid => later = .invalid

end Reading

namespace Decoder

variable {α β σ : Type} {d : Decoder α} {next : α → Decoder β} {m n : Nat}

/-! ## Steady decoders -/

/-- A decoder that takes at least so many bits, and whose finding stays when more octets follow. -/
structure Steady (least : Nat) (d : Decoder α) : Prop where
  behind : ∀ s, s.Sound → (d s).Behind least s
  agrees : ∀ s q, s.Sound → (d s).Agrees q (d (s.more q))

theorem bind_apply (d : Decoder α) (next : α → Decoder β) (s : Unpacking) :
    (d >>= next) s = match d s with
      | .done a s' => next a s'
      | .cut out => .cut out
      | .invalid => .invalid := rfl

theorem bind_eq_done_iff {s t : Unpacking} {b : β} :
    (d >>= next) s = .done b t ↔ ∃ a s', d s = .done a s' ∧ next a s' = .done b t := by
  rw [bind_apply]
  cases d s with
  | done a s' =>
    constructor
    · exact fun h => ⟨a, s', rfl, h⟩
    · rintro ⟨a, s', ⟨⟩, h⟩
      exact h
  | cut out =>
    constructor
    · rintro ⟨⟩
    · rintro ⟨a, s', ⟨⟩, h⟩
  | invalid =>
    constructor
    · rintro ⟨⟩
    · rintro ⟨a, s', ⟨⟩, h⟩

theorem bind_congr_of_done {next' : α → Decoder β} {s : Unpacking}
    (same : ∀ a s', d s = .done a s' → next a s' = next' a s') : (d >>= next) s = (d >>= next') s := by
  rw [bind_apply, bind_apply]
  cases e : d s with
  | done a s' => exact same a s' e
  | cut out => rfl
  | invalid => rfl

theorem Steady.mono (h : Steady n d) (le : m ≤ n) : Steady m d where
  behind s sound := by
    refine ⟨(h.behind s sound).begins, fun a s' done => ?_⟩
    obtain ⟨sound', fewer⟩ := (h.behind s sound).left a s' done
    exact ⟨sound', by omega⟩
  agrees := h.agrees

theorem Steady.zero (h : Steady n d) : Steady 0 d := h.mono (Nat.zero_le n)

/-- A step of the course that always ends with a value. -/
theorem steady_of_step (value : Unpacking → α) (change : Unpacking → Unpacking)
    (sound : ∀ s, s.Sound → (change s).Sound) (fewer : ∀ s, s.Sound → (change s).bits ≤ s.bits)
    (grows : ∀ s, s.out.toList <+: (change s).out.toList)
    (stays : ∀ s q, s.Sound → value (s.more q) = value s ∧ change (s.more q) = (change s).more q) :
    Steady 0 fun s => .done (value s) (change s) where
  behind s hs := Reading.behind_done _ (grows s) (sound s hs) (fewer s hs)
  agrees s q hs := by
    obtain ⟨same, moved⟩ := stays s q hs
    show Reading.done (value (s.more q)) (change (s.more q)) = _
    rw [same, moved]

theorem steady_pure (a : α) : Steady 0 (pure a : Decoder α) :=
  steady_of_step _ _ (fun _ => id) (fun _ _ => Nat.le_refl _) (fun _ => List.prefix_rfl)
    fun _ _ _ => ⟨rfl, rfl⟩

theorem steady_fail : Steady n (fail : Decoder α) where
  behind s _ := Reading.behind_invalid n s
  agrees _ _ _ := rfl

theorem steady_require (condition : Bool) : Steady 0 (require condition) := by
  unfold require
  split_ifs
  · exact steady_pure ()
  · exact steady_fail

/-- What comes of the second step is behind the start of the first. -/
theorem behind_bind {s : Unpacking} (hs : s.Sound) (h : Steady m d) (hn : ∀ a, Steady n (next a)) :
    ((d >>= next) s).Behind (m + n) s := by
  have first := h.behind s hs
  rw [bind_apply]
  cases e : d s with
  | done a s' =>
    rw [e] at first
    obtain ⟨sound, fewer⟩ := first.left a s' rfl
    have second := (hn a).behind s' sound
    refine ⟨second.begins.trans first.begins, fun b t done => ?_⟩
    obtain ⟨sound', fewer'⟩ := second.left b t done
    exact ⟨sound', by omega⟩
  | cut out =>
    rw [e] at first
    exact Reading.behind_cut first.begins
  | invalid => exact Reading.behind_invalid _ s

theorem agrees_bind {s : Unpacking} (hs : s.Sound) (q : Bytes) (h : Steady m d)
    (hn : ∀ a, Steady n (next a)) : ((d >>= next) s).Agrees q ((d >>= next) (s.more q)) := by
  have first := h.agrees s q hs
  rw [bind_apply, bind_apply]
  cases e : d s with
  | done a s' =>
    rw [e] at first
    rw [show d (s.more q) = .done a (s'.more q) from first]
    exact (hn a).agrees s' q ((h.behind s hs).left a s' e).1
  | cut out =>
    rw [e] at first
    cases later : d (s.more q) with
    | done a t =>
      rw [later] at first
      have sound := ((h.behind (s.more q) (hs.more q)).left a t later).1
      exact ((hn a).behind t sound).begins.trans first
    | cut made =>
      rw [later] at first
      exact first
    | invalid => trivial
  | invalid =>
    rw [e] at first
    rw [show d (s.more q) = .invalid from first]
    rfl

/-- Of two steps, the second takes the bits. -/
theorem Steady.bind (h : Steady 0 d) (hn : ∀ a, Steady n (next a)) : Steady n (d >>= next) where
  behind _ hs := by
    rw [← Nat.zero_add n]
    exact behind_bind hs h hn
  agrees _ q hs := agrees_bind hs q h hn

/-- Of two steps, the first takes the bits. -/
theorem Steady.andThen (h : Steady m d) (hn : ∀ a, Steady 0 (next a)) : Steady m (d >>= next) where
  behind _ hs := behind_bind hs h hn
  agrees _ q hs := agrees_bind hs q h hn

/-! ## Bits and numbers -/

theorem bit_cons (order : BitOrder) (used : Nat) (octet : UInt8) (tail : Bytes) (out : Array UInt8) :
    bit order ⟨used, octet :: tail, out⟩ = .done (order.pick octet used)
      (if used < 7 then ⟨used + 1, octet :: tail, out⟩ else ⟨0, tail, out⟩) := by
  simp only [bit]
  split_ifs
  · rfl
  · rfl

theorem steady_bit (order : BitOrder) : Steady 1 (bit order) where
  behind s hs := by
    obtain ⟨used, rest, out⟩ := s
    have lt := hs.used_lt
    cases rest with
    | nil => exact Reading.behind_cut List.prefix_rfl
    | cons octet tail =>
      rw [bit_cons]
      split_ifs with more
      · refine Reading.behind_done _ List.prefix_rfl ⟨Nat.succ_lt_succ more, ?_⟩ ?_
        · exact fun none => absurd none (List.cons_ne_nil _ _)
        · simp only [Unpacking.bits, List.length_cons]
          omega
      · refine Reading.behind_done _ List.prefix_rfl ⟨Nat.zero_lt_succ _, fun _ => rfl⟩ ?_
        simp only [Unpacking.bits, List.length_cons] at lt ⊢
        omega
  agrees s q hs := by
    obtain ⟨used, rest, out⟩ := s
    cases rest with
    | nil =>
      show Reading.Begins out (bit order ⟨used, q, out⟩)
      cases q with
      | nil => exact List.prefix_rfl
      | cons octet tail =>
        rw [bit_cons]
        split_ifs
        · exact List.prefix_rfl
        · exact List.prefix_rfl
    | cons octet tail =>
      show (bit order ⟨used, octet :: tail, out⟩).Agrees q (bit order ⟨used, octet :: (tail ++ q), out⟩)
      rw [bit_cons, bit_cons]
      split_ifs
      · rfl
      · rfl

theorem steady_lowNumber (width : Nat) : Steady 0 (lowNumber width) := by
  induction width with
  | zero => exact steady_pure 0
  | succ width ih =>
    exact (steady_bit .lowFirst).zero.bind fun b => ih.bind fun n => steady_pure _

theorem steady_highNumberFrom (width n : Nat) : Steady 0 (highNumberFrom width n) := by
  induction width generalizing n with
  | zero => exact steady_pure n
  | succ width ih => exact (steady_bit .highFirst).zero.bind fun b => ih _

theorem steady_highNumber (width : Nat) : Steady 0 (highNumber width) :=
  steady_highNumberFrom width 0

theorem steady_highNumber_succ (width : Nat) : Steady 1 (highNumber (width + 1)) :=
  (steady_bit .highFirst).andThen fun _ => steady_highNumberFrom width _

theorem align_eq (s : Unpacking) :
    align s = .done () (if s.used = 0 then s else ⟨0, s.rest.tail, s.out⟩) := by
  unfold align
  split_ifs
  · rfl
  · rfl

theorem steady_align : Steady 0 align := by
  rw [funext align_eq]
  refine steady_of_step (fun _ => ()) _ (fun s hs => ?_) (fun s hs => ?_) (fun s => ?_)
    fun s q hs => ⟨rfl, ?_⟩
  · split_ifs
    · exact hs
    · exact ⟨Nat.zero_lt_succ _, fun _ => rfl⟩
  · have lt := hs.used_lt
    split_ifs
    · exact Nat.le_refl _
    · simp only [Unpacking.bits, List.length_tail]
      omega
  · split_ifs
    · exact List.prefix_rfl
    · exact List.prefix_rfl
  · show (if s.used = 0 then s.more q else ⟨0, (s.rest ++ q).tail, s.out⟩) = _
    split_ifs with whole
    · rfl
    · have there : s.rest ≠ [] := fun none => whole (hs.begun none)
      rw [List.tail_append_of_ne_nil there]
      rfl

/-! ## Output -/

theorem prefix_push (octet : UInt8) (out : Array UInt8) : out.toList <+: (out.push octet).toList := by
  rw [Array.toList_push]
  exact List.prefix_append _ _

theorem steady_emit (octet : UInt8) : Steady 0 (emit octet) :=
  steady_of_step _ _ (fun _ hs => ⟨hs.used_lt, hs.begun⟩) (fun _ _ => Nat.le_refl _)
    (fun s => prefix_push octet s.out) fun _ _ _ => ⟨rfl, rfl⟩

theorem foldl_push (octets : List UInt8) (out : Array UInt8) :
    (octets.foldl Array.push out).toList = out.toList ++ octets := by
  induction octets generalizing out with
  | nil => simp
  | cons octet octets ih =>
    rw [List.foldl_cons, ih, Array.toList_push, List.append_assoc]
    rfl

theorem steady_emitAll (octets : List UInt8) : Steady 0 (emitAll octets) :=
  steady_of_step _ _ (fun _ hs => ⟨hs.used_lt, hs.begun⟩) (fun _ _ => Nat.le_refl _)
    (fun s => by rw [foldl_push]; exact List.prefix_append _ _) fun _ _ _ => ⟨rfl, rfl⟩

theorem steady_produced : Steady 0 produced :=
  steady_of_step _ _ (fun _ => id) (fun _ _ => Nat.le_refl _) (fun _ => List.prefix_rfl)
    fun _ _ _ => ⟨rfl, rfl⟩

theorem prefix_extend (distance count : Nat) (out : Array UInt8) :
    out.toList <+: (extend distance count out).toList := by
  induction count generalizing out with
  | zero => exact List.prefix_rfl
  | succ count ih =>
    exact (prefix_push _ out).trans (ih _)

theorem steady_copy (distance count : Nat) : Steady 0 (copy distance count) where
  behind s hs := by
    unfold copy
    split_ifs
    · exact Reading.behind_done _ (prefix_extend distance count s.out) ⟨hs.used_lt, hs.begun⟩
        (Nat.le_refl _)
    · exact Reading.behind_invalid 0 s
  agrees s q _ := by
    unfold copy
    rw [Unpacking.out_more]
    split_ifs
    · rfl
    · rfl

/-! ## Repetition -/

theorem steady_replicate (h : Steady n d) (count : Nat) : Steady 0 (replicate d count) := by
  induction count with
  | zero => exact steady_pure []
  | succ count ih => exact h.zero.bind fun a => ih.bind fun more => steady_pure _

theorem steady_mapM {f : α → Decoder β} (h : ∀ a, Steady 0 (f a)) (as : List α) :
    Steady 0 (as.mapM f) := by
  have loop : ∀ bs : List β, Steady 0 (List.mapM.loop f as bs) := by
    induction as with
    | nil => exact fun bs => steady_pure _
    | cons a as ih => exact fun bs => (h a).bind fun b => ih _
  exact loop []

section Loop

variable {step : σ → Decoder (σ ⊕ α)} (h : ∀ a, Steady 1 (step a))

include h

theorem behind_loopWithin (fuel : Nat) (a : σ) {s : Unpacking} (hs : s.Sound) :
    (loopWithin step fuel a s).Behind 0 s := by
  induction fuel generalizing a s with
  | zero => exact Reading.behind_invalid 0 s
  | succ fuel ih =>
    have once := (h a).behind s hs
    rw [loopWithin]
    cases e : step a s with
    | done c s' =>
      rw [e] at once
      obtain ⟨sound, fewer⟩ := once.left c s' rfl
      cases c with
      | inl a' =>
        have others := ih a' sound
        refine ⟨others.begins.trans once.begins, fun b t done => ?_⟩
        obtain ⟨sound', fewer'⟩ := others.left b t done
        exact ⟨sound', by omega⟩
      | inr b => exact Reading.behind_done b once.begins sound (by omega)
    | cut out =>
      rw [e] at once
      exact Reading.behind_cut once.begins
    | invalid => exact Reading.behind_invalid 0 s

/-- Where there are more rounds than bits, the loop never ends for want of rounds, so their number
makes no difference. -/
theorem agrees_loopWithin {fuel fuel' : Nat} (a : σ) {s : Unpacking} (hs : s.Sound) (q : Bytes)
    (enough : s.bits < fuel) (enough' : (s.more q).bits < fuel') :
    (loopWithin step fuel a s).Agrees q (loopWithin step fuel' a (s.more q)) := by
  induction fuel generalizing fuel' a s with
  | zero => exact absurd enough (Nat.not_lt_zero _)
  | succ fuel ih =>
    obtain ⟨fuel', rfl⟩ : ∃ k, fuel' = k + 1 := ⟨fuel' - 1, by omega⟩
    have once := (h a).agrees s q hs
    rw [loopWithin, loopWithin]
    cases e : step a s with
    | done c s' =>
      rw [e] at once
      have again : step a (s.more q) = .done c (s'.more q) := once
      rw [again]
      cases c with
      | inl a' =>
        obtain ⟨sound, fewer⟩ := ((h a).behind s hs).left _ s' e
        obtain ⟨-, fewer'⟩ := ((h a).behind _ (hs.more q)).left _ _ again
        exact ih a' sound (by omega) (by omega)
      | inr b => rfl
    | cut out =>
      rw [e] at once
      cases later : step a (s.more q) with
      | done c t =>
        rw [later] at once
        cases c with
        | inl a' =>
          have sound := (((h a).behind _ (hs.more q)).left _ t later).1
          exact (behind_loopWithin h fuel' a' sound).begins.trans once
        | inr b => exact once
      | cut made =>
        rw [later] at once
        exact once
      | invalid => trivial
    | invalid =>
      rw [e] at once
      rw [show step a (s.more q) = .invalid from once]
      rfl

/-- A loop is steady if each of its steps takes a bit. -/
theorem steady_loop (start : σ) : Steady 0 (loop step start) where
  behind _ hs := behind_loopWithin h _ start hs
  agrees s q hs := by
    refine agrees_loopWithin h start hs q ?_ ?_
    · simp only [Unpacking.bits]
      omega
    · simp only [Unpacking.bits]
      omega

end Loop

/-! ## Cut octets -/

/-- Whether a decoder takes just these octets, and puts out `plain`. -/
def Unpacks (d : Decoder α) (octets plain : Bytes) : Prop :=
  ∃ a s, d { rest := octets } = .done a s ∧ s.rest = [] ∧ s.out.toList = plain

instance (d : Decoder α) (octets plain : Bytes) : Decidable (d.Unpacks octets plain) :=
  match e : d { rest := octets } with
  | .done a s => decidable_of_iff (s.rest = [] ∧ s.out.toList = plain)
      ⟨fun h => ⟨a, s, e, h⟩, fun ⟨_, _, done, h⟩ => by cases e.symm.trans done; exact h⟩
  | .cut _ => isFalse fun ⟨_, _, done, _⟩ => by cases e.symm.trans done
  | .invalid => isFalse fun ⟨_, _, done, _⟩ => by cases e.symm.trans done

/-- A steady decoder finds every proper beginning of the octets it takes cut, and has put out a
beginning of what there is by then. -/
theorem Steady.exists_cut (h : Steady n d) {octets front plain : Bytes} (whole : d.Unpacks octets plain)
    (cut : front <+: octets) (proper : front ≠ octets) :
    ∃ out, d { rest := front } = .cut out ∧ out.toList <+: plain := by
  obtain ⟨a, s, done, ended, rfl⟩ := whole
  obtain ⟨q, rfl⟩ := cut
  have agrees := h.agrees { rest := front } q (Unpacking.sound_start front)
  rw [show d (Unpacking.more { rest := front } q) = .done a s from done] at agrees
  cases e : d { rest := front } with
  | done b t =>
    rw [e] at agrees
    cases agrees
    -- the octets that follow would be left
    exact absurd (List.append_eq_nil_iff.1 ended).2 fun none => proper (by rw [none, List.append_nil])
  | cut out =>
    rw [e] at agrees
    exact ⟨out, rfl, agrees⟩
  | invalid =>
    rw [e] at agrees
    cases agrees

end Decoder

end Cryptogram
