import Mathlib.Tactic.Ring
import Cryptogram.Proofs.BlockCipher.Aes.Field
import Cryptogram.Proofs.BlockCipher.Basic

/-!
# AES backwards

The substitution box is a permutation of the octets (`substituted_unsubstituted`), and the two
mixtures of a column undo each other (`unmixColumns_mixColumns`).  So each round can be undone, whatever
the round keys are (`decryptBlock_encryptBlock`).
-/

namespace Cryptogram.Aes

/-! ## Tables -/

theorem getD_ofFn {n : Nat} (f : Fin n → UInt8) {i : Nat} (h : i < n) :
    (Array.ofFn f).getD i 0 = f ⟨i, h⟩ := by
  simp [Array.getD, h]

theorem getD_table (f : UInt8 → UInt8) (x : UInt8) : (table f).getD x.toNat 0 = f x := by
  unfold table
  rw [getD_ofFn _ x.toNat_lt, Nat.toUInt8_eq, UInt8.ofNat_toNat]

/-- The image of an octet in the substitution box. -/
def substituted (x : UInt8) : UInt8 := sbox.getD x.toNat 0

/-- The image of an octet in the inverse of the substitution box. -/
def unsubstituted (x : UInt8) : UInt8 := inverseSbox.getD x.toNat 0

theorem substituted_eq (x : UInt8) : substituted x = affine (inverse x) :=
  getD_table (fun x => affine (inverse x)) x

/-- The inverse of the affine map. -/
def unaffine (y : UInt8) : UInt8 := rotl8 y 1 ^^^ rotl8 y 3 ^^^ rotl8 y 6 ^^^ 0x05

set_option maxRecDepth 1000 in
theorem affine_inverse : ∀ x : UInt8, unaffine (affine x) = x ∧ affine (unaffine x) = x :=
  Bytes.forall_octet (by decide)

theorem unaffine_affine (x : UInt8) : unaffine (affine x) = x := (affine_inverse x).1

theorem affine_unaffine (x : UInt8) : affine (unaffine x) = x := (affine_inverse x).2

theorem substituted_inj {x y : UInt8} (h : substituted x = substituted y) : x = y := by
  rw [substituted_eq, substituted_eq] at h
  rw [← inverse_inverse x, ← unaffine_affine (inverse x), h, unaffine_affine, inverse_inverse]

/-- The inverse box after its first entries. -/
def inverseAt (n : Nat) : Array UInt8 :=
  (List.range n).foldl (fun t i => t.setIfInBounds (sbox.getD i 0).toNat i.toUInt8)
    (Array.replicate 256 0)

theorem inverseSbox_eq : inverseSbox = inverseAt 256 := by
  unfold inverseSbox inverseAt
  rfl

theorem inverseAt_succ (n : Nat) :
    inverseAt (n + 1) = (inverseAt n).setIfInBounds (sbox.getD n 0).toNat n.toUInt8 := by
  unfold inverseAt
  rw [List.range_succ, List.foldl_append, List.foldl_cons, List.foldl_nil]

theorem size_inverseAt (n : Nat) : (inverseAt n).size = 256 := by
  induction n with
  | zero => exact Array.size_replicate
  | succ n ih => rw [inverseAt_succ, Array.size_setIfInBounds, ih]

theorem getD_inverseAt {n : Nat} (hn : n ≤ 256) {x : UInt8} (hx : x.toNat < n) :
    (inverseAt n).getD (substituted x).toNat 0 = x := by
  induction n with
  | zero => cases hx
  | succ n ih =>
    have image : (substituted x).toNat < (inverseAt n).size := by
      rw [size_inverseAt]
      exact (substituted x).toNat_lt
    have entry : sbox.getD n 0 = substituted n.toUInt8 := by
      unfold substituted
      rw [Nat.toUInt8_eq, UInt8.toNat_ofNat_of_lt' (show n < 256 by omega)]
    rw [inverseAt_succ, entry, Array.getD_eq_getD_getElem?, Array.getElem?_setIfInBounds]
    by_cases h : n.toUInt8 = x
    · rw [h, if_pos rfl, if_pos image]
      rfl
    -- The box is injective, so the last entry went to another place.
    · have other : (substituted n.toUInt8).toNat ≠ (substituted x).toNat :=
        fun same => h (substituted_inj (UInt8.toNat_inj.1 same))
      have earlier : x.toNat ≠ n := by
        rintro rfl
        exact h (by rw [Nat.toUInt8_eq, UInt8.ofNat_toNat])
      rw [if_neg other, ← Array.getD_eq_getD_getElem?]
      exact ih (by omega) (by omega)

theorem unsubstituted_substituted (x : UInt8) : unsubstituted (substituted x) = x := by
  unfold unsubstituted
  rw [inverseSbox_eq]
  exact getD_inverseAt (Nat.le_refl 256) x.toNat_lt

theorem substituted_unsubstituted (x : UInt8) : substituted (unsubstituted x) = x := by
  have image : substituted (inverse (unaffine x)) = x := by
    rw [substituted_eq, inverse_inverse, affine_unaffine]
  rw [← image, unsubstituted_substituted]

/-! ## States -/

theorem size_addKey (keys : Array UInt8) (r : Nat) (s : Array UInt8) : (addKey keys r s).size = 16 :=
  Array.size_ofFn

theorem size_substitute (s : Array UInt8) : (substitute s).size = 16 := Array.size_ofFn

theorem size_unsubstitute (s : Array UInt8) : (unsubstitute s).size = 16 := Array.size_ofFn

theorem size_mixColumns (s : Array UInt8) : (mixColumns s).size = 16 := Array.size_ofFn

theorem size_unmixColumns (s : Array UInt8) : (unmixColumns s).size = 16 := Array.size_ofFn

/-- States of sixteen octets are equal when their octets are. -/
theorem state_ext {s s' : Array UInt8} (h : s.size = 16) (h' : s'.size = 16)
    (same : ∀ i < 16, s.getD i 0 = s'.getD i 0) : s = s' := by
  apply Array.ext (by rw [h, h'])
  intro i hi hi'
  have octet := same i (by omega)
  simpa [Array.getD, hi, hi'] using octet

theorem getD_addKey (keys : Array UInt8) (r : Nat) (s : Array UInt8) {i : Nat} (hi : i < 16) :
    (addKey keys r s).getD i 0 = s.getD i 0 ^^^ keys.getD (16 * r + i) 0 :=
  getD_ofFn _ hi

theorem getD_substitute (s : Array UInt8) {i : Nat} (hi : i < 16) :
    (substitute s).getD i 0 = substituted (s.getD ((i + 4 * (i % 4)) % 16) 0) :=
  getD_ofFn _ hi

theorem getD_unsubstitute (s : Array UInt8) {i : Nat} (hi : i < 16) :
    (unsubstitute s).getD i 0 = unsubstituted (s.getD ((i + 16 - 4 * (i % 4)) % 16) 0) :=
  getD_ofFn _ hi

theorem addKey_addKey (keys : Array UInt8) (r : Nat) {s : Array UInt8} (h : s.size = 16) :
    addKey keys r (addKey keys r s) = s := by
  refine state_ext (size_addKey keys r _) h fun i hi => ?_
  rw [getD_addKey _ _ _ hi, getD_addKey _ _ _ hi, UInt8.xor_assoc, UInt8.xor_self, UInt8.xor_zero]

theorem unsubstitute_substitute {s : Array UInt8} (h : s.size = 16) :
    unsubstitute (substitute s) = s := by
  refine state_ext (size_unsubstitute _) h fun i hi => ?_
  have back : ((i + 16 - 4 * (i % 4)) % 16 + 4 * ((i + 16 - 4 * (i % 4)) % 16 % 4)) % 16 = i := by
    omega
  rw [getD_unsubstitute _ hi, getD_substitute _ (Nat.mod_lt _ (by decide)), back,
    unsubstituted_substituted]

theorem substitute_unsubstitute {s : Array UInt8} (h : s.size = 16) :
    substitute (unsubstitute s) = s := by
  refine state_ext (size_substitute _) h fun i hi => ?_
  have back : ((i + 4 * (i % 4)) % 16 + 16 - 4 * ((i + 4 * (i % 4)) % 16 % 4)) % 16 = i := by
    omega
  rw [getD_substitute _ hi, getD_unsubstitute _ (Nat.mod_lt _ (by decide)), back,
    substituted_unsubstituted]

/-! ## Columns -/

/-- An octet of a state by its column and row, where rows go round. -/
def cell (s : Array UInt8) (column row : Nat) : UInt8 := s.getD (4 * column + row % 4) 0

theorem cell_add_four (s : Array UInt8) (column row : Nat) :
    cell s column (row + 4) = cell s column row := by
  unfold cell
  rw [Nat.add_mod_right]

/-- States are equal when their columns are. -/
theorem state_ext_cell {s s' : Array UInt8} (h : s.size = 16) (h' : s'.size = 16)
    (same : ∀ column < 4, ∀ row, cell s column row = cell s' column row) : s = s' := by
  refine state_ext h h' fun i hi => ?_
  have octet := same (i / 4) (by omega) i
  unfold cell at octet
  rwa [Nat.div_add_mod] at octet

/-- The product of a row with a column of a state that is rotated. -/
def dotAt (k l m n : UInt8) (s : Array UInt8) (column row : Nat) : UInt8 :=
  dot k l m n (cell s column row) (cell s column (row + 1)) (cell s column (row + 2))
    (cell s column (row + 3))

theorem cell_mixWith (t0 t1 t2 t3 : UInt8 → UInt8) (s : Array UInt8) {column : Nat}
    (h : column < 4) (row : Nat) :
    cell (mixWith t0 t1 t2 t3 s) column row =
      t0 (cell s column row) ^^^ t1 (cell s column (row + 1)) ^^^ t2 (cell s column (row + 2)) ^^^
        t3 (cell s column (row + 3)) := by
  have start : (4 * column + row % 4) / 4 * 4 = 4 * column := by omega
  have offset : (4 * column + row % 4) % 4 = row % 4 := by omega
  unfold cell mixWith
  rw [getD_ofFn _ (by omega)]
  dsimp only
  rw [start, offset, Nat.mod_add_mod, Nat.mod_add_mod, Nat.mod_add_mod]

theorem cell_mixColumns (s : Array UInt8) {column : Nat} (h : column < 4) (row : Nat) :
    cell (mixColumns s) column row = dotAt 2 3 1 1 s column row := by
  unfold mixColumns dotAt dot times2 times3
  rw [cell_mixWith _ _ _ _ _ h, getD_table, getD_table, one_mul, one_mul]
  rfl

theorem cell_unmixColumns (s : Array UInt8) {column : Nat} (h : column < 4) (row : Nat) :
    cell (unmixColumns s) column row = dotAt 14 11 13 9 s column row := by
  unfold unmixColumns dotAt dot times14 times11 times13 times9
  rw [cell_mixWith _ _ _ _ _ h, getD_table, getD_table, getD_table, getD_table]

/-- Products with a state whose cells are products themselves. -/
theorem dotAt_dotAt {k l m n k' l' m' n' : UInt8} {s s' : Array UInt8} {column : Nat}
    (h : ∀ row, cell s' column row = dotAt k' l' m' n' s column row) (row : Nat) {a b c d : UInt8}
    (ha : cell s column row = a) (hb : cell s column (row + 1) = b)
    (hc : cell s column (row + 2) = c) (hd : cell s column (row + 3) = d) :
    dotAt k l m n s' column row = dot k l m n (dot k' l' m' n' a b c d) (dot k' l' m' n' b c d a)
      (dot k' l' m' n' c d a b) (dot k' l' m' n' d a b c) := by
  have ha' : cell s column (row + 4) = a := by rw [cell_add_four, ha]
  have hb' : cell s column (row + 1 + 4) = b := by rw [cell_add_four, hb]
  have hc' : cell s column (row + 2 + 4) = c := by rw [cell_add_four, hc]
  unfold dotAt
  rw [h, h, h, h]
  unfold dotAt
  simp only [Nat.add_assoc, Nat.reduceAdd] at hb' hc' ⊢
  rw [ha, hb, hc, hd, ha', hb', hc']

theorem unmixColumns_mixColumns {s : Array UInt8} (h : s.size = 16) :
    unmixColumns (mixColumns s) = s := by
  refine state_ext_cell (size_unmixColumns _) h fun column hc row => ?_
  rw [cell_unmixColumns _ hc, dotAt_dotAt (cell_mixColumns s hc) row rfl rfl rfl rfl, dot_unmix]

theorem mixColumns_unmixColumns {s : Array UInt8} (h : s.size = 16) :
    mixColumns (unmixColumns s) = s := by
  refine state_ext_cell (size_mixColumns _) h fun column hc row => ?_
  rw [cell_mixColumns _ hc, dotAt_dotAt (cell_unmixColumns s hc) row rfl rfl rfl rfl, dot_mix]

/-! ## Rounds -/

/-- A round forwards. -/
def round (keys : Array UInt8) (s : Array UInt8) (r : Nat) : Array UInt8 :=
  addKey keys r (mixColumns (substitute s))

/-- A round backwards. -/
def unround (keys : Array UInt8) (s : Array UInt8) (r : Nat) : Array UInt8 :=
  unmixColumns (addKey keys r (unsubstitute s))

/-- The rounds backwards undo the rounds, as seen through the substitution of the last round. -/
theorem foldl_unround (keys : Array UInt8) (rs : List Nat) {s : Array UInt8} (h : s.size = 16) :
    rs.reverse.foldl (unround keys) (substitute (rs.foldl (round keys) s)) = substitute s := by
  refine BlockCipher.foldl_reverse_foldl (P := fun s => s.size = 16) (v := substitute)
    (fun s r _ => size_addKey keys r _) (fun s r hs => ?_) rs h
  unfold unround round
  rw [unsubstitute_substitute (size_addKey keys r _), addKey_addKey keys r (size_mixColumns _),
    unmixColumns_mixColumns (size_substitute s)]

theorem foldl_round (keys : Array UInt8) (rs : List Nat) {s : Array UInt8} (h : s.size = 16) :
    rs.foldl (round keys) (unsubstitute (rs.reverse.foldl (unround keys) s)) = unsubstitute s := by
  have back := BlockCipher.foldl_reverse_foldl (P := fun s => s.size = 16) (v := unsubstitute)
    (f := unround keys) (g := round keys) (fun s r _ => size_unmixColumns _) (fun s r hs => ?_)
    rs.reverse h
  · rwa [List.reverse_reverse] at back
  · unfold unround round
    rw [substitute_unsubstitute (size_unmixColumns _),
      mixColumns_unmixColumns (size_addKey keys r _), addKey_addKey keys r (size_unsubstitute s)]

theorem ofFn_getD {s : Array UInt8} (h : s.size = 16) :
    (Array.ofFn fun i : Fin 16 => s.getD i 0) = s :=
  state_ext Array.size_ofFn h fun _ hi => getD_ofFn _ hi

theorem toArray_octets {s : Array UInt8} (h : s.size = 16) : (octets s).toArray = s := by
  unfold octets
  rw [ofFn_getD h]

theorem octets_toArray {block : Bytes} (h : block.length = 16) : octets block.toArray = block := by
  have size : block.toArray.size = 16 := h
  unfold octets
  rw [ofFn_getD size]

theorem encryptBlock_eq (keys : Array UInt8) (rounds : Nat) (block : Bytes) :
    encryptBlock keys rounds block =
      octets (addKey keys rounds (substitute ((List.range' 1 (rounds - 1)).foldl (round keys)
        (addKey keys 0 block.toArray)))) := rfl

theorem decryptBlock_eq (keys : Array UInt8) (rounds : Nat) (block : Bytes) :
    decryptBlock keys rounds block =
      octets (addKey keys 0 (unsubstitute ((List.range' 1 (rounds - 1)).reverse.foldl (unround keys)
        (addKey keys rounds block.toArray)))) := rfl

/-- Decryption of a block undoes encryption, whatever the round keys are. -/
theorem decryptBlock_encryptBlock (keys : Array UInt8) (rounds : Nat) {block : Bytes}
    (h : block.length = 16) : decryptBlock keys rounds (encryptBlock keys rounds block) = block := by
  rw [decryptBlock_eq, encryptBlock_eq, toArray_octets (size_addKey keys rounds _),
    addKey_addKey keys rounds (size_substitute _), foldl_unround _ _ (size_addKey keys 0 _),
    unsubstitute_substitute (size_addKey keys 0 _), addKey_addKey keys 0 h, octets_toArray h]

theorem encryptBlock_decryptBlock (keys : Array UInt8) (rounds : Nat) {block : Bytes}
    (h : block.length = 16) : encryptBlock keys rounds (decryptBlock keys rounds block) = block := by
  rw [decryptBlock_eq, encryptBlock_eq, toArray_octets (size_addKey keys 0 _),
    addKey_addKey keys 0 (size_unsubstitute _), foldl_round _ _ (size_addKey keys rounds _),
    substitute_unsubstitute (size_addKey keys rounds _), addKey_addKey keys rounds h,
    octets_toArray h]

end Cryptogram.Aes

namespace Cryptogram

/-- AES can be undone under every key. -/
theorem BlockCipher.invertible_aes (key : Bytes) : (aes key).Invertible where
  decrypt_encrypt block h := by
    simp only [aes] at h ⊢
    exact Aes.decryptBlock_encryptBlock _ _ h
  encrypt_decrypt block h := by
    simp only [aes] at h ⊢
    exact Aes.encryptBlock_decryptBlock _ _ h

end Cryptogram
