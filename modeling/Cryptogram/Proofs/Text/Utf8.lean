import Mathlib.Tactic.Ring
import Cryptogram.Proofs.Octets
import Cryptogram.Text.Utf8

/-!
# UTF-8 there and back

Both readings of UTF-8 give a text back from its octets (`ofUtf8?_utf8`, `ofUtf8Lenient_utf8`).
-/

namespace Cryptogram.Text

/-! ## The octets of a text -/

theorem toList_loop (bytes : ByteArray) (i : Nat) (front : List UInt8) :
    ByteArray.toList.loop bytes i front = front.reverse ++ bytes.data.toList.drop i := by
  fun_induction ByteArray.toList.loop bytes i front with
  | case1 i front less ih =>
    have here : i < bytes.data.toList.length := less
    have octet : bytes.get! i = bytes.data.toList[i] := by
      cases bytes
      exact getElem!_pos _ i less
    rw [ih, List.drop_eq_getElem_cons here, octet, List.reverse_cons, List.append_assoc,
      List.singleton_append]
  | case2 i front less =>
    have past : bytes.data.toList.length ≤ i := Nat.le_of_not_lt less
    rw [List.drop_eq_nil_of_le past, List.append_nil]

theorem utf8_eq (text : String) : utf8 text = text.toList.flatMap String.utf8EncodeChar := by
  have octets : text.toByteArray = text.toList.utf8Encode := by
    rw [← String.toByteArray_ofList, String.ofList_toList]
  rw [utf8, String.toUTF8_eq_toByteArray, octets, ByteArray.toList, toList_loop, List.utf8Encode,
    List.toList_data_toByteArray]
  rfl

theorem utf8_empty : utf8 "" = [] := by
  rw [utf8_eq]
  rfl

/-! ## Characters -/

/-- The ranges of the first octet as numbers. -/
theorem following?_eq (b : UInt8) : following? b =
    if b.toNat < 0x80 then some (0, 0, 0)
    else if b.toNat < 0xc2 then none
    else if b.toNat < 0xe0 then some (1, 0x80, 0xbf)
    else if b.toNat = 0xe0 then some (2, 0xa0, 0xbf)
    else if b.toNat = 0xed then some (2, 0x80, 0x9f)
    else if b.toNat < 0xf0 then some (2, 0x80, 0xbf)
    else if b.toNat = 0xf0 then some (3, 0x90, 0xbf)
    else if b.toNat < 0xf4 then some (3, 0x80, 0xbf)
    else if b.toNat = 0xf4 then some (3, 0x80, 0x8f)
    else none := by
  simp only [following?, UInt8.lt_iff_toNat_lt, ← UInt8.toNat_inj]
  rfl

theorem following?_one (b : UInt8) (h : b.toNat < 0x80) : following? b = some (0, 0, 0) := by
  rw [following?_eq, if_pos h]

theorem following?_two (b : UInt8) (low : 0xc2 ≤ b.toNat) (high : b.toNat < 0xe0) :
    following? b = some (1, 0x80, 0xbf) := by
  rw [following?_eq, if_neg (by omega), if_neg (by omega), if_pos high]

theorem following?_three (b : UInt8) (low : 0xe0 ≤ b.toNat) (high : b.toNat < 0xf0) :
    following? b =
      some (2, if b.toNat = 0xe0 then 0xa0 else 0x80, if b.toNat = 0xed then 0x9f else 0xbf) := by
  rw [following?_eq, if_neg (by omega), if_neg (by omega), if_neg (by omega)]
  split_ifs <;> first | rfl | omega

theorem following?_four (b : UInt8) (low : 0xf0 ≤ b.toNat) (high : b.toNat < 0xf5) :
    following? b =
      some (3, if b.toNat = 0xf0 then 0x90 else 0x80, if b.toNat = 0xf4 then 0x8f else 0xbf) := by
  rw [following?_eq, if_neg (by omega), if_neg (by omega), if_neg (by omega)]
  split_ifs <;> first | rfl | omega

theorem toNat_ofNat {n : Nat} (h : n < 256) : (UInt8.ofNat n).toNat = n :=
  Bytes.toNat_toUInt8_of_lt h

theorem scanTail_cons {owed bits : Nat} {low high b : UInt8} (rest : Bytes)
    (hl : low.toNat ≤ b.toNat) (hh : b.toNat ≤ high.toNat) :
    scanTail (owed + 1) bits low high (b :: rest) =
      scanTail owed (bits * 64 + b.toNat % 64) 0x80 0xbf rest := by
  rw [scanTail, if_pos ⟨UInt8.le_iff_toNat_le.2 hl, UInt8.le_iff_toNat_le.2 hh⟩]

/-- An octet that carries six bits of a character. -/
def continuation (n : Nat) : UInt8 := UInt8.ofNat (n % 64 + 0x80)

theorem toNat_continuation (n : Nat) : (continuation n).toNat = n % 64 + 0x80 :=
  toNat_ofNat (by omega)

theorem scanTail_continuation {owed bits n : Nat} {low high : UInt8} (rest : Bytes)
    (hl : low.toNat ≤ n % 64 + 0x80) (hh : n % 64 + 0x80 ≤ high.toNat) :
    scanTail (owed + 1) bits low high (continuation n :: rest) =
      scanTail owed (bits * 64 + n % 64) 0x80 0xbf rest := by
  have octet := toNat_continuation n
  have six : (n % 64 + 0x80) % 64 = n % 64 := by omega
  rw [scanTail_cons rest (by omega) (by omega), octet, six]

theorem scanTail_ordinary {owed bits : Nat} (n : Nat) (rest : Bytes) :
    scanTail (owed + 1) bits 0x80 0xbf (continuation n :: rest) =
      scanTail owed (bits * 64 + n % 64) 0x80 0xbf rest := by
  have low : (0x80 : UInt8).toNat = 0x80 := rfl
  have high : (0xbf : UInt8).toNat = 0xbf := rfl
  exact scanTail_continuation rest (by omega) (by omega)

/-- A character is scanned as itself. -/
theorem scanRuns_char (c : Char) (fuel : Nat) (rest : Bytes) :
    scanRuns (fuel + 1) (String.utf8EncodeChar c ++ rest) = some c :: scanRuns fuel rest := by
  have valid : c.val.toNat < 0xd800 ∨ 0xdfff < c.val.toNat ∧ c.val.toNat < 0x110000 := c.valid
  have char : Char.ofNat c.val.toNat = c := Char.ofNat_toNat c
  set v := c.val.toNat with hv
  have start (first : UInt8) (more : Bytes) {owed : Nat} {low high : UInt8}
      (hf : following? first = some (owed, low, high))
      (ht : scanTail owed (leadingBits first owed) low high (more ++ rest) = (some (Char.ofNat v), rest)) :
      scanRuns (fuel + 1) (first :: more ++ rest) = some c :: scanRuns fuel rest := by
    rw [List.cons_append, scanRuns, hf]
    dsimp only
    rw [ht, char]
  unfold String.utf8EncodeChar
  dsimp only
  rw [← hv]
  split_ifs with one two three
  · have octet : (UInt8.ofNat v).toNat = v := toNat_ofNat (by omega)
    refine start _ [] (following?_one _ (by omega)) ?_
    rw [leadingBits, if_pos rfl, octet]
    rfl
  · have octet : (UInt8.ofNat (v / 64 % 0x20 + 0xc0)).toNat = v / 64 % 0x20 + 0xc0 :=
      toNat_ofNat (by omega)
    refine start _ [continuation v] (following?_two _ (by omega) (by omega)) ?_
    rw [List.singleton_append, scanTail_ordinary, leadingBits, if_neg (by decide), octet, scanTail]
    have bits : 1 <<< (6 - 1) = 32 := rfl
    rw [bits]
    congr 2
    congr 1
    omega
  · have octet : (UInt8.ofNat (v / 4096 % 0x10 + 0xe0)).toNat = v / 4096 % 0x10 + 0xe0 :=
      toNat_ofNat (by omega)
    refine start _ [continuation (v / 64), continuation v]
      (following?_three _ (by omega) (by omega)) ?_
    rw [List.cons_append, scanTail_continuation, List.singleton_append, scanTail_ordinary, leadingBits,
      if_neg (by decide), octet, scanTail]
    · have bits : 1 <<< (6 - 2) = 16 := rfl
      rw [bits]
      congr 2
      congr 1
      omega
    · have low : (0xa0 : UInt8).toNat = 0xa0 := rfl
      have low' : (0x80 : UInt8).toNat = 0x80 := rfl
      split_ifs <;> omega
    · have high : (0x9f : UInt8).toNat = 0x9f := rfl
      have high' : (0xbf : UInt8).toNat = 0xbf := rfl
      split_ifs <;> omega
  · have octet : (UInt8.ofNat (v / 262144 % 0x08 + 0xf0)).toNat = v / 262144 % 0x08 + 0xf0 :=
      toNat_ofNat (by omega)
    refine start _ [continuation (v / 4096), continuation (v / 64), continuation v]
      (following?_four _ (by omega) (by omega)) ?_
    rw [List.cons_append, scanTail_continuation, List.cons_append, scanTail_ordinary,
      List.singleton_append, scanTail_ordinary, leadingBits, if_neg (by decide), octet, scanTail]
    · have bits : 1 <<< (6 - 3) = 8 := rfl
      rw [bits]
      congr 2
      congr 1
      omega
    · have low : (0x90 : UInt8).toNat = 0x90 := rfl
      have low' : (0x80 : UInt8).toNat = 0x80 := rfl
      split_ifs <;> omega
    · have high : (0x8f : UInt8).toNat = 0x8f := rfl
      have high' : (0xbf : UInt8).toNat = 0xbf := rfl
      split_ifs <;> omega

/-! ## Texts -/

theorem scanRuns_chars (chars : List Char) {fuel : Nat}
    (h : (chars.flatMap String.utf8EncodeChar).length ≤ fuel) :
    scanRuns fuel (chars.flatMap String.utf8EncodeChar) = chars.map some := by
  induction chars generalizing fuel with
  | nil => cases fuel <;> rfl
  | cons c chars ih =>
    have pos := List.length_pos_iff.2 (@String.utf8EncodeChar_ne_nil c)
    rw [List.flatMap_cons, List.length_append] at h
    obtain ⟨fuel, rfl⟩ : ∃ n, fuel = n + 1 := ⟨fuel - 1, by omega⟩
    rw [List.flatMap_cons, scanRuns_char, ih (by omega), List.map_cons]

theorem scan_utf8 (text : String) : scan (utf8 text) = text.toList.map some := by
  rw [scan, utf8_eq, scanRuns_chars _ le_rfl]

theorem mapM_id_map_some {α : Type} (l : List α) : (l.map some).mapM id = some l := by
  induction l with
  | nil => rfl
  | cons a l ih =>
    rw [List.map_cons, List.mapM_cons, ih]
    rfl

/-- Strict reading gives a text back. -/
theorem ofUtf8?_utf8 (text : String) : ofUtf8? (utf8 text) = some text := by
  rw [ofUtf8?, scan_utf8, mapM_id_map_some, Option.map_some, String.ofList_toList]

theorem utf8_ne_nil {text : String} (h : text ≠ "") : utf8 text ≠ [] := by
  intro empty
  have back := ofUtf8?_utf8 text
  rw [empty] at back
  exact h (Option.some.inj back).symm

/-- Lenient reading gives a text back. -/
theorem ofUtf8Lenient_utf8 (text : String) : ofUtf8Lenient (utf8 text) = text := by
  have chars : (text.toList.map some).map (fun c => c.getD (Char.ofNat 0xfffd)) = text.toList := by
    rw [List.map_map]
    exact List.map_id _
  rw [ofUtf8Lenient, scan_utf8, chars, String.ofList_toList]

end Cryptogram.Text
