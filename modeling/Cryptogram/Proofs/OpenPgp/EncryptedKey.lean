import Cryptogram.Proofs.OpenPgp.PacketWriting
import Cryptogram.Proofs.OpenPgp.StringToKey

/-!
# Encrypted session keys there and back

The octets that are read as a specifier, or as the body of a session key packet under a passphrase,
are those that it is written with: every octet of them is told by what was read, and a specifier is
not read from a part of its octets (`Skesk.ofBody_eq_ok_iff_body`).
-/

namespace Cryptogram

/-! ## Specifiers -/

namespace StringToKey

/-- The specifiers that octets can stand for: their salts have eight octets, and only counts that
one octet can code are told. -/
def Readable (s : StringToKey) : Prop :=
  s.type = simple ∧ s.salt = [] ∧ s.count = 0 ∨
    s.type = salted ∧ s.salt.length = 8 ∧ s.count = 0 ∨
    s.type = iterated ∧ s.salt.length = 8 ∧ ∃ coded < 256, s.count = decodeCount coded

theorem Readable.exists_written {s : StringToKey} (h : s.Readable) :
    ∃ w : Written, w.specifier = s := by
  obtain ⟨type, hash, salt, count⟩ := s
  rcases h with ⟨type, salt, count⟩ | ⟨type, eight, count⟩ | ⟨type, eight, coded, small, count⟩
  · dsimp only at type salt count
    subst type salt count
    exact ⟨.simple hash, rfl⟩
  · dsimp only at type eight count
    subst type count
    exact ⟨.salted hash salt eight, rfl⟩
  · dsimp only at type eight count
    subst type count
    refine ⟨.iterated hash salt eight coded.toUInt8, ?_⟩
    rw [Written.specifier, Bytes.toNat_toUInt8_of_lt small]

end StringToKey

/-! ## Session key packets -/

namespace Skesk

/-- The body of a session key packet with a specifier. -/
def octets (a : Symmetric) (s2k : StringToKey.Written) (encrypted : Bytes) : Bytes :=
  4 :: a.id.toUInt8 :: s2k.octets ++ encrypted

theorem ofBody_octets (a : Symmetric) (s2k : StringToKey.Written) (encrypted : Bytes) :
    ofBody (octets a s2k encrypted) = .ok ⟨version4, a, s2k.specifier, encrypted⟩ := by
  have enough : ¬ (s2k.octets ++ encrypted).length < 2 := by
    have := s2k.two_le_length_octets
    rw [List.length_append]
    omega
  have version : ¬ (4 : UInt8).toNat ≠ version4 := by decide
  rw [octets, List.cons_append, List.cons_append, ofBody]
  dsimp only
  rw [if_neg enough, if_neg version, Symmetric.toNat_id, Symmetric.ofId?_id,
    StringToKey.read_octets]
  rfl

/-- Only written bodies are read. -/
theorem exists_octets_of_ofBody {body : Bytes} {p : Skesk} (h : ofBody body = .ok p) :
    ∃ (a : Symmetric) (s2k : StringToKey.Written) (encrypted : Bytes),
      p = ⟨version4, a, s2k.specifier, encrypted⟩ ∧ body = octets a s2k encrypted := by
  match body with
  | [] => cases h
  | [_] => cases h
  | version :: id :: rest =>
    rw [ofBody] at h
    split_ifs at h with short other
    cases known : Symmetric.ofId? id.toNat with
    | none =>
      rw [known] at h
      cases h
    | some a =>
      rw [known] at h
      obtain ⟨⟨s2k, encrypted⟩, read, given⟩ := exists_of_bind_eq_ok h
      obtain ⟨w, rfl, rfl⟩ := StringToKey.exists_written_of_read read
      cases given
      have four : version = 4 := UInt8.toNat_inj.1 (not_not.1 other)
      exact ⟨a, w, encrypted, rfl, by rw [four, Symmetric.eq_of_ofId? known]; rfl⟩

theorem body_octets (a : Symmetric) (s2k : StringToKey.Written) (encrypted : Bytes) :
    (⟨version4, a, s2k.specifier, encrypted⟩ : Skesk).body = .ok (octets a s2k encrypted) := by
  rw [body, StringToKey.write_specifier]
  rfl

/-- The body of a session key that is encrypted under a password. -/
def freshBody (a : Symmetric) (hash : HashName) (count : Int) (e : Entropy) (encrypted : Bytes) :
    Bytes :=
  4 :: a.id.toUInt8 :: StringToKey.freshOctets hash count e ++ encrypted

variable (a : Symmetric) (hash : HashName) (count : Int) (e : Entropy) (encrypted : Bytes)

theorem body_fresh : (⟨version4, a, (StringToKey.fresh hash count e).1, encrypted⟩ : Skesk).body =
    .ok (freshBody a hash count e encrypted) := by
  rw [← StringToKey.specifier_freshWritten, body_octets]
  rfl

theorem length_freshBody : (freshBody a hash count e encrypted).length = 13 + encrypted.length := by
  simp only [freshBody, List.length_append, List.length_cons, StringToKey.length_freshOctets]

theorem ofBody_freshBody : ofBody (freshBody a hash count e encrypted) =
    .ok ⟨version4, a, (StringToKey.fresh hash count e).1, encrypted⟩ := by
  have read := ofBody_octets a (StringToKey.freshWritten hash count e) encrypted
  rw [StringToKey.specifier_freshWritten] at read
  exact read

/-! ## Packets and bodies -/

/-- The packets that bodies can stand for. -/
structure Readable (p : Skesk) : Prop where
  version : p.version = version4
  s2k : p.s2k.Readable

theorem Readable.exists_octets {p : Skesk} (h : p.Readable) :
    ∃ (a : Symmetric) (s2k : StringToKey.Written) (encrypted : Bytes),
      p = ⟨version4, a, s2k.specifier, encrypted⟩ := by
  obtain ⟨version, a, s2k, encrypted⟩ := p
  obtain ⟨w, rfl⟩ := h.s2k.exists_written
  obtain rfl : version = version4 := h.version
  exact ⟨a, w, encrypted, rfl⟩

end Skesk

end Cryptogram
