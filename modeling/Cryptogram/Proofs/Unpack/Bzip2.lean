import Cryptogram.Proofs.Unpack.Huffman
import Cryptogram.Unpack.Bzip2

/-!
# Bzip2 streams that are cut

Streams are made of steady decoders: each step of the three loops, over the digits of a length, the
symbols of a block and the blocks of a stream, takes a bit.
-/

namespace Cryptogram.Bzip2

open Decoder

/-! ## The head of a block -/

theorem steady_alphabet : Steady 0 alphabet := by
  refine (steady_replicate (steady_bit .highFirst) 16).bind fun groups => ?_
  refine (steady_mapM (fun group => ?_) _).bind fun parts => ?_
  · obtain ⟨inUse, i⟩ := group
    dsimp only
    split_ifs
    · exact (steady_replicate (steady_bit .highFirst) 16).bind fun flags => steady_pure _
    · exact steady_pure _
  · exact (steady_require _).bind fun _ => steady_pure _

theorem steady_unary (limit : Nat) : Steady 0 (unary limit) := by
  induction limit with
  | zero => exact steady_fail
  | succ limit ih =>
    refine (steady_bit .highFirst).zero.bind fun more => ?_
    split_ifs
    · exact ih.bind fun n => steady_pure _
    · exact steady_pure _

theorem steady_selectors (codes : Nat) : Steady 0 (selectors codes) := by
  refine (steady_highNumber 15).bind fun count => (steady_require _).bind fun _ => ?_
  exact (steady_replicate (steady_unary codes) count).bind fun places => steady_pure _

theorem steady_lengthStep (length : Nat) : Steady 1 (lengthStep length) := by
  refine (steady_require _).bind fun _ => (steady_bit .highFirst).andThen fun more => ?_
  split_ifs
  · refine (steady_bit .highFirst).zero.bind fun down => ?_
    split_ifs
    · exact steady_pure _
    · exact steady_pure _
  · exact steady_pure _

theorem steady_lengths (count last : Nat) : Steady 0 (lengths count last) := by
  induction count generalizing last with
  | zero => exact steady_pure []
  | succ count ih =>
    refine (steady_loop steady_lengthStep last).bind fun length => ?_
    exact (ih length).bind fun more => steady_pure _

theorem steady_code (count : Nat) : Steady 0 (code count) :=
  (steady_highNumber 5).bind fun first => (steady_lengths count first).bind fun _ => steady_pure _

/-! ## The symbols of a block -/

theorem steady_flush (limit : Nat) (s : Symbols) : Steady 0 (s.flush limit) :=
  (steady_require _).bind fun _ => steady_pure _

theorem steady_symbolStep (limit : Nat) (codes : Array Huffman) (groups : Array Nat) (s : Symbols) :
    Steady 1 (symbolStep limit codes groups s) := by
  unfold symbolStep
  cases groups[s.index / 50]? >>= fun group => codes[group]? with
  | none => exact steady_fail
  | some code =>
    refine (code.steady_symbol .highFirst).andThen fun n => ?_
    dsimp only
    split_ifs
    · exact (steady_require _).bind fun _ => steady_pure _
    · refine (steady_flush limit _).bind fun s => ?_
      split_ifs
      · exact steady_pure _
      · exact (steady_require _).bind fun _ => steady_pure _

theorem steady_block (level : Nat) : Steady 0 (block level) := by
  refine (steady_highNumber 32).bind fun crc => (steady_bit .highFirst).zero.bind fun noisy => ?_
  refine (steady_highNumber 24).bind fun origin => (steady_require _).bind fun _ => ?_
  refine steady_alphabet.bind fun octets => (steady_highNumber 3).bind fun count => ?_
  refine (steady_require _).bind fun _ => (steady_selectors count).bind fun groups => ?_
  refine (steady_replicate (steady_code _) count).bind fun codes => ?_
  refine (steady_loop (steady_symbolStep _ _ _) _).bind fun column => (steady_require _).bind fun _ => ?_
  dsimp only
  cases expandRuns? (if noisy then quieten (unsort column origin) else unsort column origin) with
  | none => exact steady_fail
  | some plain => exact (steady_require _).bind fun _ => steady_pure _

/-! ## Streams -/

theorem steady_expect (octets : Bytes) : Steady 0 (expect octets) := by
  induction octets with
  | nil => exact steady_pure ()
  | cons octet rest ih =>
    exact (steady_highNumber 8).bind fun n => (steady_require _).bind fun _ => ih

theorem steady_part (level : Nat) (crc : UInt32) : Steady 1 (part level crc) := by
  refine (steady_highNumber_succ 7).andThen fun first => ?_
  split_ifs
  · refine (steady_expect _).bind fun _ => (steady_highNumber 32).bind fun whole => ?_
    exact (steady_require _).bind fun _ => steady_pure _
  · refine (steady_require _).bind fun _ => (steady_expect _).bind fun _ => ?_
    refine (steady_block level).bind fun read => ?_
    exact (steady_emitAll read.2).bind fun _ => steady_pure _

theorem steady_stream : Steady 0 stream := by
  refine (steady_expect _).bind fun _ => (steady_highNumber 8).bind fun level => ?_
  refine (steady_require _).bind fun _ => ?_
  exact (steady_loop (steady_part _) 0).bind fun _ => steady_align

end Cryptogram.Bzip2
