import Cryptogram.Proofs.OpenPgp.Armor
import Cryptogram.Proofs.OpenPgp.Checksum

/-!
# Damaged armor

A text under the checksum line of another message is told from that message: a burst of errors that
is no longer than the checksum changes the checksum, so that nothing is read.
-/

namespace Cryptogram.Armor

/-- A text where another line stands in the place of every line that is the same as a given one. -/
def replaceLine (old new text : Bytes) : Bytes :=
  [lineFeed].intercalate ((lines text).map fun line => if line = old then new else line)

/-- Lines with their line feeds are lines that are joined, with nothing behind the last one. -/
theorem intercalate_lineFeed (ls : List Bytes) :
    [lineFeed].intercalate (ls ++ [[]]) = ls.flatMap fun line => line ++ [lineFeed] := by
  induction ls with
  | nil => rfl
  | cons line ls ih =>
    have more : ls ++ [[]] ≠ [] := List.append_ne_nil_of_right_ne_nil _ (List.cons_ne_nil _ _)
    rw [List.cons_append, List.intercalate_cons_of_ne_nil more, ih, List.flatMap_cons]

/-- No other line of a block is its checksum line. -/
theorem replaced_linesWith {message : Bytes} (ne : message ≠ []) (old new : Bytes) :
    ((linesWith message old).map fun line =>
      if line = checksumLine old then checksumLine new else line) = linesWith message new := by
  have fixed : ∀ line : Bytes, line.head? ≠ some equalsSign → line ≠ checksumLine old := by
    rintro _ starts rfl
    exact starts rfl
  have head := fixed (headLine messageKind) (by decide)
  have tail := fixed (tailLine messageKind) (by decide)
  have blank := fixed [] (by decide)
  have body : ∀ line ∈ bodyLines message, line ≠ checksumLine old := by
    rintro line hl rfl
    have digits := isBodyLine_of_mem_bodyLines ne hl
    rw [isBodyLine_checksumLine] at digits
    cases digits
  have kept : ((bodyLines message).map fun line =>
      if line = checksumLine old then checksumLine new else line) = bodyLines message :=
    (List.map_congr_left fun line hl => if_neg (body line hl)).trans (List.map_id _)
  simp only [linesWith, List.map_append, List.map_cons, List.map_nil, if_neg head, if_neg tail,
    if_neg blank, if_pos, kept]

/-- Only the checksum line of a block is replaced. -/
theorem replaceLine_checksumLine {message : Bytes} (ne : message ≠ []) (other : Bytes) :
    replaceLine (checksumLine message) (checksumLine other) (write message) =
      writeWith message other := by
  have layout : lines (write message) = linesWith message message ++ [[]] :=
    lines_writeWith message message
  have last : ([] : Bytes) ≠ checksumLine message := (List.cons_ne_nil _ _).symm
  rw [replaceLine, layout, List.map_append, replaced_linesWith ne, List.map_singleton, if_neg last,
    intercalate_lineFeed, writeWith]

/-- A message is read from its armor, and a message with a short burst of errors is refused under
the checksum line of the former. -/
theorem read_replaceLine_checksumLine {message received : Bytes} (ne : message ≠ [])
    (size : received.length = message.length) (different : received ≠ message)
    (near : Bytes.DifferWithin 24 message received) :
    read (write message) = .ok message ∧
      ∃ f, read (replaceLine (checksumLine received) (checksumLine message) (write received)) =
          .error f ∧
        f.kind = .own .armor ∧ f.message? = some "Armor checksum mismatch" := by
  have full : received ≠ [] := by
    rw [← List.length_pos_iff, size]
    exact List.length_pos_iff.2 ne
  have told : Crc24.ofBytes message ≠ Crc24.ofBytes received :=
    Crc24.ofBytes_ne size.symm different.symm near
  refine ⟨read_write ne,
    .armorChecksum (Crc24.ofBytes message).toNat (Crc24.ofBytes received).toNat, ?_, rfl, rfl⟩
  rw [replaceLine_checksumLine full, read_writeWith full, if_neg told.symm]

/-- Twenty-four bits across four octets are damaged. -/
theorem read_damaged_hello :
    let message : Bytes := [104, 101, 108, 108, 111]
    let received : Bytes := [111, 154, 147, 148, 111]
    message ≠ [] ∧ received.length = message.length ∧ received ≠ message ∧
      Bytes.DifferWithin 24 message received ∧
      read (write message) = .ok message ∧
      ∃ f, read (replaceLine (checksumLine received) (checksumLine message) (write received)) =
          .error f ∧
        f.kind = .own .armor ∧ f.message? = some "Armor checksum mismatch" := by
  have near : Bytes.DifferWithin 24 [104, 101, 108, 108, 111] [111, 154, 147, 148, 111] :=
    (Bytes.differWithin_iff (by decide)).2 ⟨(Bytes.bits [104]).take 5,
      ((Bytes.bits [104, 101, 108, 108]).drop 5).take 24,
      ((Bytes.bits [111, 154, 147, 148]).drop 5).take 24, [true, false, false] ++ Bytes.bits [111],
      by decide, by decide, by decide, by decide⟩
  exact ⟨by decide, rfl, by decide, near,
    read_replaceLine_checksumLine (by decide) rfl (by decide) near⟩

end Cryptogram.Armor
