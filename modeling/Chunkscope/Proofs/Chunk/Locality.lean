import Chunkscope.Proofs.Chunk.Framing
import Chunkscope.Proofs.Chunk.Stream

/-!
# A chunk is found from its own bytes

What parsing finds at the front of an input, it finds again when the rest of the input is gone. Other
bytes can come behind it instead, as long as nothing was wrong with the length: a length that does
not end, or that declares too much, would go on into them.
-/

namespace Chunkscope

theorem window_kept {declared : UInt64} {input more : Bytes}
    (room : more = [] ∨ (window declared input).short = none) :
    window declared ((window declared input).bytes ++ more) =
      { window declared input with rest := more } := by
  by_cases fits : declared.toNat ≤ input.length
  · have size : (input.take declared.toNat).length = declared.toNat := List.length_take_of_le fits
    have enough : declared.toNat ≤ (input.take declared.toNat ++ more).length := by
      rw [List.length_append]
      omega
    simp only [window, cut_eq, if_pos fits, if_pos enough, List.take_left' size,
      List.drop_left' size]
  · have long : window declared input = ⟨input, [], some input.length⟩ := by
      simp only [window, cut_eq, if_neg fits]
    rcases room with rfl | whole
    · rw [long, List.append_nil, long]
    · rw [long] at whole
      cases whole

namespace Chunk

variable {suite : Suite} {chunk : Chunk} {input rest more : Bytes}

theorem length_diagnostics_eq_nil_iff (suite : Suite) (magic : Bytes) (stored : Checksum)
    (kindByte : UInt8) (input : Bytes) :
    (ofParts suite magic stored kindByte input).1.length.diagnostics = [] ↔
      (Varint.scanUnsigned input).fault = none ∧
        (window (Varint.scanUnsigned input).value (Varint.scanUnsigned input).rest).short =
          none := by
  simp only [ofParts, Field.add, Field.ofScan, List.append_eq_nil_iff, of_fault_eq_nil_iff]
  apply and_congr_right'
  cases (window (Varint.scanUnsigned input).value (Varint.scanUnsigned input).rest).short <;> simp

/-- The length and the body, taken alone or with other bytes behind them, are found once more. -/
theorem of_parts_kept (suite : Suite) (magic : Bytes) (stored : Checksum) (kindByte : UInt8)
    (input : Bytes)
    (room : more = [] ∨ (ofParts suite magic stored kindByte input).1.length.diagnostics = []) :
    ofParts suite magic stored kindByte
        ((ofParts suite magic stored kindByte input).1.length.bytes ++
          ((ofParts suite magic stored kindByte input).1.body ++ more)) =
      ((ofParts suite magic stored kindByte input).1, more) := by
  rw [length_diagnostics_eq_nil_iff] at room
  have ends : Varint.split input = none →
      (window (Varint.scanUnsigned input).value (Varint.scanUnsigned input).rest).bytes ++ more =
        [] := by
    intro endless
    have truncated : Varint.scanUnsigned input = ⟨0, input, [], some .truncated⟩ := by
      simp only [Varint.scanUnsigned, Varint.scanWith, endless]
    rw [truncated] at room ⊢
    rcases room with rfl | ⟨sound, -⟩
    · rfl
    · cases sound
  have scanned : Varint.scanUnsigned ((Varint.scanUnsigned input).bytes ++
      ((window (Varint.scanUnsigned input).value (Varint.scanUnsigned input).rest).bytes ++ more)) =
        { Varint.scanUnsigned input with
          rest := (window (Varint.scanUnsigned input).value
            (Varint.scanUnsigned input).rest).bytes ++ more } :=
    Varint.scan_with_kept _ _ _ ends
  have cutting := window_kept (room.imp_right And.right)
  simp only [ofParts, Field.bytes_add, Field.bytes_of_scan, scanned, cutting]
  rfl

theorem bytes_of_parts (suite : Suite) (magic : Bytes) (stored : Checksum) (kindByte : UInt8)
    (input : Bytes) :
    bytes (ofParts suite magic stored kindByte input).1 =
      magic ++ bytes stored ++ kindByte ::
        ((ofParts suite magic stored kindByte input).1.length.bytes ++
          (ofParts suite magic stored kindByte input).1.body) := by
  have whole := of_parts_append suite magic stored kindByte input
  have covered : (ofParts suite magic stored kindByte input).1.length.bytes ++
      ((ofParts suite magic stored kindByte input).1.body ++
        (ofParts suite magic stored kindByte input).2) = input := by
    simp only [ofParts, Field.bytes_add, Field.bytes_of_scan, window_append,
      Varint.scan_unsigned_append]
  conv_rhs at whole => rw [← covered]
  rw [← List.append_assoc (Chunk.length _).bytes, ← List.cons_append, ← List.append_assoc] at whole
  exact List.append_cancel_right whole

/-- A chunk is parsed again from its bytes alone, and with anything behind it if there is nothing
wrong with its length. -/
theorem parse_kept (parsed : parse suite input = .ok (chunk, rest))
    (room : more = [] ∨ chunk.length.diagnostics = []) :
    parse suite (bytes chunk ++ more) = .ok (chunk, more) := by
  obtain ⟨m0, m1, m2, m3, stored, kindByte, covered, nonempty, parts⟩ := parse_eq_ok parsed
  have found : (ofParts suite [m0, m1, m2, m3] stored kindByte covered).1 = chunk :=
    congrArg Prod.fst parts
  subst found
  have scanned : (ofParts suite [m0, m1, m2, m3] stored kindByte covered).1.length.bytes ≠ [] :=
    Varint.scan_bytes_ne_nil nonempty
  have whole : bytes (ofParts suite [m0, m1, m2, m3] stored kindByte covered).1 ++ more =
      [m0, m1, m2, m3] ++ bytes stored ++ kindByte ::
        ((ofParts suite [m0, m1, m2, m3] stored kindByte covered).1.length.bytes ++
          ((ofParts suite [m0, m1, m2, m3] stored kindByte covered).1.body ++ more)) := by
    rw [bytes_of_parts]
    simp only [List.append_assoc, List.cons_append]
  rw [whole, parse_parts suite m0 m1 m2 m3 stored kindByte
      (List.append_ne_nil_of_left_ne_nil scanned _),
    of_parts_kept suite _ stored kindByte covered room]

end Chunk

end Chunkscope
