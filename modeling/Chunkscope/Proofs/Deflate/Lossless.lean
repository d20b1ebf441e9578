import Mathlib.Algebra.Group.Nat.Defs
import Chunkscope.Chunk.Kind

/-!
# What is compressed can be inflated again

The encoder keeps a compressed block only when it reads back, so all that is left to show is that
stored blocks do. Each of them starts at a whole byte behind three bits of its header, and its
length stands next to its complement.
-/

namespace Chunkscope

namespace Deflate

theorem number_of_append (low high : List Bool) :
    numberOf (low ++ high) = numberOf low + 2 ^ low.length * numberOf high := by
  induction low with
  | nil => simp [numberOf]
  | cons bit low induction =>
      have step (bits : List Bool) : numberOf (bit :: bits) = bit.toNat + 2 * numberOf bits := rfl
      rw [List.cons_append, step, step, induction, List.length_cons, Nat.pow_succ', Nat.mul_add,
        Nat.mul_assoc, Nat.add_assoc]

theorem number_of_bits (count value : Nat) :
    numberOf (numberBits count value) = value % 2 ^ count := by
  induction count with
  | zero => simp [numberBits, numberOf, Nat.mod_one]
  | succ count induction =>
      have split : numberBits (count + 1) value = numberBits count value ++ [value.testBit count] := by
        simp [numberBits, List.range_succ]
      rw [split, number_of_append, induction, Nat.mod_pow_succ, ← Nat.toNat_testBit]
      simp [numberBits, numberOf]

@[simp] theorem number_bits_length (count value : Nat) :
    (numberBits count value).length = count := by
  simp [numberBits]

@[simp] theorem to_bits_cons (byte : UInt8) (input : Bytes) :
    toBits (byte :: input) = numberBits 8 byte.toNat ++ toBits input := rfl

theorem to_bits_length (input : Bytes) : (toBits input).length = 8 * input.length := by
  induction input with
  | nil => rfl
  | cons byte input induction =>
      rw [to_bits_cons, List.length_append, number_bits_length, induction, List.length_cons]
      omega

theorem byte_of_bits (byte : UInt8) : numberOf (numberBits 8 byte.toNat) = byte.toNat := by
  rw [number_of_bits]
  exact Nat.mod_eq_of_lt byte.toNat_lt

theorem read_number_append {count : Nat} {taken : List Bool} (size : taken.length = count)
    (rest : List Bool) : readNumber count (taken ++ rest) = .ok (numberOf taken, rest) := by
  subst size
  simp [readNumber]

/-- A number of two bytes, the low one first. -/
theorem read_word (low high : UInt8) (rest : Bytes) :
    readNumber 16 (toBits (low :: high :: rest)) =
      .ok (low.toNat + 256 * high.toNat, toBits rest) := by
  have place : 2 ^ 8 = 256 := by decide
  rw [to_bits_cons, to_bits_cons, ← List.append_assoc, read_number_append (by simp),
    number_of_append, byte_of_bits, byte_of_bits, number_bits_length, place]

theorem read_word_of_numbers {low high : Nat} (lowFits : low < 256) (highFits : high < 256)
    (rest : Bytes) :
    readNumber 16 (toBits (UInt8.ofNat low :: UInt8.ofNat high :: rest)) =
      .ok (low + 256 * high, toBits rest) := by
  rw [read_word, UInt8.toNat_ofNat_of_lt' lowFits, UInt8.toNat_ofNat_of_lt' highFits]

theorem read_bytes_onto (done : Array UInt8) (block rest : Bytes) :
    readBytesOnto done block.length (toBits (block ++ rest)) =
      .ok (done ++ block.toArray, toBits rest) := by
  induction block generalizing done with
  | nil => simp [readBytesOnto]
  | cons byte block induction =>
      rw [List.cons_append, List.length_cons, readBytesOnto, to_bits_cons,
        read_number_append (number_bits_length 8 _)]
      simp only [byte_of_bits, UInt8.ofNat_toNat, induction]
      congr 2
      rw [List.push_append_toArray]

/-- The two numbers before the bytes of a stored block. -/
def sizeBytes (size : Nat) : Bytes :=
  [UInt8.ofNat (size % 256), UInt8.ofNat (size / 256), UInt8.ofNat (255 - size % 256),
    UInt8.ofNat (255 - size / 256)]

/-- Whatever is left of the header's byte is skipped. -/
theorem read_stored_block {padding : List Bool} (short : padding.length < 8) {block : Bytes}
    (small : block.length ≤ 65535) (output : Array UInt8) (rest : Bytes) :
    readStored (padding ++ toBits (sizeBytes block.length ++ (block ++ rest))) output =
      .ok (output ++ block.toArray, toBits rest) := by
  have aligned : (padding ++ toBits (sizeBytes block.length ++ (block ++ rest))).length % 8 =
      padding.length := by
    rw [List.length_append, to_bits_length]
    omega
  have size : block.length % 256 + 256 * (block.length / 256) = block.length := by omega
  have complement : block.length +
      (255 - block.length % 256 + 256 * (255 - block.length / 256)) = 65535 := by omega
  rw [readStored, aligned, List.drop_left, sizeBytes, List.cons_append, List.cons_append,
    read_word_of_numbers (by omega) (by omega), size]
  dsimp only [bind, Except.bind]
  rw [List.cons_append, List.cons_append, List.nil_append,
    read_word_of_numbers (by omega) (by omega)]
  dsimp only
  rw [if_pos complement, read_bytes_onto]

/-- The bits of a stored block's first byte: whether it is the final one, the kind, and padding. -/
theorem header_bits (final : Bool) :
    numberBits 8 (UInt8.ofNat final.toNat).toNat =
      [final] ++ ([false, false] ++ List.replicate 5 false) := by
  cases final <;> decide

theorem read_blocks_stored (steps : Nat) (final : Bool) {block : Bytes}
    (small : block.length ≤ 65535) (output : Array UInt8) (rest : Bytes) :
    readBlocks (steps + 1) (toBits (storedBlock final block ++ rest)) output =
      if final then .ok (output ++ block.toArray)
      else readBlocks steps (toBits rest) (output ++ block.toArray) := by
  have whole : toBits (storedBlock final block ++ rest) =
      [final] ++ ([false, false] ++
        (List.replicate 5 false ++ toBits (sizeBytes block.length ++ (block ++ rest)))) := by
    rw [storedBlock, List.cons_append, List.cons_append, to_bits_cons, header_bits]
    rfl
  rw [readBlocks, whole, read_number_append (show [final].length = 1 from rfl)]
  dsimp only
  rw [read_number_append (show [false, false].length = 2 from rfl)]
  dsimp only
  rw [show numberOf [false, false] = 0 from rfl]
  simp only [readBlock]
  rw [read_stored_block (by simp) small]
  cases final <;> rfl

theorem read_blocks_of_stored (input : Bytes) (steps : Nat) (output : Array UInt8)
    (enough : (stored input).length ≤ steps) :
    readBlocks steps (toBits (stored input)) output = .ok (output ++ input.toArray) := by
  fun_induction stored input generalizing steps output with
  | case1 input small =>
      obtain ⟨steps, rfl⟩ : ∃ fewer, steps = fewer + 1 :=
        Nat.exists_eq_succ_of_ne_zero (by simp [storedBlock] at enough; omega)
      have block := read_blocks_stored steps true small output []
      rwa [List.append_nil, if_pos rfl] at block
  | case2 input large induction =>
      have size : (input.take 65535).length = 65535 := by
        rw [List.length_take]
        omega
      rw [List.length_append] at enough
      obtain ⟨steps, rfl⟩ : ∃ fewer, steps = fewer + 1 :=
        Nat.exists_eq_succ_of_ne_zero (by simp [storedBlock] at enough; omega)
      have later : (stored (input.drop 65535)).length ≤ steps := by
        simp only [storedBlock, List.length_append, List.length_cons] at enough
        omega
      rw [read_blocks_stored steps false (by omega), if_neg (by simp), induction _ _ later,
        Array.append_assoc, List.append_toArray (input.take 65535), List.take_append_drop]

theorem inflate_stored (input : Bytes) : inflate (stored input) = .ok input := by
  have enough : (stored input).length ≤ (toBits (stored input)).length + 1 := by
    rw [to_bits_length]
    omega
  rw [inflate, read_blocks_of_stored input _ _ enough]
  simp [Except.map]

theorem inflate_deflate (input : Bytes) : inflate (deflate input) = .ok input := by
  rw [deflate]
  cases reading : inflate (fixedBlock input) with
  | error fault => exact inflate_stored input
  | ok output =>
      dsimp only
      split
      · next kept =>
          simp only [Bool.and_eq_true, beq_iff_eq] at kept
          rw [reading, kept.1]
      · exact inflate_stored input

theorem stored_length_le (input : Bytes) :
    (stored input).length ≤ input.length + 5 * (input.length / 65535 + 1) := by
  fun_induction stored input with
  | case1 input small =>
      simp only [storedBlock, List.length_append, List.length_cons, List.length_nil]
      omega
  | case2 input large induction =>
      simp only [storedBlock, List.length_append, List.length_cons, List.length_nil,
        List.length_take, List.length_drop] at induction ⊢
      omega

/-- Compression adds at most the headers of stored blocks. -/
theorem deflate_length_le (input : Bytes) :
    (deflate input).length ≤ input.length + 5 * (input.length / 65535 + 1) := by
  have plain := stored_length_le input
  rw [deflate]
  cases inflate (fixedBlock input) with
  | error fault => exact plain
  | ok output =>
      dsimp only
      split
      · next kept =>
          simp only [Bool.and_eq_true, decide_eq_true_eq] at kept
          omega
      · exact plain

end Deflate

/-- The suite that chunks are made with loses nothing. -/
theorem Suite.standard_lossless : Suite.standard.Lossless := by
  intro input
  have inverse := Deflate.inflate_deflate input
  simp only [Suite.standard, inverse]

/-- Bytes that fit in memory are compressed to bytes that a 64-bit length can count. -/
theorem Suite.standard_deflate_length_lt {input : Bytes} (fits : input.length < 2 ^ 63) :
    (Suite.standard.deflate input).length < 2 ^ 64 := by
  have bound := Deflate.deflate_length_le input
  simp only [Suite.standard]
  omega

end Chunkscope
