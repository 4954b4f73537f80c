import LendingSim.Perform.Swap

/-!
# Reading swap amounts from a payload

A swap may carry its two amounts as 32-byte big-endian words at given offsets of a payload. The
end of each word is computed as a 64-bit machine sum that is refused where it wraps, and the
word is then read as a range that must lie inside the payload.

The big-endian layout is first shown to be a bijection between byte strings of a width `w` and
the numbers below `256 ^ w` (`toNatBE_ofNatBE`, `ofNatBE_toNatBE`). The main statement,
`swapPayload_reads_addressed_words`, then says that for every payload that fits in memory and
all offsets, however large, the amounts are read exactly when both words lie inside; that the
amounts read are the numbers whose big-endian words are the bytes at the offsets; and that a
failure names the first offset whose word does not fit, with the length of the payload.
-/

namespace LendingSim

namespace Bytes

/-- The place value of one more byte. -/
theorem pow256_succ (n : Nat) : Nat.pow 256 (n + 1) = Nat.pow 256 n * 256 := rfl

theorem pow256_pos (n : Nat) : 0 < Nat.pow 256 n := Nat.pow_pos (by decide)

/-- A word's 32 bytes span the whole range of a 256-bit word. -/
theorem pow256_width : Nat.pow 256 32 = UInt256.size := by decide

/-- Reading on from an accumulator shifts it past the bytes still to be read. -/
theorem foldl_toNatBE (bytes : List UInt8) (acc : Nat) :
    bytes.foldl (fun acc b => acc * 256 + b.toNat) acc =
      acc * Nat.pow 256 bytes.length + toNatBE bytes := by
  induction bytes generalizing acc with
  | nil => simp [toNatBE]
  | cons b bytes ih =>
    have hnext := ih (acc * 256 + b.toNat)
    have hfirst := ih (0 * 256 + b.toNat)
    simp only [toNatBE, List.foldl_cons, List.length_cons] at hnext hfirst ⊢
    rw [hnext, hfirst, pow256_succ]
    grind

@[simp]
theorem toNatBE_nil : toNatBE [] = 0 := rfl

/-- The leading byte counts once for every byte after it. -/
theorem toNatBE_cons (b : UInt8) (bytes : List UInt8) :
    toNatBE (b :: bytes) = b.toNat * Nat.pow 256 bytes.length + toNatBE bytes := by
  have h := foldl_toNatBE bytes (0 * 256 + b.toNat)
  simpa only [toNatBE, List.foldl_cons, Nat.zero_mul, Nat.zero_add] using h

theorem toNatBE_lt (bytes : List UInt8) : toNatBE bytes < Nat.pow 256 bytes.length := by
  induction bytes with
  | nil => simp
  | cons b bytes ih =>
    have hb : b.toNat < 256 := b.toNat_lt
    rw [toNatBE_cons, List.length_cons, pow256_succ]
    calc b.toNat * Nat.pow 256 bytes.length + toNatBE bytes
        < b.toNat * Nat.pow 256 bytes.length + Nat.pow 256 bytes.length := by omega
      _ = (b.toNat + 1) * Nat.pow 256 bytes.length := by rw [Nat.succ_mul]
      _ ≤ 256 * Nat.pow 256 bytes.length := Nat.mul_le_mul_right _ hb
      _ = Nat.pow 256 bytes.length * 256 := Nat.mul_comm _ _

@[simp]
theorem length_ofNatBE (width n : Nat) : (ofNatBE width n).length = width := by
  simp [ofNatBE]

/-- A wider word puts the next byte up in front. -/
theorem ofNatBE_succ (width n : Nat) :
    ofNatBE (width + 1) n = (n / Nat.pow 256 width % 256).toUInt8 :: ofNatBE width n := by
  simp [ofNatBE, List.range_succ]

/-- Writing a number in `width` bytes and reading it back gives it modulo `256 ^ width`. -/
theorem toNatBE_ofNatBE (width n : Nat) :
    toNatBE (ofNatBE width n) = n % Nat.pow 256 width := by
  induction width with
  | zero => simp [ofNatBE, Nat.mod_one]
  | succ width ih =>
    have hdigit : (n / Nat.pow 256 width % 256).toUInt8.toNat = n / Nat.pow 256 width % 256 := by
      simp
    rw [ofNatBE_succ, toNatBE_cons, length_ofNatBE, ih, hdigit]
    have hsplit := Nat.mod_pow_succ (x := n) (b := 256) (k := width)
    simp only [Nat.pow_eq] at hsplit ⊢
    rw [hsplit, Nat.mul_comm, Nat.add_comm]

/-- Byte strings of one width with one value are equal. -/
theorem eq_of_toNatBE_eq {xs ys : List UInt8} (hlen : xs.length = ys.length)
    (h : toNatBE xs = toNatBE ys) : xs = ys := by
  induction xs generalizing ys with
  | nil => exact (List.length_eq_zero_iff.mp hlen.symm).symm
  | cons x xs ih =>
    cases ys with
    | nil => simp at hlen
    | cons y ys =>
      have hrest : xs.length = ys.length := by simpa using hlen
      rw [toNatBE_cons, toNatBE_cons, hrest] at h
      have hxs := toNatBE_lt xs
      have hys := toNatBE_lt ys
      rw [hrest] at hxs
      have hquot : ∀ (b : UInt8) (rest : List UInt8), toNatBE rest < Nat.pow 256 ys.length →
          (b.toNat * Nat.pow 256 ys.length + toNatBE rest) / Nat.pow 256 ys.length = b.toNat := by
        intro b rest hrest
        rw [Nat.add_comm, Nat.add_mul_div_right _ _ (pow256_pos _), Nat.div_eq_of_lt hrest,
          Nat.zero_add]
      have hlead : x.toNat = y.toNat := by
        rw [← hquot x xs hxs, ← hquot y ys hys, h]
      have htail : toNatBE xs = toNatBE ys := by
        rw [hlead] at h
        exact Nat.add_left_cancel h
      rw [UInt8.toNat_inj.mp hlead, ih hrest htail]

/-- Reading a byte string and writing the value back in its width gives the byte string. -/
theorem ofNatBE_toNatBE (bytes : List UInt8) : ofNatBE bytes.length (toNatBE bytes) = bytes := by
  apply eq_of_toNatBE_eq (length_ofNatBE _ _)
  rw [toNatBE_ofNatBE, Nat.mod_eq_of_lt (toNatBE_lt bytes)]

end Bytes

namespace Perform

section Payload

variable {data : List UInt8} {offset : Nat}

/-- The end of a word wraps only past the largest machine word, which no payload held in memory
reaches: the word is read exactly when it lies inside. -/
theorem readWord_eq (hlen : data.length < Nat.pow 2 64) :
    readWord data offset =
      if offset + 32 ≤ data.length then
        .ok (UInt256.ofNat (Bytes.toNatBE ((data.drop offset).take 32)))
      else .error (.malformedSwapPayload offset data.length) := by
  unfold readWord wordEnd? Bytes.slice?
  by_cases hin : offset + 32 ≤ data.length
  · have hfits : offset + 32 < Nat.pow 2 64 := Nat.lt_of_le_of_lt hin hlen
    simp [hin, hfits]
  · by_cases hfits : offset + 32 < Nat.pow 2 64 <;> simp [hin, hfits]

/-- The bytes at `offset` are the number's big-endian word exactly when the word lies inside
and reads as that number. -/
theorem readWord_eq_ok_iff (hlen : data.length < Nat.pow 2 64) (v : UInt256) :
    readWord data offset = .ok v ↔ Bytes.ofNatBE 32 v.toNat = (data.drop offset).take 32 := by
  rw [readWord_eq hlen]
  constructor
  · intro h
    split at h
    · next hin =>
      cases h
      have hwidth : ((data.drop offset).take 32).length = 32 := by simp; omega
      have hvalue := Bytes.toNatBE_lt ((data.drop offset).take 32)
      rw [hwidth, Bytes.pow256_width] at hvalue
      have hround := Bytes.ofNatBE_toNatBE ((data.drop offset).take 32)
      rw [hwidth] at hround
      rw [UInt256.toNat_ofNat_of_lt hvalue, hround]
    · cases h
  · intro h
    have hwidth := congrArg List.length h
    simp only [Bytes.length_ofNatBE, List.length_take, List.length_drop] at hwidth
    rw [if_pos (by omega), ← h, Bytes.toNatBE_ofNatBE, Bytes.pow256_width,
      Nat.mod_eq_of_lt v.isLt]
    exact congrArg Except.ok (UInt256.ext (UInt256.toNat_ofNat_of_lt v.isLt))

theorem readWord_eq_error_iff (hlen : data.length < Nat.pow 2 64) (err : InputError) :
    readWord data offset = .error err ↔
      data.length < offset + 32 ∧ err = .malformedSwapPayload offset data.length := by
  rw [readWord_eq hlen]
  split
  · next hin => simp; omega
  · next hin => simp [Nat.lt_of_not_le hin, eq_comm]

theorem exists_readWord_eq_ok_iff (hlen : data.length < Nat.pow 2 64) :
    (∃ v, readWord data offset = .ok v) ↔ offset + 32 ≤ data.length := by
  rw [readWord_eq hlen]
  by_cases hin : offset + 32 ≤ data.length <;> simp [hin]

/-- The exact amount is read first: the quoted one is read only when it succeeds. -/
theorem swapAmounts_payload_eq_ok_iff {exactOffset quotedOffset : Nat} (exact quoted : UInt256) :
    swapAmounts (.payload data exactOffset quotedOffset) = .ok (exact, quoted) ↔
      readWord data exactOffset = .ok exact ∧ readWord data quotedOffset = .ok quoted := by
  cases he : readWord data exactOffset <;> cases hq : readWord data quotedOffset <;>
    simp [swapAmounts, he, hq, bind, Except.bind, pure, Except.pure]

theorem swapAmounts_payload_eq_error_iff {exactOffset quotedOffset : Nat} (err : InputError) :
    swapAmounts (.payload data exactOffset quotedOffset) = .error err ↔
      readWord data exactOffset = .error err ∨
        ((∃ exact, readWord data exactOffset = .ok exact) ∧
          readWord data quotedOffset = .error err) := by
  cases he : readWord data exactOffset <;> cases hq : readWord data quotedOffset <;>
    simp [swapAmounts, he, hq, bind, Except.bind, pure, Except.pure]

end Payload

end Perform

open Perform

/-- For every payload that fits in memory and all offsets: the two amounts are read exactly when
both words lie inside the payload, as the numbers of the 32 big-endian bytes at the offsets, and a
failure names the first offset whose word does not fit, with the payload's length. -/
theorem swapPayload_reads_addressed_words (data : List UInt8) (exactOffset quotedOffset : Nat)
    (hlen : data.length < Nat.pow 2 64) :
    ((∃ amounts, swapAmounts (.payload data exactOffset quotedOffset) = .ok amounts) ↔
      exactOffset + 32 ≤ data.length ∧ quotedOffset + 32 ≤ data.length) ∧
    (∀ exact quoted,
      swapAmounts (.payload data exactOffset quotedOffset) = .ok (exact, quoted) ↔
        Bytes.ofNatBE 32 exact.toNat = (data.drop exactOffset).take 32 ∧
        Bytes.ofNatBE 32 quoted.toNat = (data.drop quotedOffset).take 32) ∧
    (∀ err, swapAmounts (.payload data exactOffset quotedOffset) = .error err ↔
      (data.length < exactOffset + 32 ∧ err = .malformedSwapPayload exactOffset data.length) ∨
      (exactOffset + 32 ≤ data.length ∧ data.length < quotedOffset + 32 ∧
        err = .malformedSwapPayload quotedOffset data.length)) := by
  refine ⟨?_, ?_, ?_⟩
  · constructor
    · rintro ⟨⟨exact, quoted⟩, h⟩
      obtain ⟨he, hq⟩ := (swapAmounts_payload_eq_ok_iff exact quoted).mp h
      exact ⟨(exists_readWord_eq_ok_iff hlen).mp ⟨_, he⟩,
        (exists_readWord_eq_ok_iff hlen).mp ⟨_, hq⟩⟩
    · rintro ⟨he, hq⟩
      obtain ⟨exact, he⟩ := (exists_readWord_eq_ok_iff hlen).mpr he
      obtain ⟨quoted, hq⟩ := (exists_readWord_eq_ok_iff hlen).mpr hq
      exact ⟨(exact, quoted), (swapAmounts_payload_eq_ok_iff exact quoted).mpr ⟨he, hq⟩⟩
  · intro exact quoted
    rw [swapAmounts_payload_eq_ok_iff, readWord_eq_ok_iff hlen, readWord_eq_ok_iff hlen]
  · intro err
    rw [swapAmounts_payload_eq_error_iff, readWord_eq_error_iff hlen, readWord_eq_error_iff hlen,
      exists_readWord_eq_ok_iff hlen]

/-- The payload of a trade of `10 ^ 18` for a quote of `3 * 10 ^ 9`, both words after a
four-byte selector: both amounts read back, a quoted word that runs past the end is refused at
its offset, and so is an exact word at the largest machine word, whose end would wrap. -/
theorem swapPayload_reads_selector_payload :
    let data : List UInt8 := [0xab, 0xab, 0xab, 0xab] ++ Bytes.ofNatBE 32 1000000000000000000 ++
      Bytes.ofNatBE 32 3000000000
    data.length < Nat.pow 2 64 ∧
      swapAmounts (.payload data 4 36) =
        .ok (UInt256.ofNat 1000000000000000000, UInt256.ofNat 3000000000) ∧
      swapAmounts (.payload data 4 50) = .error (.malformedSwapPayload 50 68) ∧
      swapAmounts (.payload data 18446744073709551615 3) =
        .error (.malformedSwapPayload 18446744073709551615 68) := by
  intro data
  have hlen : data.length < Nat.pow 2 64 := by decide
  obtain ⟨-, hvalues, -⟩ := swapPayload_reads_addressed_words data 4 36 hlen
  obtain ⟨-, -, hpast⟩ := swapPayload_reads_addressed_words data 4 50 hlen
  obtain ⟨-, -, hwraps⟩ :=
    swapPayload_reads_addressed_words data 18446744073709551615 3 hlen
  exact ⟨hlen, (hvalues _ _).mpr ⟨by decide, by decide⟩,
    (hpast _).mpr (.inr ⟨by decide, by decide, rfl⟩), (hwraps _).mpr (.inl ⟨by decide, rfl⟩)⟩

end LendingSim
