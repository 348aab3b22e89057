import SpacerocksCoa.EsploraQuorum

/-!
# The proof of work of a block header

The check of an Esplora header against Bitcoin Core's own rule. Core shifts the mantissa of a
small exponent before it looks at the sign and at the overflow; the check looks at them first.
Both decide alike, because a mantissa that is shifted away leaves no target.
-/
namespace HeaderProofOfWork
open OrderStates BitcoinCore EsploraQuorum

/-! ## Bitcoin Core's rule -/

/-- The size of a compact target in bytes. -/
def compactSize (compact : Nat) : Nat := compact / 16777216

/-- The mantissa, shifted down when the size is small. -/
def compactWord (compact : Nat) : Nat :=
  if compactSize compact ≤ 3 then compact % 8388608 / 2 ^ (8 * (3 - compactSize compact))
  else compact % 8388608

/-- The number that is written, of any length. -/
def compactValue (compact : Nat) : Nat :=
  if compactSize compact ≤ 3 then compactWord compact
  else compactWord compact * 2 ^ (8 * (compactSize compact - 3))

structure CompactTarget where
  target : Nat
  negative : Bool
  overflow : Bool
  deriving DecidableEq

/-- Core's `SetCompact`: the target is a number of 256 bits. -/
def setCompact (compact : Nat) : CompactTarget where
  target := compactValue compact % 2 ^ 256
  negative := compactWord compact != 0 && compact / 8388608 % 2 == 1
  overflow := compactWord compact != 0 && (decide (34 < compactSize compact) ||
    (decide (255 < compactWord compact) && decide (33 < compactSize compact)) ||
    (decide (65535 < compactWord compact) && decide (32 < compactSize compact)))

/-- Core's `CheckProofOfWork` with the limit of the main network. -/
structure ProofOfWork (compact hash : Nat) : Prop where
  negative : (setCompact compact).negative = false
  overflow : (setCompact compact).overflow = false
  positive : 0 < (setCompact compact).target
  limit : (setCompact compact).target ≤ mainnetPowLimit
  hash : hash ≤ (setCompact compact).target

/-! ## Numbers -/

theorem word_small (compact : Nat) : compactWord compact < 2 ^ 23 := by
  have mantissa : compact % 8388608 < 2 ^ 23 := Nat.mod_lt compact (by decide)
  unfold compactWord
  split
  · exact (Nat.div_le_self _ _).trans_lt mantissa
  · exact mantissa

/-- A word times a power overflows when the word reaches what is missing. -/
theorem shifted_le_iff {word low high : Nat} (le : low ≤ high) :
    2 ^ high ≤ word * 2 ^ low ↔ 2 ^ (high - low) ≤ word := by
  have split : 2 ^ high = 2 ^ (high - low) * 2 ^ low := by
    rw [← Nat.pow_add, Nat.sub_add_cancel le]
  rw [split]
  exact Nat.mul_le_mul_right_iff (Nat.two_pow_pos low)

theorem shifted_lt {word low high : Nat} (small : word < 2 ^ 23) (room : 23 + low ≤ high) :
    word * 2 ^ low < 2 ^ high := by
  calc word * 2 ^ low < 2 ^ 23 * 2 ^ low := Nat.mul_lt_mul_of_pos_right small (Nat.two_pow_pos low)
    _ = 2 ^ (23 + low) := (Nat.pow_add 2 23 low).symm
    _ ≤ 2 ^ high := Nat.pow_le_pow_right (by decide) room

theorem value_of_small {compact : Nat} (small : compactSize compact ≤ 3) :
    compactValue compact = compactWord compact := if_pos small

theorem value_of_large {compact : Nat} (large : ¬compactSize compact ≤ 3) :
    compactValue compact = compactWord compact * 2 ^ (8 * (compactSize compact - 3)) :=
  if_neg large

/-- Core's test for an overflow is exact: it says that the number has more than 256 bits. -/
theorem overflow_iff (compact : Nat) :
    (setCompact compact).overflow = true ↔ 2 ^ 256 ≤ compactValue compact := by
  have small := word_small compact
  simp only [setCompact, Bool.and_eq_true, Bool.or_eq_true, decide_eq_true_eq, bne_iff_ne]
  by_cases short : compactSize compact ≤ 3
  · rw [value_of_small short]
    have fits : compactWord compact < 2 ^ 256 := small.trans_le (by decide)
    constructor
    · omega
    · intro large
      exact absurd fits (not_lt.2 large)
  · rw [value_of_large short]
    by_cases zero : compactWord compact = 0
    · rw [zero, Nat.zero_mul]
      constructor
      · exact fun both => absurd rfl both.1
      · exact fun none => absurd none (not_le.2 (Nat.two_pow_pos 256))
    · by_cases far : 34 < compactSize compact
      · refine iff_of_true ⟨zero, Or.inl (Or.inl far)⟩ ?_
        calc 2 ^ 256 ≤ 2 ^ (8 * (compactSize compact - 3)) :=
              Nat.pow_le_pow_right (by decide) (by omega)
          _ = 1 * 2 ^ (8 * (compactSize compact - 3)) := (Nat.one_mul _).symm
          _ ≤ compactWord compact * 2 ^ (8 * (compactSize compact - 3)) :=
            Nat.mul_le_mul_right _ (Nat.pos_of_ne_zero zero)
      · by_cases near : compactSize compact ≤ 32
        · have fits : compactWord compact * 2 ^ (8 * (compactSize compact - 3)) < 2 ^ 256 :=
            shifted_lt small (by omega)
          constructor
          · omega
          · exact fun large => absurd fits (not_lt.2 large)
        · rw [shifted_le_iff (show 8 * (compactSize compact - 3) ≤ 256 by omega)]
          have two : compactSize compact = 33 ∨ compactSize compact = 34 := by omega
          rcases two with size | size
          · rw [size, show 256 - 8 * (33 - 3) = 16 from rfl]
            omega
          · rw [size, show 256 - 8 * (34 - 3) = 8 from rfl]
            omega

example : (setCompact 0x22000100).overflow = true := by decide

theorem target_exact {compact : Nat} (fits : (setCompact compact).overflow = false) :
    (setCompact compact).target = compactValue compact := by
  refine Nat.mod_eq_of_lt (not_le.1 fun large => ?_)
  rw [(overflow_iff compact).2 large] at fits
  cases fits

/-- Among targets that do not overflow the limit is the same as Core's own, which has all its
lower bits set. -/
theorem limit_iff {compact : Nat} (fits : (setCompact compact).overflow = false) :
    (setCompact compact).target ≤ mainnetPowLimit ↔ (setCompact compact).target < 2 ^ 224 := by
  have small := word_small compact
  have below : mainnetPowLimit < 2 ^ 224 := by decide
  refine ⟨fun within => within.trans_lt below, fun within => ?_⟩
  rw [target_exact fits] at within ⊢
  by_cases short : compactSize compact ≤ 3
  · rw [value_of_small short]
    exact small.le.trans (by decide)
  · rw [value_of_large short] at within ⊢
    by_cases low : compactSize compact ≤ 28
    · have under : compactWord compact * 2 ^ (8 * (compactSize compact - 3)) < 2 ^ 223 :=
        shifted_lt small (by omega)
      exact under.le.trans (by decide)
    · by_cases zero : compactWord compact = 0
      · rw [zero, Nat.zero_mul]
        exact Nat.zero_le _
      · have size : compactSize compact < 31 := by
          by_contra far
          have beyond : 2 ^ 224 ≤ compactWord compact * 2 ^ (8 * (compactSize compact - 3)) :=
            calc 2 ^ 224 ≤ 2 ^ (8 * (compactSize compact - 3)) :=
                  Nat.pow_le_pow_right (by decide) (by omega)
              _ = 1 * 2 ^ (8 * (compactSize compact - 3)) := (Nat.one_mul _).symm
              _ ≤ compactWord compact * 2 ^ (8 * (compactSize compact - 3)) :=
                Nat.mul_le_mul_right _ (Nat.pos_of_ne_zero zero)
          exact absurd within (not_lt.2 beyond)
        have two : compactSize compact = 29 ∨ compactSize compact = 30 := by omega
        rw [← not_le, shifted_le_iff (show 8 * (compactSize compact - 3) ≤ 224 by omega)] at within
        rcases two with middle | middle
        · rw [middle] at within ⊢
          have word : compactWord compact ≤ 65535 := by
            rw [show 224 - 8 * (29 - 3) = 16 from rfl] at within
            omega
          exact Nat.mul_le_mul_right _ word
        · rw [middle] at within ⊢
          have word : compactWord compact ≤ 255 := by
            rw [show 224 - 8 * (30 - 3) = 8 from rfl] at within
            omega
          exact (Nat.mul_le_mul_right _ word).trans (by decide)

example : setCompact 0x1d00ffff = ⟨mainnetPowLimit, false, false⟩ := by decide

/-! ## The check -/

/-- The target as the check computes it. -/
theorem checked_value {compact : Nat} :
    (if compact / 16777216 ≤ 3 then compact % 8388608 / 2 ^ (8 * (3 - compact / 16777216))
      else compact % 8388608 * 2 ^ (8 * (compact / 16777216 - 3))) = compactValue compact := by
  unfold compactValue compactWord compactSize
  split <;> rfl

/-- The tests that the check makes of the bits before it shifts. -/
structure Plain (compact : Nat) : Prop where
  unsigned : ¬compact / 8388608 % 2 = 1
  mantissa : compact % 8388608 ≠ 0
  bounded : ¬(compactSize compact > 34 ∨ (compact % 8388608 > 255 ∧ compactSize compact > 33) ∨
    (compact % 8388608 > 65535 ∧ compactSize compact > 32))

theorem compactTarget_ok {compact target : Nat} :
    compactTarget compact = .ok target ↔ Plain compact ∧ compactValue compact ≠ 0 ∧
      compactValue compact ≤ mainnetPowLimit ∧ target = compactValue compact := by
  have value := @checked_value compact
  unfold compactTarget
  simp only
  rw [value]
  constructor
  · intro accepted
    split at accepted
    · cases accepted
    · next plain =>
      split at accepted
      · cases accepted
      · next bounded =>
        cases accepted
        obtain ⟨unsigned, others⟩ := not_or.1 plain
        obtain ⟨mantissa, small⟩ := not_or.1 others
        obtain ⟨positive, limit⟩ := not_or.1 bounded
        exact ⟨⟨unsigned, mantissa, fun large => small ⟨mantissa, large⟩⟩, positive,
          not_lt.1 limit, rfl⟩
  · rintro ⟨plain, positive, limit, rfl⟩
    rw [if_neg, if_neg]
    · rintro (zero | above)
      · exact positive zero
      · exact absurd limit (not_le.2 above)
    · rintro (signed | zero | large)
      · exact plain.unsigned signed
      · exact plain.mantissa zero
      · exact plain.bounded large.2

theorem word_of_large {compact : Nat} (large : ¬compactSize compact ≤ 3) :
    compactWord compact = compact % 8388608 := if_neg large

theorem word_positive {compact : Nat} (positive : compactValue compact ≠ 0) :
    compactWord compact ≠ 0 := by
  intro zero
  refine positive ?_
  unfold compactValue
  split
  · exact zero
  · rw [zero, Nat.zero_mul]

theorem mantissa_positive {compact : Nat} (positive : compactWord compact ≠ 0) :
    compact % 8388608 ≠ 0 := by
  intro zero
  refine positive ?_
  unfold compactWord
  split
  · rw [zero, Nat.zero_div]
  · exact zero

/-- Where something is left of the mantissa, both rules look at the same bits. -/
theorem plain_iff {compact : Nat} (positive : compactValue compact ≠ 0) :
    Plain compact ↔ (setCompact compact).negative = false ∧
      (setCompact compact).overflow = false := by
  have word := word_positive positive
  simp only [setCompact, bne_iff_ne.2 word, Bool.true_and, Bool.or_eq_false_iff,
    Bool.and_eq_false_iff, decide_eq_false_iff_not, beq_eq_false_iff_ne]
  constructor
  · rintro ⟨unsigned, -, bounded⟩
    refine ⟨unsigned, ?_⟩
    by_cases short : compactSize compact ≤ 3
    · omega
    · rw [word_of_large short]
      omega
  · rintro ⟨unsigned, bounded⟩
    refine ⟨unsigned, mantissa_positive word, ?_⟩
    by_cases short : compactSize compact ≤ 3
    · omega
    · rw [word_of_large short] at bounded
      omega

-- The sign bit of a mantissa that is shifted away does not count.
example : (setCompact 0x01800000).negative = false := by decide

theorem compactTarget_iff {compact target : Nat} :
    compactTarget compact = .ok target ↔ (setCompact compact).negative = false ∧
      (setCompact compact).overflow = false ∧ 0 < (setCompact compact).target ∧
      (setCompact compact).target ≤ mainnetPowLimit ∧ target = (setCompact compact).target := by
  rw [compactTarget_ok]
  constructor
  · rintro ⟨plain, positive, limit, rfl⟩
    obtain ⟨negative, overflow⟩ := (plain_iff positive).1 plain
    rw [target_exact overflow]
    exact ⟨negative, overflow, Nat.pos_of_ne_zero positive, limit, rfl⟩
  · rintro ⟨negative, overflow, positive, limit, rfl⟩
    rw [target_exact overflow] at positive limit ⊢
    exact ⟨(plain_iff positive.ne').2 ⟨negative, overflow⟩, positive.ne', limit, rfl⟩

/-- The check accepts a header exactly when Core's rule does, and returns its hash, its merkle
root and its time; Core's flag and limit stand for the two powers. -/
theorem header_accepted_iff (sha256 : Bytes → Sha256) (header : Bytes) :
    let bits := littleNumber (headerBytes header 72 76)
    let hash := (sha256 (sha256 header).value).value
    (∀ verified, verifyHeader sha256 header = .ok verified ↔
      header.length = 80 ∧ ProofOfWork bits (littleNumber hash) ∧
        verified = ⟨String.ofList (HexText.toHex hash.reverse), headerBytes header 36 68,
          secondsInstant (littleNumber (headerBytes header 68 72))⟩) ∧
      ((setCompact bits).overflow = false ↔ compactValue bits < 2 ^ 256) ∧
      ((setCompact bits).overflow = false → (setCompact bits).target = compactValue bits ∧
        ((setCompact bits).target ≤ mainnetPowLimit ↔ (setCompact bits).target < 2 ^ 224)) := by
  intro bits hash
  refine ⟨fun verified => ?_, ?_, fun fits => ⟨target_exact fits, limit_iff fits⟩⟩
  · unfold verifyHeader
    by_cases length : header.length = 80
    · rw [if_neg (not_not.2 length)]
      cases decoded : compactTarget bits with
      | error e =>
        refine iff_of_false ?_ ?_
        · intro accepted
          cases accepted
        · rintro ⟨-, work, -⟩
          rw [compactTarget_iff.2 ⟨work.negative, work.overflow, work.positive, work.limit,
            rfl⟩] at decoded
          cases decoded
      | ok target =>
        obtain ⟨negative, overflow, positive, limit, rfl⟩ := compactTarget_iff.1 decoded
        simp only
        by_cases above : (setCompact bits).target < littleNumber hash
        · rw [if_pos above]
          refine iff_of_false (fun accepted => ?_) ?_
          · cases accepted
          · rintro ⟨-, work, -⟩
            exact absurd work.hash (not_le.2 above)
        · rw [if_neg above]
          have work : ProofOfWork bits (littleNumber hash) :=
            ⟨negative, overflow, positive, limit, not_lt.1 above⟩
          constructor
          · intro accepted
            cases accepted
            exact ⟨length, work, rfl⟩
          · rintro ⟨-, -, rfl⟩
            rfl
    · rw [if_pos length]
      refine iff_of_false (fun accepted => ?_) fun both => length both.1
      cases accepted
  · rw [← Bool.not_eq_true, overflow_iff, not_le]

end HeaderProofOfWork
