import MagicContext.Claims.Contract
import MagicContext.Lib.Decimal

/-!
# Revision locators

A revision is named by one text only: what has been parsed is written back as it was, and what has
been written is parsed to what it names.
-/

namespace MagicContext.Claims

open Text

def formatRevisionLocator (locator : RevisionLocator) : Option String :=
  if !isValidPublicClaimId locator.publicClaimId ||
      !decide (1 ≤ locator.revision ∧ locator.revision ≤ maxSafeInteger) ||
      !isLowerHex locator.contentDigest 64 then none
  else some (locator.publicClaimId ++ "/r" ++ toString locator.revision ++ "/" ++
    locator.contentDigest)

/-! ## The parts -/

theorem slash_of_isLowerHex {text : String} {length : Nat} (h : isLowerHex text length = true) :
    '/' ∉ text.toList := by
  intro hslash
  rw [isLowerHex, Bool.and_eq_true, List.all_eq_true] at h
  exact absurd (h.2 '/' hslash) (by decide)

theorem slash_of_isValidPublicClaimId {candidate : String}
    (h : isValidPublicClaimId candidate = true) : '/' ∉ candidate.toList := by
  rw [isValidPublicClaimId, Bool.and_eq_true, String.startsWith_string_iff] at h
  obtain ⟨rest, hrest⟩ := h.1
  have hhex := slash_of_isLowerHex h.2
  rw [String.toList_ofList, ← hrest] at hhex
  rw [← hrest, List.mem_append, not_or]
  exact ⟨by decide, hhex⟩

/-- The second part of a locator is an `r` and the numeral of the revision. -/
theorem parseRevision_eq_some {part : List Char} {revision : Int} :
    parseRevision part = some revision ↔ (1 ≤ revision ∧ revision ≤ maxSafeInteger) ∧
      part = 'r' :: Nat.toDigits 10 revision.toNat := by
  constructor
  · intro h
    unfold parseRevision at h
    split at h
    · rename_i digits
      split at h
      · cases h
      · rename_i hform
        simp only [Bool.or_eq_true, List.isEmpty_iff, beq_iff_eq, Bool.not_eq_true', not_or,
          Bool.not_eq_false, List.all_eq_true] at hform
        have hvalue : digitsValue digits = Nat.ofDigitChars 10 digits 0 :=
          Nat.ofDigitChars_eq_foldl.symm
        dsimp only at h
        split at h
        · rename_i hrange
          cases h
          refine ⟨hrange, congrArg _ ?_⟩
          rw [Int.toNat_natCast, hvalue]
          exact (Decimal.toDigits_ofDigitChars hform.2 hform.1.1
            fun hzero => absurd hzero hform.1.2).symm
        · cases h
    · cases h
  · rintro ⟨hrange, rfl⟩
    have hpositive : revision.toNat ≠ 0 := by omega
    have hform : ((Nat.toDigits 10 revision.toNat).isEmpty ||
        (Nat.toDigits 10 revision.toNat).head? == some '0' ||
        !(Nat.toDigits 10 revision.toNat).all isAsciiDigit) = false := by
      rw [Bool.or_eq_false_iff, Bool.or_eq_false_iff, Bool.not_eq_false', List.all_eq_true]
      exact ⟨⟨by simp [Nat.toDigits_ne_nil],
        beq_eq_false_iff_ne.mpr (Decimal.head_toDigits _ hpositive)⟩,
        Decimal.isDigit_toDigits _⟩
    have hvalue : (digitsValue (Nat.toDigits 10 revision.toNat) : Int) = revision := by
      rw [show digitsValue (Nat.toDigits 10 revision.toNat) = revision.toNat from
        Nat.ofDigitChars_eq_foldl.symm.trans Nat.ofDigitChars_ten_toDigits]
      omega
    rw [parseRevision, hform]
    simp only [Bool.false_eq_true, if_false, hvalue]
    exact if_pos hrange

/-! ## Locators -/

/-- What a locator that is written is made of. -/
theorem toList_locator (locator : RevisionLocator) (h : 1 ≤ locator.revision) :
    (locator.publicClaimId ++ "/r" ++ toString locator.revision ++ "/" ++
      locator.contentDigest).toList =
      ['/'].intercalate [locator.publicClaimId.toList,
        'r' :: Nat.toDigits 10 locator.revision.toNat, locator.contentDigest.toList] := by
  have hrevision : (toString locator.revision).toList = Nat.toDigits 10 locator.revision.toNat := by
    obtain ⟨n, hn⟩ := Int.eq_ofNat_of_zero_le (show 0 ≤ locator.revision by omega)
    rw [hn]
    exact Nat.toList_repr
  simp only [String.toList_append, hrevision]
  simp [List.intercalate, List.intersperse]

/-- **The two are inverse**: a text is parsed to a locator exactly when the locator is written as
that text. -/
theorem parseRevisionLocator_eq_some_iff (raw : String) (locator : RevisionLocator) :
    parseRevisionLocator raw = some locator ↔ formatRevisionLocator locator = some raw := by
  have hformat : formatRevisionLocator locator = some raw ↔
      (isValidPublicClaimId locator.publicClaimId = true ∧
        (1 ≤ locator.revision ∧ locator.revision ≤ maxSafeInteger) ∧
        isLowerHex locator.contentDigest 64 = true) ∧
      raw.toList = ['/'].intercalate [locator.publicClaimId.toList,
        'r' :: Nat.toDigits 10 locator.revision.toNat, locator.contentDigest.toList] := by
    rw [formatRevisionLocator]
    split
    · rename_i h
      refine iff_of_false (by simp) ?_
      rintro ⟨⟨hid, hrange, hdigest⟩, -⟩
      rw [hid, hdigest] at h
      simp [hrange] at h
    · rename_i h
      simp only [Bool.or_eq_true, Bool.not_eq_true', decide_eq_false_iff_not, not_or, not_not,
        Bool.not_eq_false] at h
      rw [Option.some.injEq, ← toList_locator locator h.1.2.1, String.toList_inj]
      exact ⟨fun heq => ⟨⟨h.1.1, h.1.2, h.2⟩, heq.symm⟩, fun heq => heq.2.symm⟩
  rw [hformat, parseRevisionLocator]
  constructor
  · intro h
    have hraw := @List.intercalate_splitOn _ raw.toList _ _ '/'
    split at h
    · rename_i publicClaimId revisionPart contentDigest hsplit
      rw [hsplit] at hraw
      split at h
      · cases h
      · rename_i hid
        split at h
        · cases h
        · rename_i revision hrevision
          obtain ⟨hrange, rfl⟩ := parseRevision_eq_some.mp hrevision
          split at h
          · cases h
          · rename_i hdigest
            cases h
            refine ⟨⟨by simpa using hid, hrange, by simpa using hdigest⟩, ?_⟩
            rw [String.toList_ofList, String.toList_ofList, hraw]
    · cases h
  · rintro ⟨⟨hid, hrange, hdigest⟩, hraw⟩
    have hparts : raw.toList.splitOn '/' = [locator.publicClaimId.toList,
        'r' :: Nat.toDigits 10 locator.revision.toNat, locator.contentDigest.toList] := by
      rw [hraw, List.splitOn_intercalate '/' ?_ (List.cons_ne_nil _ _)]
      intro part hpart
      simp only [List.mem_cons, List.not_mem_nil, or_false] at hpart
      rcases hpart with rfl | rfl | rfl
      · exact slash_of_isValidPublicClaimId hid
      · rw [List.mem_cons, not_or]
        exact ⟨by decide, fun hslash => absurd (Decimal.isDigit_toDigits _ _ hslash) (by decide)⟩
      · exact slash_of_isLowerHex hdigest
    rw [hparts]
    simp only [String.ofList_toList, hid, Bool.not_true, Bool.false_eq_true, if_false,
      parseRevision_eq_some.mpr ⟨hrange, rfl⟩, hdigest]

example : parseRevision "r007".toList = none := by decide

end MagicContext.Claims
