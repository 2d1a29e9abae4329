import Mathlib.Data.List.Basic
import Mathlib.Data.List.Induction
import Mathlib.Tactic.IntervalCases

/-!
# Decimal numerals

Digits without a zero in front are the numeral of their value, and every number has such a
numeral, so that a number that has been read is written back as it was.
-/

namespace Decimal

/-- Only zero is written with a zero in front. -/
theorem head_toDigits (n : Nat) (h : n ≠ 0) : (Nat.toDigits 10 n).head? ≠ some '0' := by
  induction n using Nat.base_induction 10 (by decide) with
  | single m hm =>
    rw [Nat.toDigits_of_lt_base hm]
    revert m
    decide
  | digit m k hk hm ih =>
    rw [← Nat.toDigits_append_toDigits (by decide) hm hk,
      List.head?_append_of_ne_nil _ Nat.toDigits_ne_nil]
    exact ih (Nat.pos_iff_ne_zero.mp hm)

theorem length_toDigits_of_head {n : Nat} (h : (Nat.toDigits 10 n).head? = some '0') :
    (Nat.toDigits 10 n).length = 1 := by
  by_cases hn : n = 0
  · rw [hn, Nat.toDigits_zero]
    rfl
  · exact absurd h (head_toDigits n hn)

theorem isDigit_toDigits (n : Nat) : ∀ c ∈ Nat.toDigits 10 n, c.isDigit = true :=
  fun _ => Nat.isDigit_of_mem_toDigits (by decide) (by decide)

theorem digitChar_of_isDigit {c : Char} (h : c.isDigit = true) :
    c.toNat - 48 < 10 ∧ Nat.digitChar (c.toNat - 48) = c := by
  have hrange : 48 ≤ c.toNat ∧ c.toNat ≤ 57 := by
    simpa [Char.isDigit, UInt32.le_iff_toNat_le] using h
  obtain ⟨n, hn⟩ : ∃ n, n = c.toNat := ⟨_, rfl⟩
  rw [← hn] at hrange ⊢
  rw [← Char.ofNat_toNat c, ← hn]
  obtain ⟨hlow, hhigh⟩ := hrange
  interval_cases n <;> decide

/-- **A numeral without a zero in front** is the numeral of its value. -/
theorem toDigits_ofDigitChars {digits : List Char} (hdigits : ∀ c ∈ digits, c.isDigit = true)
    (hne : digits ≠ []) (hzero : digits.head? = some '0' → digits.length = 1) :
    Nat.toDigits 10 (Nat.ofDigitChars 10 digits 0) = digits := by
  induction digits using List.reverseRecOn with
  | nil => exact absurd rfl hne
  | append_singleton init d ih =>
    have hd : d.toNat - 48 < 10 ∧ Nat.digitChar (d.toNat - 48) = d :=
      digitChar_of_isDigit (hdigits d (List.mem_append_right _ List.mem_cons_self))
    have hvalue : Nat.ofDigitChars 10 (init ++ [d]) 0 =
        10 * Nat.ofDigitChars 10 init 0 + (d.toNat - 48) := by
      rw [Nat.ofDigitChars_append, Nat.ofDigitChars_cons, Nat.ofDigitChars_nil]
      rfl
    rw [hvalue]
    by_cases hinit : init = []
    · subst hinit
      rw [Nat.ofDigitChars_nil, Nat.mul_zero, Nat.zero_add, Nat.toDigits_of_lt_base hd.1, hd.2,
        List.nil_append]
    · have hhead : init.head? ≠ some '0' := by
        rw [← List.head?_append_of_ne_nil _ hinit]
        intro h
        have hlength := hzero h
        rw [List.length_append, List.length_singleton] at hlength
        exact hinit (List.eq_nil_of_length_eq_zero (by omega))
      have hnumeral := ih (fun c hc => hdigits c (List.mem_append_left _ hc)) hinit
        fun h => absurd h hhead
      have hpos : 0 < Nat.ofDigitChars 10 init 0 := Nat.pos_of_ne_zero fun h => by
        rw [h] at hnumeral
        rw [← hnumeral] at hhead
        exact hhead rfl
      rw [← Nat.toDigits_append_toDigits (by decide) hpos hd.1, hnumeral,
        Nat.toDigits_of_lt_base hd.1, hd.2]

end Decimal
