import SfcCheck.Text.Encoding

/-!
# Texts in UTF-8

A character is read back from its bytes, whatever follows them, so a text is read back from its
encoding. This holds of the strict reader and of the one for bodies, which lets surrogates through,
as no character is a surrogate.
-/

namespace SfcCheck.Text

variable {step : UInt8 → List UInt8 → Step} {cs : List Char}

/-! ## One character -/

/-- A step reads a character back from its bytes. -/
def ReadsBack (step : UInt8 → List UInt8 → Step) (c : Char) : Prop :=
  ∃ b bs, utf8Char c = b :: bs ∧ ∀ rest, step b (bs ++ rest) = .ok (c, bs.length)

theorem toNat_toUInt8 {n : Nat} (h : n < 256) : n.toUInt8.toNat = n := by
  simp only [Nat.toUInt8, UInt8.toNat_ofNat']
  omega

theorem isContinuation_tail (n : Nat) : isContinuation (0x80 + n % 64).toUInt8 = true := by
  simp only [isContinuation, beq_iff_eq, toNat_toUInt8 (n := 0x80 + n % 64) (by omega)]
  omega

/-- A character is no surrogate and not above U+10FFFF. -/
theorem char_bounds (c : Char) : c.toNat < 0xd800 ∨ 0xe000 ≤ c.toNat ∧ c.toNat < 0x110000 := by
  have hvalid : c.toNat.isValidChar := c.valid
  simp only [Nat.isValidChar] at hvalid
  omega

section Steps

variable {a b c d : UInt8}

theorem utf8Step_two (ha : 0xc2 ≤ a.toNat ∧ a.toNat < 0xe0) (hb : secondAllowed a b = true)
    (rest : List UInt8) : utf8Step a (b :: rest) =
      .ok (Char.ofNat ((a.toNat - 0xc0) * 64 + b.toNat % 64), 1) := by
  have hascii : ¬ a.toNat < 0x80 := by omega
  have hstart : ¬ (a.toNat < 0xc2 ∨ 0xf5 ≤ a.toNat) := by omega
  simp [utf8Step, hascii, hstart, hb, ha.2]

theorem utf8Step_three (ha : 0xe0 ≤ a.toNat ∧ a.toNat < 0xf0) (hb : secondAllowed a b = true)
    (hc : isContinuation c = true) (rest : List UInt8) : utf8Step a (b :: c :: rest) =
      .ok (Char.ofNat ((a.toNat - 0xe0) * 4096 + b.toNat % 64 * 64 + c.toNat % 64), 2) := by
  have hascii : ¬ a.toNat < 0x80 := by omega
  have hstart : ¬ (a.toNat < 0xc2 ∨ 0xf5 ≤ a.toNat) := by omega
  have htwo : ¬ a.toNat < 0xe0 := by omega
  simp [utf8Step, hascii, hstart, htwo, hb, hc, ha.2]

theorem utf8Step_four (ha : 0xf0 ≤ a.toNat ∧ a.toNat < 0xf5) (hb : secondAllowed a b = true)
    (hc : isContinuation c = true) (hd : isContinuation d = true) (rest : List UInt8) :
    utf8Step a (b :: c :: d :: rest) =
      .ok (Char.ofNat ((a.toNat - 0xf0) * 262144 + b.toNat % 64 * 4096 + c.toNat % 64 * 64 +
        d.toNat % 64), 3) := by
  have hascii : ¬ a.toNat < 0x80 := by omega
  have hstart : ¬ (a.toNat < 0xc2 ∨ 0xf5 ≤ a.toNat) := by omega
  have htwo : ¬ a.toNat < 0xe0 := by omega
  have hthree : ¬ a.toNat < 0xf0 := by omega
  simp [utf8Step, hascii, hstart, htwo, hthree, hb, hc, hd]

theorem secondAllowed_iff : secondAllowed a b = true ↔ isContinuation b = true ∧
    ¬ (a.toNat = 0xe0 ∧ b.toNat < 0xa0) ∧ ¬ (a.toNat = 0xed ∧ 0xa0 ≤ b.toNat) ∧
    ¬ (a.toNat = 0xf0 ∧ b.toNat < 0x90) ∧ ¬ (a.toNat = 0xf4 ∧ 0x90 ≤ b.toNat) := by
  simp only [secondAllowed, Bool.and_eq_true, Bool.not_eq_true', Bool.and_eq_false_iff,
    beq_eq_false_iff_ne, decide_eq_false_iff_not]
  grind

end Steps

theorem readsBack_utf8Step (c : Char) : ReadsBack utf8Step c := by
  have hbounds := char_bounds c
  have hchar : Char.ofNat c.toNat = c := Char.ofNat_toNat c
  unfold ReadsBack utf8Char
  dsimp only
  generalize c.toNat = n at hbounds hchar
  have htail (m : Nat) : (0x80 + m % 64).toUInt8.toNat = 0x80 + m % 64 := toNat_toUInt8 (by omega)
  by_cases h1 : n < 0x80
  · refine ⟨n.toUInt8, [], by rw [if_pos h1], fun rest => ?_⟩
    simp [utf8Step, toNat_toUInt8 (n := n) (by omega), h1, hchar]
  by_cases h2 : n < 0x800
  · refine ⟨_, _, by rw [if_neg h1, if_pos h2], fun rest => ?_⟩
    have ha := toNat_toUInt8 (n := 0xc0 + n / 64) (by omega)
    have hb : secondAllowed (0xc0 + n / 64).toUInt8 (0x80 + n % 64).toUInt8 = true :=
      secondAllowed_iff.mpr ⟨isContinuation_tail n, by omega⟩
    have hvalue : (0xc0 + n / 64 - 0xc0) * 64 + (0x80 + n % 64) % 64 = n := by omega
    rw [List.singleton_append, utf8Step_two (by omega) hb, ha, htail, hvalue, hchar]
    rfl
  by_cases h3 : n < 0x10000
  · refine ⟨_, _, by rw [if_neg h1, if_neg h2, if_pos h3], fun rest => ?_⟩
    have ha := toNat_toUInt8 (n := 0xe0 + n / 4096) (by omega)
    have hb : secondAllowed (0xe0 + n / 4096).toUInt8 (0x80 + n / 64 % 64).toUInt8 = true := by
      have htail := htail (n / 64)
      exact secondAllowed_iff.mpr ⟨isContinuation_tail _, by omega⟩
    have hvalue : (0xe0 + n / 4096 - 0xe0) * 4096 + (0x80 + n / 64 % 64) % 64 * 64 +
        (0x80 + n % 64) % 64 = n := by omega
    rw [List.cons_append, List.singleton_append,
      utf8Step_three (by omega) hb (isContinuation_tail n), ha, htail, htail, hvalue, hchar]
    rfl
  · refine ⟨_, _, by rw [if_neg h1, if_neg h2, if_neg h3], fun rest => ?_⟩
    have ha := toNat_toUInt8 (n := 0xf0 + n / 262144) (by omega)
    have hb : secondAllowed (0xf0 + n / 262144).toUInt8 (0x80 + n / 4096 % 64).toUInt8 = true := by
      have htail := htail (n / 4096)
      exact secondAllowed_iff.mpr ⟨isContinuation_tail _, by omega⟩
    have hvalue : (0xf0 + n / 262144 - 0xf0) * 262144 + (0x80 + n / 4096 % 64) % 64 * 4096 +
        (0x80 + n / 64 % 64) % 64 * 64 + (0x80 + n % 64) % 64 = n := by omega
    rw [List.cons_append, List.cons_append, List.singleton_append,
      utf8Step_four (by omega) hb (isContinuation_tail _) (isContinuation_tail n), ha, htail,
      htail, htail, hvalue, hchar]
    rfl

/-- No character is written in the bytes of a surrogate. -/
theorem ReadsBack.lenient {c : Char} (h : ReadsBack utf8Step c) :
    ReadsBack lenientUtf8Step c := by
  obtain ⟨b, bs, hbytes, hstep⟩ := h
  refine ⟨b, bs, hbytes, fun rest => ?_⟩
  have hread := hstep rest
  unfold lenientUtf8Step
  split
  · next d e tail htail =>
      rw [if_neg ?_, hread]
      rintro ⟨hb, hd, -⟩
      rw [htail] at hread
      have hrefused : secondAllowed b d = false := by
        simp [secondAllowed, hb, hd]
      simp [utf8Step, hb, hrefused] at hread
  · exact hread

/-! ## Texts -/

theorem decodeFrom_skip (codec : String) (input : List UInt8) (bs rest : List UInt8) (pos : Nat) :
    decodeFrom codec input step bs.length pos (bs ++ rest) =
      decodeFrom codec input step 0 (pos + bs.length) rest := by
  induction bs generalizing pos with
  | nil => rfl
  | cons b bs ih =>
      rw [List.length_cons, List.cons_append, decodeFrom, ih]
      congr 1
      omega

theorem decodeFrom_encodeUtf8 (h : ∀ c, ReadsBack step c) (codec : String) (input : List UInt8)
    (pos : Nat) : decodeFrom codec input step 0 pos (encodeUtf8 cs) = .ok cs := by
  induction cs generalizing pos with
  | nil => rfl
  | cons c cs ih =>
      obtain ⟨b, bs, hbytes, hstep⟩ := h c
      have hencode : encodeUtf8 (c :: cs) = b :: (bs ++ encodeUtf8 cs) := by
        simp [encodeUtf8, hbytes]
      rw [hencode, decodeFrom, hstep]
      dsimp only
      rw [decodeFrom_skip, ih]
      rfl

end SfcCheck.Text
