import SfcCheck.Json.Parser
import SfcCheck.Json.Printer

/-!
# Strings are read as they were written

A string is written character by character: as it is, as a letter after a backslash, as the escape
of a unit or as those of two. `Escaping` lists these ways, each of them is read as the character
that it stands for. What may stand between the quotes of a literal is more than what is written:
`Quoting` lists all of it, and the reader takes just that.
-/

namespace SfcCheck.Json

variable {opening cs raw rest t : List Char} {c : Char}

theorem stringRest_quote (opening cs : List Char) :
    stringRest opening ('"' :: cs) = .ok ([], cs) := by
  rw [stringRest]

theorem stringRest_plain (hquote : c ≠ '"') (hslash : c ≠ '\\') (hcontrol : 0x20 ≤ c.toNat) :
    stringRest opening (c :: cs) = consRead c (stringRest opening cs) := by
  rw [stringRest]
  · rw [if_neg (Nat.not_lt.mpr hcontrol)]
  all_goals (intros; simp_all)

theorem stringRest_letter {e : Char} (hletter : escaped? c = some e) (hu : c ≠ 'u') :
    stringRest opening ('\\' :: c :: cs) = consRead e (stringRest opening cs) := by
  rw [stringRest]
  · rw [hletter]
  all_goals (intros; simp_all)

/-- A unit stands for itself unless it goes first in a pair whose second one follows. -/
theorem stringRest_unit {a b c d : Char} {n : Nat} (hunit : unit? a b c d = some n)
    (hlone : 0xd800 ≤ n ∧ n < 0xdc00 → ∀ a' b' c' d' e more,
      cs = '\\' :: 'u' :: a' :: b' :: c' :: d' :: e :: more →
        ∃ m, unit? a' b' c' d' = some m ∧ ¬ (0xdc00 ≤ m ∧ m < 0xe000)) (hcs : cs ≠ []) :
    stringRest opening ('\\' :: 'u' :: a :: b :: c :: d :: cs) =
      consRead (unitChar n) (stringRest opening cs) := by
  rw [stringRest.eq_def]
  simp only [hunit]
  split
  · contradiction
  · contradiction
  · next heq =>
      cases heq
      split
      · next hhigh =>
          obtain ⟨m, hm, hlow⟩ := hlone hhigh _ _ _ _ _ _ rfl
          simp only [hm, if_neg hlow]
      · rfl
  · next heq =>
      cases heq
      rfl

theorem stringRest_pair {a b c d a' b' c' d' : Char} {n m : Nat}
    (hhigh : unit? a b c d = some n) (hn : 0xd800 ≤ n ∧ n < 0xdc00)
    (hlow : unit? a' b' c' d' = some m) (hm : 0xdc00 ≤ m ∧ m < 0xe000) (hcs : cs ≠ []) :
    stringRest opening ('\\' :: 'u' :: a :: b :: c :: d ::
        '\\' :: 'u' :: a' :: b' :: c' :: d' :: cs) =
      consRead (pairChar n m) (stringRest opening cs) := by
  obtain ⟨e, cs, rfl⟩ := List.exists_cons_of_ne_nil hcs
  rw [stringRest.eq_def]
  simp only [hhigh, hlow, if_pos hn, if_pos hm]

theorem hexDigit?_hexDigit : ∀ n < 16, Text.hexDigit? (Text.hexDigit n) = some n := by decide

/-- The escape of a unit has six characters, the last four of which give the unit. -/
theorem unitEscape_eq (n : Nat) :
    ∃ a b c d, unitEscape n = ['\\', 'u', a, b, c, d] ∧ (n < 0x10000 → unit? a b c d = some n) := by
  refine ⟨_, _, _, _, rfl, fun hn => ?_⟩
  simp only [unit?, hexDigit?_hexDigit _ (Nat.mod_lt _ (by decide : 0 < 16)), bind, Option.bind,
    pure]
  congr 1
  omega

theorem unitChar_toNat (c : Char) : unitChar c.toNat = c := by
  rw [unitChar, if_neg, Char.ofNat_toNat]
  intro h
  rcases c.valid with hlt | ⟨hgt, -⟩
  · exact absurd hlt (Nat.not_lt.mpr h.1)
  · exact absurd h.2 (Nat.not_lt.mpr hgt)

/-- A character beyond the basic plane is that of its two units. -/
theorem pairChar_units (h : 0x10000 ≤ c.toNat) :
    pairChar (0xd800 + (c.toNat - 0x10000) / 1024) (0xdc00 + (c.toNat - 0x10000) % 1024) = c := by
  have hcode : 0x10000 + (0xd800 + (c.toNat - 0x10000) / 1024 - 0xd800) * 1024 +
      (0xdc00 + (c.toNat - 0x10000) % 1024 - 0xdc00) = c.toNat := by omega
  rw [pairChar, hcode, Char.ofNat_toNat]

theorem toNat_lt (c : Char) : c.toNat < 0x110000 := by
  rcases c.valid with hlt | ⟨-, hlt⟩
  · exact Nat.lt_trans hlt (by decide)
  · exact hlt

/-- The ways in which a character is written. -/
inductive Escaping (c : Char) : List Char → Prop where
  | letter (l : Char) (hletter : escaped? l = some c) (hu : l ≠ 'u') (hascii : l.toNat < 0x80) :
      Escaping c ['\\', l]
  | plain (hquote : c ≠ '"') (hslash : c ≠ '\\') (hlow : 0x20 ≤ c.toNat) (hhigh : c.toNat < 0x7f) :
      Escaping c [c]
  | unit (hlow : c.toNat < 0x10000) : Escaping c (unitEscape c.toNat)
  | pair (hhigh : 0x10000 ≤ c.toNat) :
      Escaping c (unitEscape (0xd800 + (c.toNat - 0x10000) / 1024) ++
        unitEscape (0xdc00 + (c.toNat - 0x10000) % 1024))

theorem escaping (c : Char) : Escaping c (escapeChar c) := by
  have hcontrol {n : Nat} (h : c.toNat = n) : c = Char.ofNat n := by rw [← h, Char.ofNat_toNat]
  unfold escapeChar
  dsimp only
  split
  · next h =>
      subst h
      exact .letter '"' (by decide) (by decide) (by decide)
  split
  · next h =>
      subst h
      exact .letter '\\' (by decide) (by decide) (by decide)
  split
  · next h => exact h ▸ .letter 'n' (by decide) (by decide) (by decide)
  split
  · next h => exact h ▸ .letter 'r' (by decide) (by decide) (by decide)
  split
  · next h => exact h ▸ .letter 't' (by decide) (by decide) (by decide)
  split
  · next h => exact hcontrol h ▸ .letter 'b' (by decide) (by decide) (by decide)
  split
  · next h => exact hcontrol h ▸ .letter 'f' (by decide) (by decide) (by decide)
  split
  · next hquote hslash _ _ _ _ _ h => exact .plain hquote hslash h.1 h.2
  split
  · next h => exact .unit h
  · next h => exact .pair (Nat.not_lt.mp h)

/-- A character that is written somehow is read as itself, if something follows. -/
theorem stringRest_escapeChar (c : Char) (hcs : cs ≠ []) :
    stringRest opening (escapeChar c ++ cs) = consRead c (stringRest opening cs) := by
  have h := escaping c
  generalize escapeChar c = text at h
  cases h with
  | letter l hletter hu hascii => exact stringRest_letter hletter hu
  | plain hquote hslash hlow hhigh => exact stringRest_plain hquote hslash hlow
  | unit hlow =>
      obtain ⟨a, b, c', d, htext, hunit⟩ := unitEscape_eq c.toNat
      have hscalar : ¬ (0xd800 ≤ c.toNat ∧ c.toNat < 0xdc00) := by
        rcases c.valid with hlt | ⟨hgt, -⟩
        · exact fun h => absurd hlt (Nat.not_lt.mpr h.1)
        · exact fun h => absurd (Nat.lt_trans h.2 (by decide)) (Nat.not_lt.mpr (Nat.le_of_lt hgt))
      rw [htext]
      refine (stringRest_unit (hunit hlow) (fun hhigh => absurd hhigh hscalar) hcs).trans ?_
      rw [unitChar_toNat]
  | pair hhigh =>
      have hlt := toNat_lt c
      obtain ⟨a, b, c₁, d, htext, hunit⟩ := unitEscape_eq (0xd800 + (c.toNat - 0x10000) / 1024)
      obtain ⟨a', b', c', d', htext', hunit'⟩ := unitEscape_eq (0xdc00 + (c.toNat - 0x10000) % 1024)
      rw [htext, htext']
      exact (stringRest_pair (hunit (by omega)) (by omega) (hunit' (by omega)) (by omega) hcs).trans
        (by rw [pairChar_units hhigh])

theorem stringRest_flatMap (opening cs rest : List Char) :
    stringRest opening (cs.flatMap escapeChar ++ '"' :: rest) = .ok (cs, rest) := by
  induction cs with
  | nil => exact stringRest_quote opening rest
  | cons c cs ih =>
      rw [List.flatMap_cons, List.append_assoc, stringRest_escapeChar c (by simp), ih]
      rfl

theorem stringText_append (s : String) (t : List Char) :
    stringText s ++ t = '"' :: (s.toList.flatMap escapeChar ++ '"' :: t) := by
  simp [stringText]

/-- A string is read as it was written. -/
theorem string_escaped (s : String) (t : List Char) :
    string (s.toList.flatMap escapeChar ++ '"' :: t) = .ok (s, t) := by
  rw [string, stringRest_flatMap]
  simp

/-! ## The contents of literals -/

/-- A text starts with the escape of a unit that goes second in a pair. -/
def StartsLow (cs : List Char) : Prop :=
  ∃ a b c d m rest, cs = '\\' :: 'u' :: a :: b :: c :: d :: rest ∧
    unit? a b c d = some m ∧ 0xdc00 ≤ m ∧ m < 0xe000

/-- What stands between the quotes of a literal, and the characters that it stands for. The escape
of a unit that goes first in a pair stands for itself only where no second one follows. -/
inductive Quoting : List Char → List Char → Prop where
  | nil : Quoting [] []
  | plain {c : Char} {raw cs : List Char} (hquote : c ≠ '"') (hslash : c ≠ '\\')
      (hcontrol : 0x20 ≤ c.toNat) (h : Quoting raw cs) : Quoting (c :: raw) (c :: cs)
  | letter {l c : Char} {raw cs : List Char} (hletter : escaped? l = some c)
      (h : Quoting raw cs) : Quoting ('\\' :: l :: raw) (c :: cs)
  | unit {a b c d : Char} {n : Nat} {raw cs : List Char} (hunit : unit? a b c d = some n)
      (hlone : 0xd800 ≤ n ∧ n < 0xdc00 → ¬ StartsLow raw) (h : Quoting raw cs) :
      Quoting ('\\' :: 'u' :: a :: b :: c :: d :: raw) (unitChar n :: cs)
  | pair {a b c d a' b' c' d' : Char} {n m : Nat} {raw cs : List Char}
      (hhigh : unit? a b c d = some n) (hn : 0xd800 ≤ n ∧ n < 0xdc00)
      (hlow : unit? a' b' c' d' = some m) (hm : 0xdc00 ≤ m ∧ m < 0xe000) (h : Quoting raw cs) :
      Quoting ('\\' :: 'u' :: a :: b :: c :: d :: '\\' :: 'u' :: a' :: b' :: c' :: d' :: raw)
        (pairChar n m :: cs)

theorem letter_ne_u {l : Char} (h : escaped? l = some c) : l ≠ 'u' := by
  rintro rfl
  cases h

/-- Where a literal has the escape of a unit, it has four hexadecimal digits. -/
theorem Quoting.exists_unit? {s more : List Char} {a b c d : Char} (h : Quoting raw s)
    (heq : raw ++ '"' :: rest = '\\' :: 'u' :: a :: b :: c :: d :: more) :
    ∃ m raw', raw = '\\' :: 'u' :: a :: b :: c :: d :: raw' ∧ unit? a b c d = some m := by
  cases h with
  | nil => cases heq
  | plain hquote hslash hcontrol h => exact absurd (List.cons.inj heq).1 hslash
  | letter hletter h =>
      exact absurd (List.cons.inj (List.cons.inj heq).2).1 (letter_ne_u hletter)
  | unit hunit hlone h =>
      cases heq
      exact ⟨_, _, rfl, hunit⟩
  | pair hhigh hn hlow hm h =>
      cases heq
      exact ⟨_, _, rfl, hhigh⟩

/-- A literal is read as what it stands for. -/
theorem Quoting.stringRest {s : List Char} (h : Quoting raw s) (opening rest : List Char) :
    stringRest opening (raw ++ '"' :: rest) = .ok (s, rest) := by
  induction h with
  | nil => exact stringRest_quote opening rest
  | plain hquote hslash hcontrol h ih =>
      rw [List.cons_append, stringRest_plain hquote hslash hcontrol, ih]
      rfl
  | letter hletter h ih =>
      rw [List.cons_append, List.cons_append, stringRest_letter hletter (letter_ne_u hletter), ih]
      rfl
  | @unit a b c d n raw s hunit hlone h ih =>
      simp only [List.cons_append]
      rw [stringRest_unit hunit ?_ (by simp), ih]
      · rfl
      intro hhigh a' b' c' d' e more heq
      obtain ⟨m, raw', hraw, hm⟩ := h.exists_unit? heq
      exact ⟨m, hm, fun hlow => hlone hhigh ⟨_, _, _, _, m, raw', hraw, hm, hlow⟩⟩
  | pair hhigh hn hlow hm h ih =>
      simp only [List.cons_append]
      rw [stringRest_pair hhigh hn hlow hm (by simp), ih]
      rfl

theorem consRead_eq_ok_iff {r : Reading (List Char)} {s : List Char} :
    consRead c r = .ok (s, rest) ↔ ∃ s', r = .ok (s', rest) ∧ s = c :: s' := by
  cases r with
  | error e => simp [consRead]
  | ok r => obtain ⟨s', rest'⟩ := r; simp [consRead]; grind

/-- What is read as a string is a literal up to its closing quote. -/
theorem exists_quoting {s : List Char} (h : stringRest opening cs = .ok (s, rest)) :
    ∃ raw, cs = raw ++ '"' :: rest ∧ Quoting raw s := by
  fun_induction stringRest opening cs generalizing s with
  | case1 | case3 | case4 | case5 | case10 | case11 | case13 | case14 => cases h
  | case2 cs =>
      cases h
      exact ⟨[], rfl, .nil⟩
  | case6 a b c d a' b' c' d' e cs n hunit hn m hunit' hm ih =>
      obtain ⟨s', hread, rfl⟩ := consRead_eq_ok_iff.mp h
      obtain ⟨raw, hraw, hquoting⟩ := ih hread
      exact ⟨_, by rw [hraw]; rfl, .pair hunit hn hunit' hm hquoting⟩
  | case7 a b c d a' b' c' d' e cs n hunit hn m hunit' hm ih =>
      obtain ⟨s', hread, rfl⟩ := consRead_eq_ok_iff.mp h
      obtain ⟨raw, hraw, hquoting⟩ := ih hread
      refine ⟨_, by rw [hraw]; rfl, .unit hunit (fun _ => ?_) hquoting⟩
      rintro ⟨_, _, _, _, m', more, rfl, hunit'', hlow⟩
      simp only [List.cons_append, List.cons.injEq, true_and] at hraw
      obtain ⟨rfl, rfl, rfl, rfl, -⟩ := hraw
      rw [hunit'] at hunit''
      cases hunit''
      exact hm hlow
  | case8 a b c d a' b' c' d' e cs n hunit hn ih =>
      obtain ⟨s', hread, rfl⟩ := consRead_eq_ok_iff.mp h
      obtain ⟨raw, hraw, hquoting⟩ := ih hread
      exact ⟨_, by rw [hraw]; rfl, .unit hunit (fun hhigh => absurd hhigh hn) hquoting⟩
  | case9 a b c d cs n hcs hnext hunit ih =>
      obtain ⟨s', hread, rfl⟩ := consRead_eq_ok_iff.mp h
      obtain ⟨raw, rfl, hquoting⟩ := ih hread
      refine ⟨_, rfl, .unit hunit (fun _ => ?_) hquoting⟩
      rintro ⟨a', b', c', d', m', more, rfl, -⟩
      obtain ⟨e, cs, hmore⟩ := List.exists_cons_of_ne_nil (l := more ++ '"' :: rest) (by simp)
      exact hnext a' b' c' d' e cs (by simp [hmore])
  | case12 l cs _ _ e hletter ih =>
      obtain ⟨s', hread, rfl⟩ := consRead_eq_ok_iff.mp h
      obtain ⟨raw, rfl, hquoting⟩ := ih hread
      exact ⟨_, rfl, .letter hletter hquoting⟩
  | case15 c cs hquote _ _ hlast hslash hcontrol ih =>
      obtain ⟨s', hread, rfl⟩ := consRead_eq_ok_iff.mp h
      obtain ⟨raw, rfl, hquoting⟩ := ih hread
      refine ⟨_, rfl, .plain hquote (fun hc => ?_) (Nat.not_lt.mp hcontrol) hquoting⟩
      obtain ⟨e, cs, hmore⟩ := List.exists_cons_of_ne_nil (l := raw ++ '"' :: rest) (by simp)
      exact hslash e cs hc hmore

end SfcCheck.Json
