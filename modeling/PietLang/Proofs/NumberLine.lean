import PietLang.Input

/-!
# Proofs/NumberLine — the lines that are read as numbers

A number line is blanks, an optional sign, plain digits and blanks again.  Such a line is read as
its value, unless it has too many digits (`NumberLine.number_chars`); any other line is not a number
(`exists_numberLine`).  The blanks around a number are cut off whatever they are, since neither a
sign nor a digit is a blank.
-/

namespace PietLang

namespace Text

variable {p : Char → Bool} {before text after : List Char}

/-- Trimming cuts characters of the class off both ends, and nothing else. -/
theorem exists_eq_trim (p : Char → Bool) (cs : List Char) : ∃ before after,
    cs = before ++ trim p cs ++ after ∧ before.all p = true ∧ after.all p = true := by
  refine ⟨cs.takeWhile p, ((cs.dropWhile p).reverse.takeWhile p).reverse, ?_,
    List.all_takeWhile, ?_⟩
  · have hmiddle :
        trim p cs ++ ((cs.dropWhile p).reverse.takeWhile p).reverse = cs.dropWhile p := by
      rw [trim, ← List.reverse_append, List.takeWhile_append_dropWhile, List.reverse_reverse]
    rw [List.append_assoc, hmiddle, List.takeWhile_append_dropWhile]
  · rw [List.all_reverse]
    exact List.all_takeWhile

theorem dropWhile_append_of_all (hbefore : before.all p = true) (hne : text ≠ [])
    (htext : ∀ c ∈ text, p c = false) (rest : List Char) :
    (before ++ text ++ rest).dropWhile p = text ++ rest := by
  obtain ⟨c, text, rfl⟩ := List.exists_cons_of_ne_nil hne
  rw [List.append_assoc, List.dropWhile_append_of_pos (List.all_eq_true.mp hbefore),
    List.cons_append, List.dropWhile_cons_of_neg (by simp [htext c])]

/-- A text that has no character of the class is what is left when it is padded with them. -/
theorem trim_padded (hbefore : before.all p = true) (hafter : after.all p = true)
    (hne : text ≠ []) (htext : ∀ c ∈ text, p c = false) :
    trim p (before ++ text ++ after) = text := by
  have hreverse : (text ++ after).reverse = after.reverse ++ text.reverse ++ [] := by simp
  rw [trim, dropWhile_append_of_all hbefore hne htext, hreverse,
    dropWhile_append_of_all (by simpa using hafter) (by simpa using hne) (by simpa using htext)]
  simp

theorem isPlainDigit_iff {c : Char} : isPlainDigit c = true ↔ 0x30 ≤ c.toNat ∧ c.toNat ≤ 0x39 := by
  simp [isPlainDigit, Char.le_def, UInt32.le_iff_toNat_le]

theorem isBlank_of_isPlainDigit {c : Char} (h : isPlainDigit c = true) : isBlank c = false := by
  rw [isPlainDigit_iff] at h
  simp only [isBlank]
  grind

end Text

namespace Input

/-- A sign, as it is written. -/
inductive Sign where
  | none
  | plus
  | minus
deriving DecidableEq

namespace Sign

/-- The text of a sign. -/
def chars : Sign → List Char
  | none => []
  | plus => ['+']
  | minus => ['-']

/-- Whether the sign makes a number negative. -/
def isMinus (s : Sign) : Bool := s = minus

end Sign

/-- The parts of a line that holds a number. -/
structure NumberLine where
  before : List Char
  sign : Sign
  digits : List Char
  after : List Char
  all_before : before.all Text.isBlank = true
  all_after : after.all Text.isBlank = true
  digits_ne_nil : digits ≠ []
  all_digits : digits.all Text.isPlainDigit = true

/-- A text is split into a sign and what follows it. -/
theorem exists_splitSign (text : List Char) :
    ∃ sign : Sign, text = sign.chars ++ (Decimal.splitSign text).2 ∧
      (Decimal.splitSign text).1 = sign.isMinus := by
  unfold Decimal.splitSign
  split
  · exact ⟨.minus, rfl, rfl⟩
  · exact ⟨.plus, rfl, rfl⟩
  · exact ⟨.none, rfl, rfl⟩

theorem splitSign_chars (sign : Sign) {ds : List Char} (hds : ds.all Text.isPlainDigit = true) :
    Decimal.splitSign (sign.chars ++ ds) = (sign.isMinus, ds) := by
  rcases sign with _ | _ | _
  · -- a sign is no digit, so the digits do not begin with one
    rw [Sign.chars, List.nil_append]
    unfold Decimal.splitSign
    split
    · exact absurd hds (by simp [Text.isPlainDigit_iff])
    · exact absurd hds (by simp [Text.isPlainDigit_iff])
    · rfl
  · rfl
  · rfl

namespace NumberLine

variable (l : NumberLine)

/-- The characters of the line. -/
def chars : List Char := l.before ++ (l.sign.chars ++ l.digits) ++ l.after

/-- The number on the line. -/
def value : Int := Decimal.signed l.sign.isMinus (Decimal.value (l.digits.map Text.plainDigit))

theorem isBlank_sign_digits {c : Char} (h : c ∈ l.sign.chars ++ l.digits) :
    Text.isBlank c = false := by
  rcases List.mem_append.mp h with h | h
  · rcases hsign : l.sign with _ | _ | _
    · simp [hsign, Sign.chars] at h
    · simp only [hsign, Sign.chars, List.mem_singleton] at h
      rw [h]
      rfl
    · simp only [hsign, Sign.chars, List.mem_singleton] at h
      rw [h]
      rfl
  · exact Text.isBlank_of_isPlainDigit (List.all_eq_true.mp l.all_digits c h)

/-- **A number line is read as its value, unless it has too many digits.** -/
theorem number_chars : number (Text.trim Text.isBlank l.chars) =
    if Decimal.digitLimit < l.digits.length then .error (.tooManyDigits l.digits.length)
    else .ok l.value := by
  have hne : l.sign.chars ++ l.digits ≠ [] := by simp [l.digits_ne_nil]
  have htrim : Text.trim Text.isBlank l.chars = l.sign.chars ++ l.digits :=
    Text.trim_padded l.all_before l.all_after hne fun _ => l.isBlank_sign_digits
  rw [htrim, number, splitSign_chars l.sign l.all_digits]
  have hdigits : (l.digits.isEmpty || !l.digits.all Text.isPlainDigit) = false := by
    simp [l.digits_ne_nil, l.all_digits]
  simp only [hdigits]
  rfl

end NumberLine

/-- **A text that is no number line is not a number.** -/
theorem exists_numberLine (cs : List Char) :
    (∃ l : NumberLine, l.chars = cs) ∨ number (Text.trim Text.isBlank cs)
      = .error (.notNumber (String.ofList (Text.trim Text.isBlank cs))) := by
  obtain ⟨before, after, hcs, hbefore, hafter⟩ := Text.exists_eq_trim Text.isBlank cs
  generalize Text.trim Text.isBlank cs = text at hcs
  obtain ⟨sign, htext, -⟩ := exists_splitSign text
  by_cases hdigits : ((Decimal.splitSign text).2.isEmpty
      || !(Decimal.splitSign text).2.all Text.isPlainDigit) = true
  · refine Or.inr ?_
    simp only [number, hdigits, if_true]
  · simp only [Bool.or_eq_true, not_or, List.isEmpty_iff, Bool.not_eq_true,
      Bool.not_eq_false'] at hdigits
    refine Or.inl ⟨⟨before, sign, _, after, hbefore, hafter, hdigits.1, hdigits.2⟩, ?_⟩
    rw [NumberLine.chars, ← htext]
    exact hcs.symm

end Input

end PietLang
