import Mathlib.Data.Nat.Digits.Defs
import PietLang.Proofs.Failures
import PietLang.Proofs.ReadBack

/-!
# Proofs/Tokens — characters and numbers are read exactly where they stand

A lead byte announces a length more freely than the encoding allows: leads of overlong forms and of
code points past the last are let through, and so is any byte after them.  The decoder then decides.
What it accepts is the encoding of some characters (`Utf8.decode_eq_ok_iff`), of which the first has
the lead in question.  That lead announces the whole of its own character, so there is no second one
(`Input.eq_singleton_of_decode`).

Four things happen to the bytes of a number: the line is cut off, decoded, trimmed and taken apart.
The line is what comes up to the first line feed (`Input.line_eq_take`), it is decoded just when it
is an encoded text, and what is left when that text is trimmed spells a number just when the text is
a number line (`Input.exists_numberLine`).  So the outcome of a read depends on one thing alone,
whether the line ahead is the encoding of a number line (`Input.Begins`).
-/

namespace PietLang

/-! ## Characters -/

namespace Input

variable {i j : Input} {c : Char}

/-- **A character is read where its encoding stands, and just that is consumed.** -/
theorem readChar_eq_ok_iff : i.readChar = (.ok c, j) ↔ i.Follows (String.utf8EncodeChar c) j := by
  constructor
  · intro h
    obtain ⟨lead, tail, hfollows, hlead, hdecode⟩ := exists_announced_of_readChar h
    obtain ⟨c', hdecode', hbytes⟩ | ⟨f, hdecode'⟩ := decodeCharacter_cases hlead
    · obtain rfl := Except.ok.inj (hdecode.symm.trans hdecode')
      rwa [hbytes] at hfollows
    · exact absurd (hdecode.symm.trans hdecode') nofun
  · intro h
    obtain ⟨rest, hunread, rfl⟩ := follows_iff.mp h
    have htakes := takes_utf8EncodeChar c rest i.consumed i.ending
    rwa [← hunread] at htakes

/-- **The characters that are read are the encoded ones.**  A read gives a character just when the
bytes ahead begin with its encoding, and it has then consumed the encoding and nothing more.  Where
the bytes ahead begin with the encoding of no character, and only there, it fails with an error of
the input that is reported. -/
theorem readChar_eq_ok_iff_encoded (bs : List UInt8) (consumed : Nat) :
    let i : Input := ⟨bs, consumed, .closed⟩
    (∀ c j, i.readChar = (.ok c, j) ↔ ∃ rest, bs = String.utf8EncodeChar c ++ rest ∧
      j = ⟨rest, consumed + (String.utf8EncodeChar c).length, .closed⟩) ∧
    ((∃ e, i.readChar.1 = .error e ∧ (Failure.input e).isReported = true) ↔
      ∀ c, ¬ String.utf8EncodeChar c <+: bs) := by
  intro i
  have hiff (c : Char) (j : Input) : i.readChar = (.ok c, j) ↔
      ∃ rest, bs = String.utf8EncodeChar c ++ rest ∧
        j = ⟨rest, consumed + (String.utf8EncodeChar c).length, .closed⟩ :=
    readChar_eq_ok_iff.trans follows_iff
  refine ⟨hiff, ?_⟩
  constructor
  · rintro ⟨e, herror, -⟩ c ⟨rest, rfl⟩
    have hread := (hiff c _).mpr ⟨rest, rfl, rfl⟩
    rw [hread] at herror
    cases herror
  · intro hnone
    rcases hread : i.readChar with ⟨e | c, j⟩
    · exact ⟨e, rfl, isReported_of_readChar rfl (by rw [hread])⟩
    · obtain ⟨rest, hbs, -⟩ := (hiff c j).mp hread
      exact absurd ⟨rest, hbs.symm⟩ (hnone c)

end Input

/-! ## Numbers -/

/-- Digits are added up from the left, and give the sum by places. -/
theorem Decimal.value_eq_ofDigits (ds : List Nat) : value ds = Nat.ofDigits 10 ds.reverse := by
  rw [Nat.ofDigits_eq_foldr, List.foldr_reverse, value]
  simp only [Nat.cast_id, Nat.add_comm]

namespace Input

variable {i : Input} {l : NumberLine}

/-- The sign as a factor. -/
def Sign.factor : Sign → Int
  | none | plus => 1
  | minus => -1

/-- The values of the digits, from the ones upwards. -/
def NumberLine.places (l : NumberLine) : List Nat := (l.digits.map Text.plainDigit).reverse

theorem NumberLine.value_eq_ofDigits (l : NumberLine) :
    l.value = l.sign.factor * (Nat.ofDigits 10 l.places : Nat) := by
  rw [value, Decimal.signed, Decimal.value_eq_ofDigits, places]
  rcases l.sign with _ | _ | _ <;> simp [Sign.isMinus, Sign.factor]

/-- The line ahead, up to the first line feed or to the end where there is none, is the encoding of
the number line. -/
def Begins (i : Input) (l : NumberLine) : Prop :=
  i.unread.take (i.unread.idxOf 0x0A + 1) = Utf8.encode l.chars

theorem begins_iff_decode : i.Begins l ↔ Utf8.decode (line i.unread) = .ok l.chars := by
  rw [Begins, line_eq_take, Utf8.decode_eq_ok_iff]

/-- A read of a number line gives its number or fails for its digits. -/
theorem Begins.readNumber_fst (h : i.Begins l) : i.readNumber.1 =
    if 4300 < l.digits.length then .error (.tooManyDigits l.digits.length)
    else .ok (l.sign.factor * (Nat.ofDigits 10 l.places : Nat)) := by
  rw [← l.value_eq_ofDigits]
  exact readNumber_of_numberLine (begins_iff_decode.mp h)

/-- What is read is a number line, or else the read fails and is reported. -/
theorem begins_or_reported (hclosed : i.ending = .closed) : (∃ l, i.Begins l) ∨
    ∃ e, i.readNumber.1 = .error e ∧ (Failure.input e).isReported = true := by
  refine or_iff_not_imp_left.mpr fun hnot => ?_
  exact exists_reported_of_not_numberLine hclosed fun l hl => hnot ⟨l, begins_iff_decode.mpr hl⟩

theorem readNumber_eq_ok_iff (hclosed : i.ending = .closed) {n : Int} :
    i.readNumber.1 = .ok n ↔ ∃ l, i.Begins l ∧ l.digits.length ≤ 4300 ∧
      n = l.sign.factor * (Nat.ofDigits 10 l.places : Nat) := by
  constructor
  · intro h
    rcases begins_or_reported hclosed with ⟨l, hl⟩ | ⟨e, herror, -⟩
    · rw [hl.readNumber_fst] at h
      split at h
      · exact absurd h nofun
      · next hdigits => exact ⟨l, hl, Nat.le_of_not_lt hdigits, (Except.ok.inj h).symm⟩
    · exact absurd (herror.symm.trans h) nofun
  · rintro ⟨l, hl, hdigits, rfl⟩
    rw [hl.readNumber_fst, if_neg (Nat.not_lt.mpr hdigits)]

theorem readNumber_eq_tooManyDigits_iff (hclosed : i.ending = .closed) {count : Nat} :
    i.readNumber.1 = .error (.tooManyDigits count) ↔
      ∃ l, i.Begins l ∧ 4300 < l.digits.length ∧ count = l.digits.length := by
  constructor
  · intro h
    rcases begins_or_reported hclosed with ⟨l, hl⟩ | ⟨e, herror, hreported⟩
    · rw [hl.readNumber_fst] at h
      split at h
      · next hdigits =>
        obtain rfl := Error.tooManyDigits.inj (Except.error.inj h)
        exact ⟨l, hl, hdigits, rfl⟩
      · exact absurd h nofun
    · obtain rfl := Except.error.inj (h.symm.trans herror)
      exact absurd hreported nofun
  · rintro ⟨l, hl, hdigits, rfl⟩
    rw [hl.readNumber_fst, if_pos hdigits]

theorem exists_reported_readNumber_iff (hclosed : i.ending = .closed) :
    (∃ e, i.readNumber.1 = .error e ∧ (Failure.input e).isReported = true) ↔
      ∀ l, ¬ i.Begins l := by
  constructor
  · rintro ⟨e, herror, hreported⟩ l hl
    rw [hl.readNumber_fst] at herror
    split at herror
    · obtain rfl := Except.error.inj herror
      exact absurd hreported nofun
    · exact absurd herror nofun
  · intro hnot
    exact (begins_or_reported hclosed).resolve_left (not_exists.mpr hnot)

/-- **The numbers that are read are those on number lines.**  A read gives a number just when the
line ahead is the encoding of a number line with at most 4300 digits, and then it is the number on
the line.  It fails for the digits just when there are more of them, and with an error of the input
that is reported just when the line ahead is the encoding of no number line.  In every case it has
consumed the line and nothing more. -/
theorem readNumber_eq_ok_iff_numberLine (bs : List UInt8) (consumed : Nat) :
    let i : Input := ⟨bs, consumed, .closed⟩
    (∀ n, i.readNumber.1 = .ok n ↔ ∃ l, i.Begins l ∧ l.digits.length ≤ 4300 ∧
      n = l.sign.factor * (Nat.ofDigits 10 l.places : Nat)) ∧
    (∀ count, i.readNumber.1 = .error (.tooManyDigits count) ↔
      ∃ l, i.Begins l ∧ 4300 < l.digits.length ∧ count = l.digits.length) ∧
    ((∃ e, i.readNumber.1 = .error e ∧ (Failure.input e).isReported = true) ↔
      ∀ l, ¬ i.Begins l) ∧
    i.readNumber.2 = ⟨bs.drop (bs.idxOf 0x0A + 1),
      consumed + (bs.take (bs.idxOf 0x0A + 1)).length, .closed⟩ := by
  intro i
  refine ⟨fun n => readNumber_eq_ok_iff rfl, fun count => readNumber_eq_tooManyDigits_iff rfl,
    exists_reported_readNumber_iff rfl, ?_⟩
  rw [readNumber_snd, advance, List.length_take]

end Input

end PietLang
