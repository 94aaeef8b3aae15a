import PietLang.Machine.Execute
import PietLang.Proofs.NumberLine
import PietLang.Proofs.Reading
import PietLang.Proofs.Utf8

/-!
# Proofs/ReadBack — characters and numbers share one stream, and each is read back

An item is a character, written in UTF-8, or a number, written on a line of its own as the machine
writes it and padded with any blanks but line feeds.  Every item is taken in the sense of
`Input.Takes`: it is read back and nothing after it is touched (`Item.takes`).  So items of both
kinds may follow each other in any order (`readAll_bytes`).
-/

namespace PietLang

namespace Decimal

theorem isPlainDigit_of_mem_digits {n : Nat} {c : Char} (h : c ∈ digits n) :
    Text.isPlainDigit c = true := by
  have hdigit : c.isDigit = true := Nat.isDigit_of_mem_toDigits (by omega) (by omega) h
  rw [Text.isPlainDigit_iff]
  simpa [Char.isDigit, UInt32.le_iff_toNat_le] using hdigit

/-- The digits of a number stand for it. -/
theorem value_digits (n : Nat) : value ((digits n).map Text.plainDigit) = n := by
  rw [value, List.foldl_map]
  exact Nat.ofDigitChars_ten_toDigits

/-- The sign that an integer is written with. -/
def signOf (n : Int) : Input.Sign := if n < 0 then .minus else .none

theorem toList_text (n : Int) : (text n).toList = (signOf n).chars ++ digits n.natAbs := by
  rw [text, signOf]
  split <;> simp [Input.Sign.chars]

theorem signed_signOf (n : Int) : signed (signOf n).isMinus n.natAbs = n := by
  rw [signed, signOf, Input.Sign.isMinus]
  split <;> grind

end Decimal

namespace Input

/-! ## Items -/

/-- Blanks within a line. -/
structure Padding where
  chars : List Char
  all_blank : chars.all Text.isBlank = true
  lineFeed_not_mem : '\n' ∉ chars

/-- The text that the machine writes for a number. -/
def written (n : Int) : String :=
  (((State.initial (.ofBytes [] .closed)).push n).execute ⟨.outNumber, 0⟩).1.output

/-- Something that can be read back: a character, or a number that the machine can write, with
padding around it. -/
inductive Item where
  | char (c : Char)
  | number (n : Int) (isWritable : Decimal.isWritable n = true) (before after : Padding)

/-- The two kinds of reads. -/
inductive Request where
  | char
  | number
deriving DecidableEq

/-- Reads a code point or a number. -/
def read (q : Request) (i : Input) : Except Error Int × Input :=
  match q with
  | .char => Prod.map (Except.map fun c => (c.toNat : Int)) id i.readChar
  | .number => i.readNumber

/-- Reads one after the other, whether they fail or not: what they give, and what they leave. -/
def readAll : List Request → Input → List (Except Error Int) × Input
  | [], i => ([], i)
  | q :: qs, i => ((i.read q).1 :: (readAll qs (i.read q).2).1, (readAll qs (i.read q).2).2)

namespace Item

/-- The read that an item is meant for. -/
def request : Item → Request
  | char _ => .char
  | number _ _ _ _ => .number

/-- The code point of a character, or the number. -/
def value : Item → Int
  | char c => c.toNat
  | number n _ _ _ => n

/-- The bytes of an item: a character in UTF-8, or a line with the number as the machine writes
it. -/
def bytes : Item → List UInt8
  | char c => String.utf8EncodeChar c
  | number n _ before after =>
    Utf8.encode (before.chars ++ (written n).toList ++ after.chars) ++ [0x0A]

end Item

theorem written_eq {n : Int} (h : Decimal.isWritable n = true) :
    written n = Decimal.text n ++ " " := by
  have hwrite : written n = ((State.initial (.ofBytes [] .closed)).writeNumber n).1.output := rfl
  rw [hwrite, State.writeNumber, if_pos h]
  exact String.empty_append

/-! ## Every item is taken -/

theorem Takes.map {α β : Type} {read : Input → Except Error α × Input} {bs : List UInt8} {a : α}
    (h : Takes read bs a) (f : α → β) :
    Takes (fun i => Prod.map (Except.map f) id (read i)) bs (f a) := by
  intro rest consumed ending
  dsimp only
  rw [h rest consumed ending]
  rfl

/-- The lead byte of a character announces its bytes. -/
theorem exists_announced? (c : Char) : ∃ lead tail,
    String.utf8EncodeChar c = lead :: tail ∧ announced? lead = some (tail.length + 1) := by
  have hvalid : c.val.toNat < 0xD800 ∨ 0xDFFF < c.val.toNat ∧ c.val.toNat < 0x110000 := c.valid
  simp only [String.utf8EncodeChar, announced?, UInt8.lt_iff_toNat_lt]
  repeat' split
  all_goals
    refine ⟨_, _, rfl, ?_⟩
    simp only [UInt8.toNat_ofNat', UInt8.reduceToNat, List.length_cons, List.length_nil]
    grind

/-- The bytes that a lead announces are decoded to one character, if to any, and they are its
encoding. -/
theorem eq_singleton_of_decode {lead : UInt8} {tail : List UInt8} {cs : List Char}
    (hlead : announced? lead = some (tail.length + 1))
    (hdecode : Utf8.decode (lead :: tail) = .ok cs) :
    ∃ c, cs = [c] ∧ lead :: tail = String.utf8EncodeChar c := by
  have hbytes : lead :: tail = Utf8.encode cs := Utf8.decode_eq_ok_iff.mp hdecode
  rcases cs with _ | ⟨c, cs⟩
  · cases hbytes
  obtain ⟨lead', tail', hencode, hlead'⟩ := exists_announced? c
  rw [Utf8.encode, List.flatMap_cons, hencode, List.cons_append] at hbytes
  obtain ⟨rfl, rfl⟩ := List.cons.inj hbytes
  -- both lengths are announced by the one lead, so no second character follows the first
  have hlength := Option.some.inj (hlead.symm.trans hlead')
  rcases cs with _ | ⟨c', cs⟩
  · exact ⟨c, rfl, by rw [hencode, List.flatMap_nil, List.append_nil]⟩
  · obtain ⟨lead'', tail'', hencode', -⟩ := exists_announced? c'
    simp only [List.flatMap_cons, hencode', List.length_append, List.length_cons] at hlength
    omega

/-- Such bytes are the encoding of a character, or malformed. -/
theorem decodeCharacter_cases {lead : UInt8} {tail : List UInt8}
    (hlead : announced? lead = some (tail.length + 1)) :
    (∃ c, decodeCharacter (lead :: tail) = .ok c ∧ lead :: tail = String.utf8EncodeChar c) ∨
      ∃ f, decodeCharacter (lead :: tail) = .error (.malformed f) := by
  rw [decodeCharacter]
  rcases hdecode : Utf8.decode (lead :: tail) with f | cs
  · exact Or.inr ⟨f, rfl⟩
  · obtain ⟨c, rfl, hbytes⟩ := eq_singleton_of_decode hlead hdecode
    exact Or.inl ⟨c, rfl, hbytes⟩

theorem decodeCharacter_utf8EncodeChar (c : Char) :
    decodeCharacter (String.utf8EncodeChar c) = .ok c := by
  have hdecode := Utf8.decode_encode [c]
  rw [Utf8.encode, List.flatMap_singleton] at hdecode
  rw [decodeCharacter, hdecode]

/-- **A character is taken for its encoding.** -/
theorem takes_utf8EncodeChar (c : Char) : Takes readChar (String.utf8EncodeChar c) c := by
  obtain ⟨lead, tail, hbytes, hlead⟩ := exists_announced? c
  have hdecode := decodeCharacter_utf8EncodeChar c
  rw [hbytes] at hdecode ⊢
  exact takes_readChar hlead hdecode

/-- The line of a number that the machine writes. -/
def NumberLine.ofInt (n : Int) (before after : Padding) : NumberLine where
  before := before.chars
  sign := Decimal.signOf n
  digits := Decimal.digits n.natAbs
  after := ' ' :: after.chars ++ ['\n']
  all_before := before.all_blank
  all_after := by
    have hspace : Text.isBlank ' ' = true := rfl
    have hfeed : Text.isBlank '\n' = true := rfl
    simp [after.all_blank, hspace, hfeed]
  digits_ne_nil := Nat.toDigits_ne_nil
  all_digits := List.all_eq_true.mpr fun _ => Decimal.isPlainDigit_of_mem_digits

theorem NumberLine.value_ofInt (n : Int) (before after : Padding) :
    (ofInt n before after).value = n := by
  rw [value, ofInt, Decimal.value_digits, Decimal.signed_signOf]

theorem toList_written {n : Int} (h : Decimal.isWritable n = true) :
    (written n).toList = (Decimal.signOf n).chars ++ Decimal.digits n.natAbs ++ [' '] := by
  rw [written_eq h, String.toList_append, Decimal.toList_text]
  rfl

theorem NumberLine.chars_ofInt {n : Int} (h : Decimal.isWritable n = true)
    (before after : Padding) : (ofInt n before after).chars
      = before.chars ++ (written n).toList ++ after.chars ++ ['\n'] := by
  rw [toList_written h, chars, ofInt]
  simp only [List.append_assoc, List.cons_append, List.nil_append]

theorem lineFeed_not_mem_written {n : Int} (h : Decimal.isWritable n = true) :
    '\n' ∉ (written n).toList := by
  intro hmem
  rw [toList_written h, List.mem_append] at hmem
  rcases hmem with hmem | hmem
  · -- a line feed is a blank, and there is none before the space
    let bare : Padding := ⟨[], rfl, by simp⟩
    have hblank := (NumberLine.ofInt n bare bare).isBlank_sign_digits hmem
    exact absurd hblank (by decide)
  · exact absurd hmem (by decide)

/-- **A number is taken for its line.** -/
theorem takes_number {n : Int} (h : Decimal.isWritable n = true) (before after : Padding) :
    Takes readNumber (Item.number n h before after).bytes n := by
  have hfeed : '\n' ∉ before.chars ++ (written n).toList ++ after.chars := by
    simp only [List.mem_append, not_or]
    exact ⟨⟨before.lineFeed_not_mem, lineFeed_not_mem_written h⟩, after.lineFeed_not_mem⟩
  have hfits : ¬ Decimal.digitLimit < (NumberLine.ofInt n before after).digits.length := by
    simpa [Decimal.isWritable, NumberLine.ofInt] using h
  refine takes_readNumber (Utf8.not_mem_encode_lineFeed hfeed) ?_
  calc lineNumber (Utf8.encode (before.chars ++ (written n).toList ++ after.chars) ++ [0x0A])
    _ = lineNumber (Utf8.encode (NumberLine.ofInt n before after).chars) := by
      rw [NumberLine.chars_ofInt h, Utf8.encode_append _ ['\n']]
      rfl
    _ = number (Text.trim Text.isBlank (NumberLine.ofInt n before after).chars) := by
      rw [lineNumber, Utf8.decode_encode]
    _ = .ok n := by
      rw [NumberLine.number_chars, if_neg hfits, NumberLine.value_ofInt]

theorem Item.takes (x : Item) : Takes (read x.request) x.bytes x.value := by
  rcases x with c | ⟨n, h, before, after⟩
  · exact (takes_utf8EncodeChar c).map fun c => (c.toNat : Int)
  · exact takes_number h before after

/-! ## Items in a row -/

/-- **Items of both kinds are read back in order**, and what follows them is left. -/
theorem readAll_bytes (items : List Item) (rest : List UInt8) (consumed : Nat) (ending : Ending) :
    readAll (items.map Item.request) ⟨items.flatMap Item.bytes ++ rest, consumed, ending⟩
      = (items.map fun x => .ok x.value,
        ⟨rest, consumed + (items.flatMap Item.bytes).length, ending⟩) := by
  induction items generalizing consumed with
  | nil => rfl
  | cons x items ih =>
    have hfirst := x.takes (items.flatMap Item.bytes ++ rest) consumed ending
    simp only [List.map_cons, List.flatMap_cons, List.append_assoc, readAll, hfirst, ih,
      List.length_append, Nat.add_assoc]

end Input

end PietLang
