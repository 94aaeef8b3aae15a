import PietLang.Text.Utf8

/-!
# Proofs/Utf8 — the decoder reads back what is encoded, and nothing else

The standard encoding of a character has one to four bytes.  Between characters the decoder takes
each of the four forms for its character and stands between characters again
(`decodeFrom_utf8EncodeChar`), so it reads back every encoded text.

A lead byte may narrow the range of the byte after it.  An encoded character keeps within the narrow
range because it is encoded in the shortest form, is no surrogate and is not past the last code
point.  Conversely, bytes that keep within their ranges are the encoding of the character that they
are taken for, so a text that is decoded begins with one (`exists_utf8EncodeChar`), and goes on so
to its end.
-/

namespace PietLang.Utf8

/-- The bytes of a text in UTF-8. -/
def encode (cs : List Char) : List UInt8 := cs.flatMap String.utf8EncodeChar

/-- A byte that goes on with a sequence. -/
def IsTail (b : UInt8) : Prop := 0x80 ≤ b.toNat ∧ b.toNat ≤ 0xBF

/-- The byte is in the range of the next one. -/
def Sequence.Admits (s : Sequence) (b : UInt8) : Prop :=
  s.low.toNat ≤ b.toNat ∧ b.toNat ≤ s.high.toNat

variable {b b₁ b₂ b₃ b₄ : UInt8} {s : Sequence} {bs : List UInt8} {cs : List Char}
  {n position : Nat}

/-! ## Lead bytes -/

theorem open?_of_two (hlow : 0xC2 ≤ b.toNat) (hhigh : b.toNat ≤ 0xDF) :
    Sequence.open? b = some ⟨b, 1, 0, 0x80, 0xBF, b.toNat - 0xC0⟩ :=
  if_pos ⟨UInt8.le_iff_toNat_le.mpr hlow, UInt8.le_iff_toNat_le.mpr hhigh⟩

theorem open?_of_three (hlow : 0xE0 ≤ b.toNat) (hhigh : b.toNat ≤ 0xEF) :
    Sequence.open? b = some ⟨b, 1, 1, if b.toNat = 0xE0 then 0xA0 else 0x80,
      if b.toNat = 0xED then 0x9F else 0xBF, b.toNat - 0xE0⟩ := by
  simp only [Sequence.open?, UInt8.le_iff_toNat_le, ← UInt8.toNat_inj, UInt8.reduceToNat]
  grind

theorem open?_of_four (hlow : 0xF0 ≤ b.toNat) (hhigh : b.toNat ≤ 0xF4) :
    Sequence.open? b = some ⟨b, 1, 2, if b.toNat = 0xF0 then 0x90 else 0x80,
      if b.toNat = 0xF4 then 0x8F else 0xBF, b.toNat - 0xF0⟩ := by
  simp only [Sequence.open?, UInt8.le_iff_toNat_le, ← UInt8.toNat_inj, UInt8.reduceToNat]
  grind

/-- A range is narrowed at one end or the other, under conditions on the lead byte. -/
theorem admits_narrowed {P Q : Prop} [Decidable P] [Decidable Q] {low high first : UInt8}
    {taken more code : Nat} (h : IsTail b) (hlow : P → low.toNat ≤ b.toNat)
    (hhigh : Q → b.toNat ≤ high.toNat) :
    Sequence.Admits ⟨first, taken, more, if P then low else 0x80, if Q then high else 0xBF, code⟩
      b := by
  constructor
  · dsimp only
    split
    · exact hlow ‹P›
    · exact h.1
  · dsimp only
    split
    · exact hhigh ‹Q›
    · exact h.2

/-! ## One byte -/

theorem decodeFrom_one (h : b.toNat < 0x80) : decodeFrom position none (b :: bs)
    = (decodeFrom (position + 1) none bs).map (Char.ofNat b.toNat :: ·) := by
  rw [decodeFrom, if_pos (UInt8.lt_iff_toNat_lt.mpr h)]

theorem decodeFrom_lead (h : 0x80 ≤ b.toNat) (hs : Sequence.open? b = some s) :
    decodeFrom position none (b :: bs) = decodeFrom (position + 1) (some s) bs := by
  have hlong : ¬ b < 0x80 := by simpa [UInt8.lt_iff_toNat_lt] using h
  rw [decodeFrom, if_neg hlong, hs]

theorem decodeFrom_inside (h : s.Admits b) (hmore : s.more ≠ 0) :
    decodeFrom position (some s) (b :: bs) = decodeFrom (position + 1) (some (s.next b)) bs := by
  rw [decodeFrom, if_pos ⟨UInt8.le_iff_toNat_le.mpr h.1, UInt8.le_iff_toNat_le.mpr h.2⟩,
    if_neg hmore]

theorem decodeFrom_last (h : s.Admits b) (hmore : s.more = 0) :
    decodeFrom position (some s) (b :: bs)
      = (decodeFrom (position + 1) none bs).map (Char.ofNat (s.codeWith b) :: ·) := by
  rw [decodeFrom, if_pos ⟨UInt8.le_iff_toNat_le.mpr h.1, UInt8.le_iff_toNat_le.mpr h.2⟩,
    if_pos hmore]

/-! ## One character -/

theorem decodeFrom_two (h₁ : 0xC2 ≤ b₁.toNat ∧ b₁.toNat ≤ 0xDF) (h₂ : IsTail b₂) :
    decodeFrom position none (b₁ :: b₂ :: bs) = (decodeFrom (position + 2) none bs).map
      (Char.ofNat ((b₁.toNat - 0xC0) * 64 + (b₂.toNat - 0x80)) :: ·) :=
  calc decodeFrom position none (b₁ :: b₂ :: bs)
    _ = _ := decodeFrom_lead (by omega) (open?_of_two h₁.1 h₁.2)
    _ = _ := decodeFrom_last h₂ rfl

theorem decodeFrom_three (h₁ : 0xE0 ≤ b₁.toNat ∧ b₁.toNat ≤ 0xEF) (h₂ : IsTail b₂)
    (hshort : b₁.toNat = 0xE0 → 0xA0 ≤ b₂.toNat) (hsurrogate : b₁.toNat = 0xED → b₂.toNat ≤ 0x9F)
    (h₃ : IsTail b₃) :
    decodeFrom position none (b₁ :: b₂ :: b₃ :: bs) = (decodeFrom (position + 3) none bs).map
      (Char.ofNat (((b₁.toNat - 0xE0) * 64 + (b₂.toNat - 0x80)) * 64 + (b₃.toNat - 0x80)) :: ·) :=
  calc decodeFrom position none (b₁ :: b₂ :: b₃ :: bs)
    _ = _ := decodeFrom_lead (by omega) (open?_of_three h₁.1 h₁.2)
    _ = _ := decodeFrom_inside (admits_narrowed h₂ hshort hsurrogate) (Nat.succ_ne_zero 0)
    _ = _ := decodeFrom_last h₃ rfl

theorem decodeFrom_four (h₁ : 0xF0 ≤ b₁.toNat ∧ b₁.toNat ≤ 0xF4) (h₂ : IsTail b₂)
    (hshort : b₁.toNat = 0xF0 → 0x90 ≤ b₂.toNat) (hpast : b₁.toNat = 0xF4 → b₂.toNat ≤ 0x8F)
    (h₃ : IsTail b₃) (h₄ : IsTail b₄) :
    decodeFrom position none (b₁ :: b₂ :: b₃ :: b₄ :: bs)
      = (decodeFrom (position + 4) none bs).map (Char.ofNat
        ((((b₁.toNat - 0xF0) * 64 + (b₂.toNat - 0x80)) * 64 + (b₃.toNat - 0x80)) * 64
          + (b₄.toNat - 0x80)) :: ·) :=
  calc decodeFrom position none (b₁ :: b₂ :: b₃ :: b₄ :: bs)
    _ = _ := decodeFrom_lead (by omega) (open?_of_four h₁.1 h₁.2)
    _ = _ := decodeFrom_inside (admits_narrowed h₂ hshort hpast) (Nat.succ_ne_zero 1)
    _ = _ := decodeFrom_inside h₃ (Nat.succ_ne_zero 0)
    _ = _ := decodeFrom_last h₄ rfl

theorem toNat_ofNat_tail (n : Nat) : (UInt8.ofNat (n % 64 + 128)).toNat = n % 64 + 128 := by
  rw [UInt8.toNat_ofNat']
  omega

theorem isTail_ofNat (n : Nat) : IsTail (UInt8.ofNat (n % 64 + 128)) := by
  rw [IsTail, toNat_ofNat_tail]
  omega

/-- **Between characters, the encoding of a character is taken for it.** -/
theorem decodeFrom_utf8EncodeChar (position : Nat) (c : Char) (bs : List UInt8) :
    decodeFrom position none (String.utf8EncodeChar c ++ bs)
      = (decodeFrom (position + (String.utf8EncodeChar c).length) none bs).map (c :: ·) := by
  have hvalid : c.val.toNat < 0xD800 ∨ 0xDFFF < c.val.toNat ∧ c.val.toNat < 0x110000 := c.valid
  have hchar : Char.ofNat c.val.toNat = c := Char.ofNat_toNat c
  generalize hv : c.val.toNat = v at hvalid hchar
  simp only [String.utf8EncodeChar, hv]
  split
  · have hlead : (UInt8.ofNat v).toNat = v := by rw [UInt8.toNat_ofNat']; omega
    rw [List.singleton_append, decodeFrom_one (by omega), hlead, hchar]
    simp only [List.length_cons, List.length_nil]
  split
  · have hlead : (UInt8.ofNat (v / 64 % 32 + 192)).toNat = v / 64 % 32 + 192 := by
      rw [UInt8.toNat_ofNat']
      omega
    have hcode : (v / 64 % 32 + 192 - 0xC0) * 64 + (v % 64 + 128 - 0x80) = v := by omega
    rw [List.cons_append, List.singleton_append, decodeFrom_two (by omega) (isTail_ofNat v)]
    simp only [hlead, toNat_ofNat_tail, hcode, hchar, List.length_cons, List.length_nil]
  split
  · have hlead : (UInt8.ofNat (v / 4096 % 16 + 224)).toNat = v / 4096 % 16 + 224 := by
      rw [UInt8.toNat_ofNat']
      omega
    have hcode : ((v / 4096 % 16 + 224 - 0xE0) * 64 + (v / 64 % 64 + 128 - 0x80)) * 64
        + (v % 64 + 128 - 0x80) = v := by omega
    have hsecond := toNat_ofNat_tail (v / 64)
    rw [List.cons_append, List.cons_append, List.singleton_append,
      decodeFrom_three (by omega) (isTail_ofNat _) (by omega) (by omega) (isTail_ofNat v)]
    simp only [hlead, toNat_ofNat_tail, hcode, hchar, List.length_cons, List.length_nil]
  · have hlead : (UInt8.ofNat (v / 262144 % 8 + 240)).toNat = v / 262144 % 8 + 240 := by
      rw [UInt8.toNat_ofNat']
      omega
    have hcode : (((v / 262144 % 8 + 240 - 0xF0) * 64 + (v / 4096 % 64 + 128 - 0x80)) * 64
        + (v / 64 % 64 + 128 - 0x80)) * 64 + (v % 64 + 128 - 0x80) = v := by omega
    have hsecond := toNat_ofNat_tail (v / 4096)
    rw [List.cons_append, List.cons_append, List.cons_append, List.singleton_append,
      decodeFrom_four (by omega) (isTail_ofNat _) (by omega) (by omega) (isTail_ofNat _)
        (isTail_ofNat v)]
    simp only [hlead, toNat_ofNat_tail, hcode, hchar, List.length_cons, List.length_nil]

/-! ## Texts -/

theorem encode_append (cs ds : List Char) : encode (cs ++ ds) = encode cs ++ encode ds :=
  List.flatMap_append

theorem decodeFrom_encode (cs : List Char) : ∀ position : Nat,
    decodeFrom position none (encode cs) = .ok cs := by
  induction cs with
  | nil =>
    intro position
    rfl
  | cons c cs ih =>
    intro position
    have hcons : encode (c :: cs) = String.utf8EncodeChar c ++ encode cs := List.flatMap_cons
    rw [hcons, decodeFrom_utf8EncodeChar, ih]
    rfl

/-- **A text is read back from its bytes.** -/
theorem decode_encode (cs : List Char) : decode (encode cs) = .ok cs := decodeFrom_encode cs 0

/-! ## Nothing else is decoded -/

theorem toNat_val_ofNat (h : n.isValidChar) : (Char.ofNat n).val.toNat = n := by
  rw [Char.ofNat, dif_pos h]
  rfl

theorem utf8EncodeChar_one (h : b.toNat < 0x80) :
    String.utf8EncodeChar (Char.ofNat b.toNat) = [b] := by
  have hval : (Char.ofNat b.toNat).val.toNat = b.toNat := toNat_val_ofNat (Or.inl (by omega))
  simp only [String.utf8EncodeChar, hval]
  rw [if_pos (by omega), UInt8.ofNat_toNat]

theorem utf8EncodeChar_two (h₁ : 0xC2 ≤ b₁.toNat ∧ b₁.toNat ≤ 0xDF) (h₂ : IsTail b₂) :
    String.utf8EncodeChar (Char.ofNat ((b₁.toNat - 0xC0) * 64 + (b₂.toNat - 0x80)))
      = [b₁, b₂] := by
  obtain ⟨hlow₂, hhigh₂⟩ := h₂
  generalize hv : (b₁.toNat - 0xC0) * 64 + (b₂.toNat - 0x80) = v
  have hval : (Char.ofNat v).val.toNat = v := toNat_val_ofNat (Or.inl (by omega))
  have hfirst : v / 64 % 32 + 192 = b₁.toNat := by omega
  have hsecond : v % 64 + 128 = b₂.toNat := by omega
  simp only [String.utf8EncodeChar, hval]
  rw [if_neg (by omega), if_pos (by omega), hfirst, hsecond, UInt8.ofNat_toNat, UInt8.ofNat_toNat]

theorem utf8EncodeChar_three (h₁ : 0xE0 ≤ b₁.toNat ∧ b₁.toNat ≤ 0xEF) (h₂ : IsTail b₂)
    (hshort : b₁.toNat = 0xE0 → 0xA0 ≤ b₂.toNat) (hsurrogate : b₁.toNat = 0xED → b₂.toNat ≤ 0x9F)
    (h₃ : IsTail b₃) :
    String.utf8EncodeChar (Char.ofNat
      (((b₁.toNat - 0xE0) * 64 + (b₂.toNat - 0x80)) * 64 + (b₃.toNat - 0x80))) = [b₁, b₂, b₃] := by
  obtain ⟨hlow₂, hhigh₂⟩ := h₂
  obtain ⟨hlow₃, hhigh₃⟩ := h₃
  generalize hv : ((b₁.toNat - 0xE0) * 64 + (b₂.toNat - 0x80)) * 64 + (b₃.toNat - 0x80) = v
  -- a lead of `0xED` stays below the surrogates, and a greater one is past them
  have hvalid : v < 0xD800 ∨ 0xDFFF < v ∧ v < 0x110000 := by omega
  have hval : (Char.ofNat v).val.toNat = v := toNat_val_ofNat hvalid
  have hfirst : v / 4096 % 16 + 224 = b₁.toNat := by omega
  have hsecond : v / 64 % 64 + 128 = b₂.toNat := by omega
  have hthird : v % 64 + 128 = b₃.toNat := by omega
  simp only [String.utf8EncodeChar, hval]
  rw [if_neg (by omega), if_neg (by omega), if_pos (by omega), hfirst, hsecond, hthird,
    UInt8.ofNat_toNat, UInt8.ofNat_toNat, UInt8.ofNat_toNat]

theorem utf8EncodeChar_four (h₁ : 0xF0 ≤ b₁.toNat ∧ b₁.toNat ≤ 0xF4) (h₂ : IsTail b₂)
    (hshort : b₁.toNat = 0xF0 → 0x90 ≤ b₂.toNat) (hpast : b₁.toNat = 0xF4 → b₂.toNat ≤ 0x8F)
    (h₃ : IsTail b₃) (h₄ : IsTail b₄) :
    String.utf8EncodeChar (Char.ofNat
      ((((b₁.toNat - 0xF0) * 64 + (b₂.toNat - 0x80)) * 64 + (b₃.toNat - 0x80)) * 64
        + (b₄.toNat - 0x80))) = [b₁, b₂, b₃, b₄] := by
  obtain ⟨hlow₂, hhigh₂⟩ := h₂
  obtain ⟨hlow₃, hhigh₃⟩ := h₃
  obtain ⟨hlow₄, hhigh₄⟩ := h₄
  generalize hv : (((b₁.toNat - 0xF0) * 64 + (b₂.toNat - 0x80)) * 64 + (b₃.toNat - 0x80)) * 64
    + (b₄.toNat - 0x80) = v
  have hvalid : 0xDFFF < v ∧ v < 0x110000 := by omega
  have hval : (Char.ofNat v).val.toNat = v := toNat_val_ofNat (Or.inr hvalid)
  have hfirst : v / 262144 % 8 + 240 = b₁.toNat := by omega
  have hsecond : v / 4096 % 64 + 128 = b₂.toNat := by omega
  have hthird : v / 64 % 64 + 128 = b₃.toNat := by omega
  have hfourth : v % 64 + 128 = b₄.toNat := by omega
  simp only [String.utf8EncodeChar, hval]
  rw [if_neg (by omega), if_neg (by omega), if_neg (by omega), hfirst, hsecond, hthird, hfourth,
    UInt8.ofNat_toNat, UInt8.ofNat_toNat, UInt8.ofNat_toNat, UInt8.ofNat_toNat]

/-- The lead bytes of the three longer forms. -/
theorem open?_cases (h : Sequence.open? b = some s) :
    (0xC2 ≤ b.toNat ∧ b.toNat ≤ 0xDF) ∨ (0xE0 ≤ b.toNat ∧ b.toNat ≤ 0xEF) ∨
      (0xF0 ≤ b.toNat ∧ b.toNat ≤ 0xF4) := by
  simp only [Sequence.open?, UInt8.le_iff_toNat_le, ← UInt8.toNat_inj, UInt8.reduceToNat] at h
  grind

/-- A byte in a narrowed range goes on with the sequence and keeps to the narrow end. -/
theorem narrowed_of_admits {P Q : Prop} [Decidable P] [Decidable Q] {low high first : UInt8}
    {taken more code : Nat} (hlow : 0x80 ≤ low.toNat) (hhigh : high.toNat ≤ 0xBF)
    (h : Sequence.Admits
      ⟨first, taken, more, if P then low else 0x80, if Q then high else 0xBF, code⟩ b) :
    IsTail b ∧ (P → low.toNat ≤ b.toNat) ∧ (Q → b.toNat ≤ high.toNat) := by
  obtain ⟨hleast, hgreatest⟩ := h
  dsimp only at hleast hgreatest
  rw [apply_ite UInt8.toNat] at hleast hgreatest
  simp only [IsTail, UInt8.reduceToNat] at *
  grind

/-- Inside a sequence, a text that is decoded goes on with a byte in its range. -/
theorem exists_admits (h : decodeFrom position (some s) bs = .ok cs) :
    ∃ b rest, bs = b :: rest ∧ s.Admits b := by
  rcases bs with _ | ⟨b, rest⟩
  · cases h
  · rw [decodeFrom] at h
    split at h
    · next hrange =>
      exact ⟨b, rest, rfl, UInt8.le_iff_toNat_le.mp hrange.1, UInt8.le_iff_toNat_le.mp hrange.2⟩
    · cases h

/-- **Between characters, a text that is decoded goes on with the encoding of a character.** -/
theorem exists_utf8EncodeChar (h : decodeFrom position none (b :: bs) = .ok cs) :
    ∃ c rest, b :: bs = String.utf8EncodeChar c ++ rest := by
  by_cases hone : b.toNat < 0x80
  · exact ⟨_, bs, by rw [utf8EncodeChar_one hone]; rfl⟩
  rcases hopen : Sequence.open? b with _ | s
  · have hlong : ¬ b < 0x80 := by rwa [UInt8.lt_iff_toNat_lt]
    rw [decodeFrom, if_neg hlong, hopen] at h
    cases h
  rw [decodeFrom_lead (by omega) hopen] at h
  obtain ⟨b₂, bs₂, rfl, h₂⟩ := exists_admits h
  rcases open?_cases hopen with hb | hb | hb
  · obtain rfl := Option.some.inj (hopen.symm.trans (open?_of_two hb.1 hb.2))
    exact ⟨_, bs₂, by rw [utf8EncodeChar_two hb h₂]; rfl⟩
  · obtain rfl := Option.some.inj (hopen.symm.trans (open?_of_three hb.1 hb.2))
    rw [decodeFrom_inside h₂ (Nat.succ_ne_zero 0)] at h
    obtain ⟨b₃, bs₃, rfl, h₃⟩ := exists_admits h
    obtain ⟨htail, hshort, hsurrogate⟩ := narrowed_of_admits (by decide) (by decide) h₂
    exact ⟨_, bs₃, by rw [utf8EncodeChar_three hb htail hshort hsurrogate h₃]; rfl⟩
  · obtain rfl := Option.some.inj (hopen.symm.trans (open?_of_four hb.1 hb.2))
    rw [decodeFrom_inside h₂ (Nat.succ_ne_zero 1)] at h
    obtain ⟨b₃, bs₃, rfl, h₃⟩ := exists_admits h
    rw [decodeFrom_inside h₃ (Nat.succ_ne_zero 0)] at h
    obtain ⟨b₄, bs₄, rfl, h₄⟩ := exists_admits h
    obtain ⟨htail, hshort, hpast⟩ := narrowed_of_admits (by decide) (by decide) h₂
    exact ⟨_, bs₄, by rw [utf8EncodeChar_four hb htail hshort hpast h₃ h₄]; rfl⟩

theorem eq_encode_of_decodeFrom (h : decodeFrom position none bs = .ok cs) : bs = encode cs := by
  -- on the length, since a character takes up to four bytes
  induction hlength : bs.length using Nat.strongRecOn generalizing bs cs position with
  | ind n ih =>
    rcases bs with _ | ⟨b, bs⟩
    · obtain rfl := Except.ok.inj h
      rfl
    · obtain ⟨c, rest, hbs⟩ := exists_utf8EncodeChar h
      rw [hbs, decodeFrom_utf8EncodeChar] at h
      rcases hrest : decodeFrom (position + (String.utf8EncodeChar c).length) none rest with
        fault | cs'
      · rw [hrest] at h
        cases h
      · rw [hrest] at h
        obtain rfl := Except.ok.inj h
        have hshorter : rest.length < n := by
          have hpos := List.length_pos_iff.mpr (@String.utf8EncodeChar_ne_nil c)
          rw [← hlength, hbs, List.length_append]
          omega
        rw [hbs, ih _ hshorter hrest rfl]
        exact List.flatMap_cons.symm

/-- **The texts that are decoded are those that are encoded**, each to its characters. -/
theorem decode_eq_ok_iff : decode bs = .ok cs ↔ bs = encode cs := by
  constructor
  · exact eq_encode_of_decodeFrom
  · rintro rfl
    exact decode_encode cs

/-! ## Line feeds -/

/-- A line feed is one byte, and that byte is in the encoding of no other character. -/
theorem mem_utf8EncodeChar_lineFeed {c : Char} (h : 0x0A ∈ String.utf8EncodeChar c) :
    c = '\n' := by
  have hten : (0x0A : UInt8).toNat = 10 := rfl
  have hcode : c.val.toNat = 10 := by
    simp only [String.utf8EncodeChar] at h
    repeat' split at h
    -- the bytes of the longer forms are all beyond those of the short one
    all_goals
      simp only [List.mem_cons, List.not_mem_nil, or_false, ← UInt8.toNat_inj, hten,
        UInt8.toNat_ofNat'] at h
      omega
  rw [← Char.ofNat_toNat c, Char.toNat, hcode]

theorem not_mem_encode_lineFeed {cs : List Char} (h : '\n' ∉ cs) : 0x0A ∉ encode cs := by
  intro hmem
  obtain ⟨c, hc, hbyte⟩ := List.mem_flatMap.mp hmem
  exact h (mem_utf8EncodeChar_lineFeed hbyte ▸ hc)

end PietLang.Utf8
