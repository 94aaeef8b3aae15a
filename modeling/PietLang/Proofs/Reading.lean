import PietLang.Input

/-!
# Proofs/Reading — what a read takes, and what it does not look at

A read *takes* bytes for a value when it gives the value on every stream that begins with these
bytes, whatever follows them and wherever the stream stands, and leaves just what follows
(`Input.Takes`).

A character that was read was taken, since its lead announces its bytes.  A number that was read was
taken only if its line ended with a line feed: a line that ends with the input might have gone on.
Such a line leaves nothing unread, so a number was taken whenever something is left.
-/

namespace PietLang.Input

variable {α : Type} {read : Input → Except Error α × Input} {a : α} {bs rest : List UInt8}
  {i j : Input} {c : Char} {n : Int}

/-- The read gives `a` for the bytes `bs` and leaves what follows them. -/
def Takes (read : Input → Except Error α × Input) (bs : List UInt8) (a : α) : Prop :=
  ∀ (rest : List UInt8) (consumed : Nat) (ending : Ending),
    read ⟨bs ++ rest, consumed, ending⟩ = (.ok a, ⟨rest, consumed + bs.length, ending⟩)

/-- The bytes `bs` have been read from `i`, and `j` is left. -/
structure Follows (i : Input) (bs : List UInt8) (j : Input) : Prop where
  unread : i.unread = bs ++ j.unread
  consumed : j.consumed = i.consumed + bs.length
  ending : j.ending = i.ending

theorem follows_iff : i.Follows bs j ↔
    ∃ rest, i.unread = bs ++ rest ∧ j = ⟨rest, i.consumed + bs.length, i.ending⟩ := by
  constructor
  · rintro ⟨hunread, hconsumed, hending⟩
    exact ⟨j.unread, hunread, by rw [← hconsumed, ← hending]⟩
  · rintro ⟨rest, hunread, rfl⟩
    exact ⟨hunread, rfl, rfl⟩

theorem follows_advance (i : Input) (m : Nat) : i.Follows (i.unread.take m) (i.advance m) where
  unread := (List.take_append_drop m i.unread).symm
  consumed := by simp [advance]
  ending := rfl

theorem Follows.refl (i : Input) : i.Follows [] i := ⟨rfl, rfl, rfl⟩

theorem Follows.trans {k : Input} {cs : List UInt8} (h : i.Follows bs j) (h' : j.Follows cs k) :
    i.Follows (bs ++ cs) k where
  unread := by rw [h.unread, h'.unread, List.append_assoc]
  consumed := by rw [h'.consumed, h.consumed, List.length_append, Nat.add_assoc]
  ending := h'.ending.trans h.ending

theorem advance_append (bs rest : List UInt8) (consumed : Nat) (ending : Ending) :
    (⟨bs ++ rest, consumed, ending⟩ : Input).advance bs.length
      = ⟨rest, consumed + bs.length, ending⟩ := by
  simp [advance]

theorem advance_of_unread_eq_nil (h : i.unread = []) (m : Nat) : i.advance m = i := by
  obtain ⟨unread, consumed, ending⟩ := i
  obtain rfl : unread = [] := h
  simp [advance]

/-- Nothing lies beyond the end. -/
theorem advance_min (i : Input) (m : Nat) :
    i.advance (min m i.unread.length) = i.advance m := by
  rw [advance, advance, Nat.min_assoc, Nat.min_self, ← List.drop_eq_drop_min]

/-! ## What is left

A read moves on by bytes that it can count beforehand, whether it fails or not. -/

/-- A line goes up to the first line feed, or to the end where there is none. -/
theorem line_eq_take (bs : List UInt8) : line bs = bs.take (bs.idxOf 0x0A + 1) := by
  induction bs with
  | nil => rfl
  | cons b bs ih =>
    by_cases hb : b = 0x0A
    · rw [line, if_pos hb, hb, List.idxOf_cons_self]
      rfl
    · rw [line, if_neg hb, List.idxOf_cons, beq_false_of_ne hb, ih]
      rfl

/-- A character takes the bytes that its lead announces, and the lead alone if it announces none. -/
theorem readChar_snd (i : Input) :
    i.readChar.2 = i.advance ((i.unread.head?.bind announced?).getD 1) := by
  rw [readChar]
  split
  · next hunread => exact (advance_of_unread_eq_nil hunread _).symm
  next lead rest hunread =>
  rw [hunread, List.head?_cons, Option.bind_some]
  split
  · next hlead => rw [hlead, Option.getD_none]
  next m hlead =>
  rw [hlead, Option.getD_some]
  split <;> rfl

/-- A number takes a whole line. -/
theorem readNumber_snd (i : Input) : i.readNumber.2 = i.advance (i.unread.idxOf 0x0A + 1) := by
  have hlength : i.advance (line i.unread).length = i.advance (i.unread.idxOf 0x0A + 1) := by
    rw [line_eq_take, List.length_take, advance_min]
  rw [← hlength, readNumber]
  split
  · next hline =>
    rw [hline, List.length_nil]
    rfl
  · rfl

/-- What a read leaves follows what it found, whether it fails or not. -/
theorem exists_follows_readChar (i : Input) : ∃ bs, i.Follows bs i.readChar.2 := by
  rw [readChar_snd]
  exact ⟨_, i.follows_advance _⟩

theorem exists_follows_readNumber (i : Input) : ∃ bs, i.Follows bs i.readNumber.2 := by
  rw [readNumber_snd]
  exact ⟨_, i.follows_advance _⟩

/-! ## Characters -/

/-- The bytes that a lead announces are taken for the character that they decode to. -/
theorem takes_readChar {lead : UInt8} {tail : List UInt8}
    (hlead : announced? lead = some (tail.length + 1))
    (hdecode : decodeCharacter (lead :: tail) = .ok c) : Takes readChar (lead :: tail) c := by
  intro rest consumed ending
  have hlength : ¬ (tail ++ rest).length < tail.length := by simp
  simp only [readChar, List.cons_append, hlead, Nat.add_sub_cancel, if_neg hlength,
    List.take_left', hdecode]
  exact congrArg _ (advance_append (lead :: tail) rest consumed ending)

theorem pos_of_announced? {lead : UInt8} {m : Nat} (h : announced? lead = some m) : 0 < m := by
  simp only [announced?] at h
  grind

/-- A lead announces itself and the bytes that are taken after it. -/
theorem announced?_eq_length_take {lead : UInt8} {rest : List UInt8} {m : Nat}
    (hlead : announced? lead = some m) (hlength : ¬ rest.length < m - 1) :
    announced? lead = some ((rest.take (m - 1)).length + 1) := by
  have hpos := pos_of_announced? hlead
  rw [hlead, List.length_take]
  congr
  omega

/-- The bytes of a character that was read: a lead and the rest that it announces, decoded
together. -/
theorem exists_announced_of_readChar (h : i.readChar = (.ok c, j)) : ∃ lead tail,
    i.Follows (lead :: tail) j ∧ announced? lead = some (tail.length + 1) ∧
      decodeCharacter (lead :: tail) = .ok c := by
  rw [readChar] at h
  split at h
  · cases h
  next lead tail hunread =>
  split at h
  · cases h
  next m hlead =>
  split at h
  · cases h
  next hlength =>
  obtain ⟨hdecode, rfl⟩ := Prod.mk.inj h
  have hpos := pos_of_announced? hlead
  have htake : i.unread.take m = lead :: tail.take (m - 1) := by
    rw [hunread, List.take_cons hpos]
  refine ⟨lead, tail.take (m - 1), ?_, announced?_eq_length_take hlead hlength, hdecode⟩
  rw [← htake]
  exact i.follows_advance m

/-- **A character that was read was taken.** -/
theorem exists_takes_of_readChar (h : i.readChar = (.ok c, j)) :
    ∃ bs, i.Follows bs j ∧ Takes readChar bs c := by
  obtain ⟨lead, tail, hfollows, hlead, hdecode⟩ := exists_announced_of_readChar h
  exact ⟨lead :: tail, hfollows, takes_readChar hlead hdecode⟩

/-! ## Numbers -/

/-- A line is all bytes up to the first line feed, or all that there are. -/
theorem line_cases (bs : List UInt8) :
    line bs = bs ∨ ∃ l rest, 0x0A ∉ l ∧ bs = l ++ [0x0A] ++ rest ∧ line bs = l ++ [0x0A] := by
  induction bs with
  | nil => exact Or.inl rfl
  | cons b bs ih =>
    by_cases hb : b = 0x0A
    · exact Or.inr ⟨[], bs, List.not_mem_nil, by rw [hb]; rfl, by rw [line, if_pos hb, hb]; rfl⟩
    · rw [line, if_neg hb]
      rcases ih with hall | ⟨l, rest, hl, hbs, hline⟩
      · exact Or.inl (by rw [hall])
      · refine Or.inr ⟨b :: l, rest, ?_, by rw [hbs]; rfl, by rw [hline]; rfl⟩
        exact List.not_mem_cons_of_ne_of_not_mem (Ne.symm hb) hl

theorem line_append (hbs : 0x0A ∉ bs) (rest : List UInt8) :
    line (bs ++ [0x0A] ++ rest) = bs ++ [0x0A] := by
  induction bs with
  | nil => rfl
  | cons b bs ih =>
    rw [List.mem_cons, not_or] at hbs
    rw [List.cons_append, List.cons_append, line, if_neg (Ne.symm hbs.1), ih hbs.2]

/-- A line with its line feed is taken for its number. -/
theorem takes_readNumber (hbs : 0x0A ∉ bs) (hnumber : lineNumber (bs ++ [0x0A]) = .ok n) :
    Takes readNumber (bs ++ [0x0A]) n := by
  intro rest consumed ending
  simp only [readNumber, line_append hbs]
  split
  · next hnil => exact absurd hnil (by simp)
  · rw [hnumber, advance_append]

/-- **A number that was read was taken, if something is left.** -/
theorem exists_takes_of_readNumber (h : i.readNumber = (.ok n, j)) (hmore : j.unread ≠ []) :
    ∃ bs, i.Follows bs j ∧ Takes readNumber bs n := by
  rw [readNumber] at h
  split at h
  · cases h
  obtain ⟨hnumber, rfl⟩ := Prod.mk.inj h
  rcases line_cases i.unread with hall | ⟨l, rest, hl, hunread, hline⟩
  · refine absurd ?_ hmore
    rw [hall, advance, List.drop_length]
  · rw [hline] at hnumber ⊢
    have hfollows := i.follows_advance (l ++ [0x0A]).length
    rw [hunread, List.take_left' rfl] at hfollows
    exact ⟨_, hfollows, takes_readNumber hl hnumber⟩

end PietLang.Input
