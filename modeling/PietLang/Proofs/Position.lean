import PietLang.Proofs.Failures
import PietLang.Proofs.ReadBack

/-!
# Proofs/Position — where a stream stands after any reads

How far a read moves is known before it is made, and does not depend on whether it fails
(`read_snd`).  A read of a number moves past the next line feed, a read of a character over the
bytes that the lead announces, and both stop at the end.  So the stream always stands inside its
bytes, every read that finds a byte takes one (`Request.moves_pos`), and there are no more such
reads than bytes (`length_unread_readAll`).
-/

namespace PietLang.Input

variable {bs : List UInt8} {i : Input} {q : Request}

/-- The length of the sequence that a byte announces by its leading bits.  A byte that announces
none counts for itself. -/
def sequenceLength (lead : UInt8) : Nat :=
  if lead &&& 0x80 = 0x00 then 1
  else if lead &&& 0xE0 = 0xC0 then 2
  else if lead &&& 0xF0 = 0xE0 then 3
  else if lead &&& 0xF8 = 0xF0 then 4
  else 1

theorem getD_announced? (lead : UInt8) : (announced? lead).getD 1 = sequenceLength lead := by
  have hall : ∀ n < 256, (announced? (.ofNat n)).getD 1 = sequenceLength (.ofNat n) := by
    decide +kernel
  rw [← UInt8.ofNat_toNat (x := lead)]
  exact hall _ lead.toNat_lt

namespace Request

/-- The number of bytes that a read moves on by, given the bytes ahead. -/
def moves : Request → List UInt8 → Nat
  | .char, [] => 0
  | .char, lead :: rest => min (sequenceLength lead) (lead :: rest).length
  | .number, bs => min (bs.idxOf 0x0A + 1) bs.length

/-- The error of a read that finds no byte. -/
def ended : Request → Error
  | .char => .endOfCharacter
  | .number => .endOfNumber

theorem moves_le (q : Request) (bs : List UInt8) : q.moves bs ≤ bs.length := by
  unfold moves
  split
  · exact Nat.le_refl _
  · exact Nat.min_le_right _ _
  · exact Nat.min_le_right _ _

theorem moves_pos (q : Request) (h : bs ≠ []) : 0 < q.moves bs := by
  unfold moves
  split
  · exact absurd rfl h
  · next lead rest =>
    have hsequence : 0 < sequenceLength lead := by
      unfold sequenceLength
      grind
    exact Nat.lt_min.mpr ⟨hsequence, Nat.succ_pos _⟩
  · exact Nat.lt_min.mpr ⟨Nat.succ_pos _, List.length_pos_iff.mpr h⟩

end Request

/-! ## One read -/

/-- **A read moves on by bytes that are known beforehand**, whether it fails or not. -/
theorem read_snd (i : Input) (q : Request) : (i.read q).2 = i.advance (q.moves i.unread) := by
  rcases q with _ | _
  · calc i.readChar.2
      _ = i.advance ((i.unread.head?.bind announced?).getD 1) := i.readChar_snd
      _ = i.advance (Request.char.moves i.unread) := by
        rcases hunread : i.unread with _ | ⟨lead, rest⟩
        · rw [advance_of_unread_eq_nil hunread, advance_of_unread_eq_nil hunread]
        · rw [List.head?_cons, Option.bind_some, getD_announced?, Request.moves, ← hunread,
            advance_min]
  · exact i.readNumber_snd.trans (i.advance_min _).symm

theorem consumed_read (q : Request) (i : Input) :
    (i.read q).2.consumed = i.consumed + q.moves i.unread := by
  rw [read_snd, advance, Nat.min_eq_left (q.moves_le _)]

theorem exists_follows_read (q : Request) (i : Input) : ∃ bs, i.Follows bs (i.read q).2 := by
  rw [read_snd]
  exact ⟨_, i.follows_advance _⟩

theorem length_unread_read (q : Request) (i : Input) :
    (i.read q).2.unread.length ≤ i.unread.length - 1 := by
  rw [read_snd, advance, List.length_drop]
  by_cases hunread : i.unread = []
  · simp [hunread]
  · have hpos := q.moves_pos hunread
    omega

theorem readChar_eq_ended_iff (hclosed : i.ending = .closed) :
    i.readChar.1 = .error .endOfCharacter ↔ i.unread = [] := by
  rw [readChar]
  split
  · next hunread => simp [hunread, atEnd_of_closed hclosed]
  next lead rest hunread =>
  refine iff_of_false ?_ (by simp [hunread])
  split
  · simp
  split
  · simp [atEnd_of_closed hclosed]
  · simp only [decodeCharacter]
    split <;> simp

theorem line_eq_nil_iff : line bs = [] ↔ bs = [] := by
  rw [line_eq_take]
  simp

theorem readNumber_eq_ended_iff (hclosed : i.ending = .closed) :
    i.readNumber.1 = .error .endOfNumber ↔ i.unread = [] := by
  rw [readNumber, ← line_eq_nil_iff]
  split
  · next hline => simp [hline, atEnd_of_closed hclosed]
  next hline =>
  refine iff_of_false ?_ hline
  rw [lineNumber]
  split
  · simp
  · simp only [number]
    split <;> grind

/-- **A read fails for the end of the input just where no byte is left.** -/
theorem read_eq_ended_iff (hclosed : i.ending = .closed) :
    (i.read q).1 = .error q.ended ↔ i.unread = [] := by
  rcases q with _ | _
  · rw [← readChar_eq_ended_iff hclosed, read]
    rcases i.readChar with ⟨_ | _, _⟩ <;> simp [Except.map, Request.ended]
  · exact readNumber_eq_ended_iff hclosed

/-- A read that finds no byte changes nothing. -/
theorem read_of_unread_eq_nil (hclosed : i.ending = .closed) (h : i.unread = []) (q : Request) :
    i.read q = (.error q.ended, i) := by
  have hstays : (i.read q).2 = i := (i.read_snd q).trans (advance_of_unread_eq_nil h _)
  exact Prod.ext ((read_eq_ended_iff hclosed).mpr h) hstays

/-! ## Reads one after the other -/

theorem exists_follows_readAll (qs : List Request) :
    ∀ i : Input, ∃ bs, i.Follows bs (readAll qs i).2 := by
  induction qs with
  | nil =>
    intro i
    exact ⟨[], .refl i⟩
  | cons q qs ih =>
    intro i
    obtain ⟨first, hfirst⟩ := exists_follows_read q i
    obtain ⟨rest, hrest⟩ := ih (i.read q).2
    exact ⟨first ++ rest, hfirst.trans hrest⟩

/-- **Every read takes a byte, as long as there is one.** -/
theorem length_unread_readAll (qs : List Request) :
    ∀ i : Input, (readAll qs i).2.unread.length ≤ i.unread.length - qs.length := by
  induction qs with
  | nil =>
    intro i
    exact Nat.le_refl _
  | cons q qs ih =>
    intro i
    have hfirst := length_unread_read q i
    have hrest := ih (i.read q).2
    have hall : (readAll (q :: qs) i).2 = (readAll qs (i.read q).2).2 := rfl
    rw [hall, List.length_cons]
    omega

theorem Within.drop_consumed (h : Within bs i) : bs.drop i.consumed = i.unread := by
  obtain ⟨done, rfl, hconsumed⟩ := h
  rw [hconsumed, List.drop_left]

theorem Within.consumed_add_length (h : Within bs i) :
    i.consumed + i.unread.length = bs.length := by
  obtain ⟨done, rfl, hconsumed⟩ := h
  rw [hconsumed, List.length_append]

/-- **Where a stream stands after any reads, and after one more.**  The next read moves on by the
bytes that it is known to take, and never past the end.  At the end it fails for that and does not
move.  Before the end it moves by a byte or more, and does not fail for the end.  So after as many
reads as there are bytes, all further reads fail for the end. -/
theorem position_readAll (bs : List UInt8) (qs : List Request) (q : Request) :
    let i : Input := (readAll qs (.ofBytes bs .closed)).2
    let j : Input := (i.read q).2
    i.consumed ≤ j.consumed ∧ j.consumed ≤ bs.length ∧
    j.consumed = i.consumed + q.moves (bs.drop i.consumed) ∧
    (i.consumed = bs.length → i.read q = (.error q.ended, i)) ∧
    (i.consumed < bs.length → i.consumed < j.consumed ∧ (i.read q).1 ≠ .error q.ended) ∧
    (bs.length ≤ qs.length → i.read q = (.error q.ended, i)) := by
  intro i j
  obtain ⟨before, hbefore⟩ := exists_follows_readAll qs (.ofBytes bs .closed)
  obtain ⟨taken, hfollows⟩ := exists_follows_read q i
  have hclosed : i.ending = .closed := hbefore.ending
  have hi : Within bs i := (within_ofBytes bs .closed).follows hbefore
  have hj : Within bs j := hi.follows hfollows
  have hilength := hi.consumed_add_length
  have hjlength := hj.consumed_add_length
  have hmoves : j.consumed = i.consumed + q.moves i.unread := consumed_read q i
  -- what has been read and what is left are all the bytes, so the end is where nothing is left
  have hend : i.unread = [] ↔ i.consumed = bs.length := by
    rw [← List.length_eq_zero_iff]
    omega
  refine ⟨by omega, by omega, by rw [hi.drop_consumed, hmoves], ?_, ?_, ?_⟩
  · intro h
    exact read_of_unread_eq_nil hclosed (hend.mpr h) q
  · intro h
    have hne : i.unread ≠ [] := mt hend.mp (Nat.ne_of_lt h)
    have hpos := q.moves_pos hne
    exact ⟨by omega, mt (read_eq_ended_iff hclosed).mp hne⟩
  · intro h
    have hleft : i.unread.length ≤ bs.length - qs.length :=
      length_unread_readAll qs (.ofBytes bs .closed)
    exact read_of_unread_eq_nil hclosed (List.length_eq_zero_iff.mp (by omega)) q

/-- A byte that starts no character, a sequence that swallows a line feed, and a sign without
digits.  The second read moves over three bytes, and after five reads there is nothing left. -/
theorem position_amid_junk :
    let start : Input := .ofBytes [0xFF, 0xE2, 0x82, 0x0A, 0x2D] .closed
    let i : Input := (readAll [.char] start).2
    let k : Input := (readAll [.char, .char, .number, .char, .number] start).2
    i.consumed = 1 ∧ (i.read .char).2.consumed = 4 ∧ i.consumed < (i.read .char).2.consumed ∧
      k.consumed = 5 ∧ k.read .char = (.error .endOfCharacter, k) ∧
      k.read .number = (.error .endOfNumber, k) := by
  intro start i k
  have hi : i.consumed = 1 := by decide
  have hk : k.consumed = 5 := by decide
  obtain ⟨-, -, hmoves, -, hadvance, -⟩ :=
    position_readAll [0xFF, 0xE2, 0x82, 0x0A, 0x2D] [.char] .char
  obtain ⟨-, -, -, hended, -, -⟩ := position_readAll [0xFF, 0xE2, 0x82, 0x0A, 0x2D]
    [.char, .char, .number, .char, .number] .char
  obtain ⟨-, -, -, -, -, hfurther⟩ := position_readAll [0xFF, 0xE2, 0x82, 0x0A, 0x2D]
    [.char, .char, .number, .char, .number] .number
  exact ⟨hi, hmoves.trans (by decide), (hadvance (by decide)).1, hk, hended hk,
    hfurther (by decide)⟩

end PietLang.Input
