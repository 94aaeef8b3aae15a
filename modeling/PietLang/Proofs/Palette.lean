import PietLang.Proofs.Classification

/-!
# Proofs/Palette — the rule for colours and the table of colours agree

A colour can be found in two ways.  The palette lists the triples of the eighteen colours.  The rule
looks at the extremes of the levels and at the places of the greater one, for levels of any number.
A list that the rule names a colour for has three entries, each of them set by the hue to one of the
two levels of the lightness, so it is a triple of the palette (`Codel.eq_channels_rgb`).  That the
triples of the palette are named for their colours is known from painting with them
(`Codel.ofTriple_of_paint?`), so the rule is exact on lists of any length (`Codel.ofLevels_cases`).
-/

namespace PietLang

namespace Color

/-- The palette has the triple of every colour and nothing else. -/
theorem mem_palette_iff {t : Rgb} {c : Color} : (t, c) ∈ palette ↔ c.rgb = t := by
  constructor
  · intro h
    have hall : ∀ entry ∈ palette, entry.2.rgb = entry.1 := by decide
    exact hall (t, c) h
  · rintro rfl
    obtain ⟨_ | _ | _ | _ | _ | _, _ | _ | _⟩ := c <;> decide

/-- A triple is looked up in the palette. -/
theorem ofRgb?_eq_some_iff {t : Rgb} {c : Color} : ofRgb? t = some c ↔ (t, c) ∈ palette := by
  rw [mem_palette_iff]
  constructor
  · intro h
    obtain ⟨before, after, hpalette, -⟩ := List.lookup_eq_some_iff.mp h
    exact mem_palette_iff.mp (by simp [hpalette])
  · rintro rfl
    obtain ⟨_ | _ | _ | _ | _ | _, _ | _ | _⟩ := c <;> rfl

end Color

/-- The level of a channel, as it is at the high level or not. -/
def Lightness.level (l : Lightness) (isHigh : Bool) : Int :=
  if isHigh then l.levels.2 else l.levels.1

/-- The places of the high level among red, green and blue. -/
def Hue.pattern (h : Hue) : List Bool := [h.channels.1, h.channels.2.1, h.channels.2.2]

/-- **The palette keeps to the rule**: the hue says which channels are high, the lightness how
high. -/
theorem Color.channels_rgb (c : Color) :
    c.rgb.channels = c.hue.pattern.map c.lightness.level := by
  obtain ⟨_ | _ | _ | _ | _ | _, _ | _ | _⟩ := c <;> rfl

theorem Lightness.levels_of_ofLevels? {low high : Int} {l : Lightness}
    (h : ofLevels? low high = some l) : l.levels = (low, high) :=
  of_decide_eq_true (List.find?_some (p := fun l : Lightness => l.levels = (low, high)) h)

theorem Hue.pattern_of_ofChannels? {pattern : List Bool} {h : Hue}
    (hfound : ofChannels? pattern = some h) : h.pattern = pattern :=
  of_decide_eq_true (List.find?_some (p := fun h : Hue => h.pattern = pattern) hfound)

namespace Codel

variable {low high : Int} {levels : List Int} {c : Color}

/-- Levels that a hue sets to the two levels of a lightness are the triple of the colour. -/
theorem eq_channels_rgb (hextremes : ∀ v ∈ levels, v = low ∨ v = high)
    (hlevels : c.lightness.levels = (low, high))
    (hpattern : c.hue.pattern = levels.map fun v => decide (v = high)) :
    levels = c.rgb.channels := by
  -- a level at a place that the hue leaves out is not the high one, so it is the low one
  have hset : ∀ v ∈ levels, c.lightness.level (decide (v = high)) = v := by
    intro v hv
    rw [Lightness.level, hlevels]
    by_cases h : v = high
    · simp [h]
    · simpa [h] using ((hextremes v hv).resolve_right h).symm
  calc levels
    _ = levels.map fun v => c.lightness.level (decide (v = high)) :=
      ((List.map_congr_left hset).trans (List.map_id levels)).symm
    _ = (levels.map fun v => decide (v = high)).map c.lightness.level := by
      rw [List.map_map]
      rfl
    _ = c.rgb.channels := by rw [← hpattern, c.channels_rgb]

/-- **What the rule can give, and for which levels.** -/
theorem ofExtremes_cases (low high : Int) (levels : List Int) :
    ofExtremes low high levels = .white ∨
      (ofExtremes low high levels = .black ∧ ∀ v ∈ levels, v = 0x00) ∨
      ∃ c, ofExtremes low high levels = .color c ∧ levels = c.rgb.channels := by
  rw [ofExtremes]
  split
  · exact Or.inl rfl
  next hany =>
  have hextremes : ∀ v ∈ levels, v = low ∨ v = high := by
    simpa [or_iff_not_imp_left] using hany
  split
  · next hblack =>
    obtain ⟨rfl, rfl⟩ := hblack
    exact Or.inr (Or.inl ⟨rfl, fun v hv => (hextremes v hv).elim id id⟩)
  split
  · exact Or.inl rfl
  split
  · next l h hl hh =>
    refine Or.inr (Or.inr ⟨⟨h, l⟩, rfl, eq_channels_rgb hextremes ?_ ?_⟩)
    · exact Lightness.levels_of_ofLevels? hl
    · exact Hue.pattern_of_ofChannels? hh
  · exact Or.inl rfl

/-- A triple of the palette is given its colour. -/
theorem ofLevels_channels_rgb (c : Color) : ofLevels c.rgb.channels = .ok (.color c) := by
  rw [Rgb.channels, ofLevels_triple, ofTriple_of_paint? (v := .color c) rfl]

/-- Zeros are black, however many there are. -/
theorem ofLevels_of_zeros (hne : levels ≠ []) (hzero : ∀ v ∈ levels, v = 0x00) :
    ofLevels levels = .ok .black := by
  obtain ⟨v, hv⟩ := List.exists_mem_of_ne_nil levels hne
  have hmem : 0x00 ∈ levels := hzero v hv ▸ hv
  have hmin : levels.min? = some 0x00 :=
    List.min?_eq_some_iff.mpr ⟨hmem, fun v hv => Int.le_of_eq (hzero v hv).symm⟩
  have hmax : levels.max? = some 0x00 :=
    List.max?_eq_some_iff.mpr ⟨hmem, fun v hv => Int.le_of_eq (hzero v hv)⟩
  have hany : (levels.any fun v => v ≠ 0x00 && v ≠ 0x00) = false := by
    simpa using hzero
  rw [ofLevels_of_extremes hmin hmax, ofExtremes, hany]
  rfl

/-- Levels of any number but none are white, or black and all zero, or a triple of the palette. -/
theorem ofLevels_cases (hne : levels ≠ []) :
    ofLevels levels = .ok .white ∨
      (ofLevels levels = .ok .black ∧ ∀ v ∈ levels, v = 0x00) ∨
      ∃ c, ofLevels levels = .ok (.color c) ∧ levels = c.rgb.channels := by
  obtain ⟨low, hmin⟩ := Option.isSome_iff_exists.mp (List.isSome_min?_of_ne_nil hne)
  obtain ⟨high, hmax⟩ := Option.isSome_iff_exists.mp (List.isSome_max?_of_ne_nil hne)
  simp only [ofLevels_of_extremes hmin hmax, Except.ok.injEq]
  exact ofExtremes_cases low high levels

theorem ofLevels_eq_color_iff (hne : levels ≠ []) :
    ofLevels levels = .ok (.color c) ↔ levels = c.rgb.channels := by
  constructor
  · intro h
    rcases ofLevels_cases hne with hwhite | ⟨hblack, -⟩ | ⟨c', hcolor, hlevels⟩
    · exact absurd (hwhite.symm.trans h) nofun
    · exact absurd (hblack.symm.trans h) nofun
    · obtain rfl := Codel.color.inj (Except.ok.inj (hcolor.symm.trans h))
      exact hlevels
  · rintro rfl
    exact ofLevels_channels_rgb c

theorem ofLevels_eq_black_iff (hne : levels ≠ []) :
    ofLevels levels = .ok .black ↔ ∀ v ∈ levels, v = 0x00 := by
  constructor
  · intro h
    rcases ofLevels_cases hne with hwhite | ⟨-, hzero⟩ | ⟨c, hcolor, -⟩
    · exact absurd (hwhite.symm.trans h) nofun
    · exact hzero
    · exact absurd (hcolor.symm.trans h) nofun
  · exact ofLevels_of_zeros hne

theorem ofLevels_eq_white_iff (hne : levels ≠ []) :
    ofLevels levels = .ok .white ↔
      (∀ c : Color, levels ≠ c.rgb.channels) ∧ ∃ v ∈ levels, v ≠ 0x00 := by
  constructor
  · intro h
    refine ⟨?_, ?_⟩
    · rintro c rfl
      exact absurd ((ofLevels_channels_rgb c).symm.trans h) nofun
    · by_contra! hzero
      exact absurd ((ofLevels_of_zeros hne hzero).symm.trans h) nofun
  · rintro ⟨hcolor, v, hv, hnonzero⟩
    rcases ofLevels_cases hne with hwhite | ⟨-, hzero⟩ | ⟨c, -, hlevels⟩
    · exact hwhite
    · exact absurd (hzero v hv) hnonzero
    · exact absurd hlevels (hcolor c)

/-- **The rule agrees with the palette.**  Levels of any number but none are a colour just when the
palette has them for that colour, black just when all of them are zero, and white in every other
case.  The codel of a pixel is that of its first three channels, each moved to its level. -/
theorem ofLevels_agrees_with_palette :
    (∀ (t : Rgb) (c : Color), Color.ofRgb? t = some c ↔ (t, c) ∈ Color.palette) ∧
    (∀ (v : Int) (vs : List Int),
      (∀ c, ofLevels (v :: vs) = .ok (.color c) ↔
        ∃ t, (t, c) ∈ Color.palette ∧ v :: vs = t.channels) ∧
      (ofLevels (v :: vs) = .ok .black ↔ ∀ u ∈ v :: vs, u = 0x00) ∧
      (ofLevels (v :: vs) = .ok .white ↔
        (¬ ∃ t c, (t, c) ∈ Color.palette ∧ v :: vs = t.channels) ∧ ∃ u ∈ v :: vs, u ≠ 0x00)) ∧
    ∀ (r g b : Int) (rest : List Int), ofChannels (r :: g :: b :: rest) =
      ofLevels [Channel.quantize r, Channel.quantize g, Channel.quantize b] := by
  refine ⟨fun t c => Color.ofRgb?_eq_some_iff, fun v vs => ⟨fun c => ?_, ?_, ?_⟩,
    fun r g b rest => rfl⟩
  · rw [ofLevels_eq_color_iff (List.cons_ne_nil v vs)]
    simp [Color.mem_palette_iff]
  · exact ofLevels_eq_black_iff (List.cons_ne_nil v vs)
  · rw [ofLevels_eq_white_iff (List.cons_ne_nil v vs)]
    simp [Color.mem_palette_iff]

end Codel

end PietLang
