import Stepwise.Pdf.TextString

/-!
# Texts in strings are read back

A text of ASCII characters is written byte by byte and never begins with the mark, so it is read
byte by byte. Any other text is written as units behind the mark. No character is a surrogate, so a
surrogate among the units belongs to a pair, and reading the units gives the characters again.
-/

namespace Stepwise

namespace Text

theorem toNat_cases (c : Char) :
    c.toNat < 0xD800 ∨ 0xDFFF < c.toNat ∧ c.toNat < 0x110000 :=
  c.valid

theorem ofUnits_cons {u : Nat} (h : isLeadUnit u = false) (rest : List Nat) :
    ofUnits (u :: rest) = charOfUnit u :: ofUnits rest := by
  cases rest with
  | nil => rfl
  | cons v rest => simp [ofUnits, h]

theorem ofUnits_pair {lead trail : Nat} (hlead : isLeadUnit lead = true)
    (htrail : isTrailUnit trail = true) (rest : List Nat) :
    ofUnits (lead :: trail :: rest) = charOfPair lead trail :: ofUnits rest := by
  simp [ofUnits, hlead, htrail]

/-- The units of one character are read as that character, whatever follows. -/
theorem ofUnits_unitsOfChar (c : Char) (rest : List Nat) :
    ofUnits (unitsOfChar c ++ rest) = c :: ofUnits rest := by
  have hcases := toNat_cases c
  rw [unitsOfChar]
  by_cases hshort : c.toNat < 0x10000
  · have hlead : isLeadUnit c.toNat = false := by
      simp only [isLeadUnit, Bool.and_eq_false_iff, decide_eq_false_iff_not]
      omega
    have htrail : isTrailUnit c.toNat = false := by
      simp only [isTrailUnit, Bool.and_eq_false_iff, decide_eq_false_iff_not]
      omega
    rw [if_pos hshort, List.singleton_append, ofUnits_cons hlead]
    simp [charOfUnit, hlead, htrail, Char.ofNat_toNat]
  · have hlead : isLeadUnit (0xD800 + (c.toNat - 0x10000) / 0x400) = true := by
      simp only [isLeadUnit, Bool.and_eq_true, decide_eq_true_eq]
      omega
    have htrail : isTrailUnit (0xDC00 + (c.toNat - 0x10000) % 0x400) = true := by
      simp only [isTrailUnit, Bool.and_eq_true, decide_eq_true_eq]
      omega
    have hcode : 0x10000 + (0xD800 + (c.toNat - 0x10000) / 0x400 - 0xD800) * 0x400 +
        (0xDC00 + (c.toNat - 0x10000) % 0x400 - 0xDC00) = c.toNat := by omega
    rw [if_neg hshort, List.cons_append, List.singleton_append, ofUnits_pair hlead htrail,
      charOfPair, hcode, Char.ofNat_toNat]

theorem ofUnits_units (cs : List Char) : ofUnits (units cs) = cs := by
  induction cs with
  | nil => rfl
  | cons c rest ih =>
      calc
        ofUnits (units (c :: rest)) = ofUnits (unitsOfChar c ++ units rest) := rfl
        _ = c :: ofUnits (units rest) := ofUnits_unitsOfChar c _
        _ = c :: rest := by rw [ih]

/-- A unit has sixteen bits. -/
theorem lt_of_mem_units {cs : List Char} {u : Nat} (h : u ∈ units cs) : u < 0x10000 := by
  obtain ⟨c, -, hu⟩ := List.mem_flatMap.mp h
  have hcases := toNat_cases c
  rw [unitsOfChar] at hu
  split at hu
  · next hshort =>
    rw [List.mem_singleton] at hu
    omega
  · rcases List.mem_cons.mp hu with rfl | hu
    · omega
    · rw [List.mem_singleton] at hu
      omega

end Text

namespace Pdf

theorem unitsOfBytes_bytesOfUnit {u : Nat} (h : u < 0x10000) (rest : List UInt8) :
    unitsOfBytes (bytesOfUnit u ++ rest) = u :: unitsOfBytes rest := by
  have hhigh : (UInt8.ofNat (u / 256)).toNat = u / 256 := by
    rw [UInt8.toNat_ofNat']
    omega
  have hlow : (UInt8.ofNat (u % 256)).toNat = u % 256 := by
    rw [UInt8.toNat_ofNat']
    omega
  have hunit : u / 256 * 256 + u % 256 = u := by omega
  simp only [bytesOfUnit, List.cons_append, List.nil_append, unitsOfBytes, hhigh, hlow, hunit]

theorem unitsOfBytes_flatMap {us : List Nat} (h : ∀ u ∈ us, u < 0x10000) :
    unitsOfBytes (us.flatMap bytesOfUnit) = us := by
  induction us with
  | nil => rfl
  | cons u rest ih =>
      obtain ⟨hu, hrest⟩ := List.forall_mem_cons.mp h
      rw [List.flatMap_cons, unitsOfBytes_bytesOfUnit hu, ih hrest]

/-- Bytes behind the mark are read as units. -/
theorem decodeText_marked (bytes : List UInt8) :
    decodeText (0xFE :: 0xFF :: bytes) = String.ofList (Text.ofUnits (unitsOfBytes bytes)) :=
  rfl

theorem decodeText_unmarked {bytes : List UInt8} (h : bytes.head? ≠ some 0xFE) :
    decodeText bytes = String.ofList (bytes.map fun b => Char.ofNat b.toNat) := by
  rw [decodeText.eq_def]
  split
  · next rest => exact absurd rfl h
  · rfl

/-- The byte of an ASCII character is read as that character. -/
theorem ofNat_toNat_ofNat_toNat {c : Char} (h : c.toNat < 128) :
    Char.ofNat (UInt8.ofNat c.toNat).toNat = c := by
  have hbyte : (UInt8.ofNat c.toNat).toNat = c.toNat := by
    rw [UInt8.toNat_ofNat']
    omega
  rw [hbyte, Char.ofNat_toNat]

theorem decodeText_ascii {cs : List Char} (h : isAscii cs = true) :
    decodeText (cs.map fun c => UInt8.ofNat c.toNat) = String.ofList cs := by
  have hascii : ∀ c ∈ cs, c.toNat < 128 := by simpa [isAscii] using h
  have hunmarked : (cs.map fun c => UInt8.ofNat c.toNat).head? ≠ some 0xFE := by
    intro hmark
    rw [List.head?_map] at hmark
    obtain ⟨c, hc, hbyte⟩ := Option.map_eq_some_iff.mp hmark
    have hlt := hascii c (List.mem_of_head? hc)
    have hnat := congrArg UInt8.toNat hbyte
    rw [UInt8.toNat_ofNat'] at hnat
    have h254 : (0xFE : UInt8).toNat = 254 := rfl
    omega
  rw [decodeText_unmarked hunmarked, List.map_map]
  congr 1
  refine (List.map_congr_left fun c hc => ?_).trans (List.map_id cs)
  exact ofNat_toNat_ofNat_toNat (hascii c hc)

/-- What is written for a text is a string of bytes, and these are read as the text. -/
theorem decodeText_encodeText (text : String) :
    (encodeText text).asBytes?.map decodeText = some text := by
  rw [encodeText]
  by_cases hascii : isAscii text.toList = true
  · rw [if_pos hascii, Object.asBytes?, Option.map_some, decodeText_ascii hascii,
      String.ofList_toList]
  · rw [if_neg hascii, Object.asBytes?, Option.map_some, decodeText_marked,
      unitsOfBytes_flatMap fun u => Text.lt_of_mem_units, Text.ofUnits_units,
      String.ofList_toList]

end Pdf

end Stepwise
