import McpRuntime.Python.Base64
import McpRuntime.Python.Numeral

/-!
# ASCII texts

Texts as the bytes of their characters, the URL-safe alphabet of base64 without padding, and
the integer that a text is read as.
-/

namespace McpRuntime

/-! ## Bytes -/

/-- `text.encode("ascii")`, of an ASCII text. -/
def Text.asciiBytes (t : Text) : List UInt8 := t.map fun c => UInt8.ofNat c.val

/-- `data.decode("ascii")`, which raises `UnicodeDecodeError`. -/
def decodeAscii (data : List UInt8) : Option Text :=
  if data.all (·.toNat < 0x80) then some (data.map fun b => Fin.ofNat 0x110000 b.toNat) else none

/-- An ASCII text is read back from its bytes. -/
theorem decodeAscii_asciiBytes {t : Text} (h : ∀ c ∈ t, c.val < 0x80) :
    decodeAscii t.asciiBytes = some t := by
  have hbyte : ∀ c ∈ t, (UInt8.ofNat c.val).toNat = c.val := fun c hc =>
    UInt8.toNat_ofNat_of_lt' ((h c hc).trans (by decide))
  have hall : t.asciiBytes.all (·.toNat < 0x80) = true := by
    refine List.all_eq_true.2 fun b hb => ?_
    obtain ⟨c, hc, rfl⟩ := List.mem_map.1 hb
    rw [hbyte c hc]
    exact decide_eq_true (h c hc)
  rw [decodeAscii, if_pos hall, Text.asciiBytes, List.map_map]
  refine congrArg some ((List.map_congr_left fun c hc => ?_).trans (List.map_id t))
  exact Fin.ext ((congrArg (· % 0x110000) (hbyte c hc)).trans (Nat.mod_eq_of_lt c.isLt))

/-! ## The URL-safe alphabet -/

namespace Base64

/-- `urlsafe_b64encode`. -/
def urlsafeEncode (data : List UInt8) : Text :=
  (encode data).map fun c => if c = 43 then 45 else if c = 47 then 95 else c

/-- `b64decode(text, altchars=b"-_", validate=True)`. -/
def urlsafeDecode (t : Text) : Option (List UInt8) :=
  decode (t.map fun c => if c = 45 then 43 else if c = 95 then 47 else c)

/-- The padding that is missing at the end of a text. -/
def padded (t : Text) : Text := t ++ List.replicate ((4 - t.length % 4) % 4) 61

/-- The digits of bytes, and the padding after them. -/
theorem exists_encode (data : List UInt8) :
    ∃ (digits : Text) (n : ℕ), encode data = digits ++ List.replicate n 61 ∧
      n = (4 - digits.length % 4) % 4 ∧ ∀ c ∈ digits, c ≠ 61 ∧ c ≠ 45 ∧ c ≠ 95 := by
  have hdigit : ∀ n < 64, digit n ≠ 61 ∧ digit n ≠ 45 ∧ digit n ≠ 95 := by decide
  induction data using encode.induct with
  | case1 => exact ⟨[], 0, rfl, rfl, fun c hc => absurd hc List.not_mem_nil⟩
  | case2 a =>
    have ha := a.toNat_lt
    refine ⟨[digit (a.toNat / 4), digit (a.toNat % 4 * 16)], 2, rfl, rfl, ?_⟩
    simp only [List.mem_cons, List.not_mem_nil, or_false, forall_eq_or_imp, forall_eq]
    exact ⟨hdigit _ (by omega), hdigit _ (by omega)⟩
  | case3 a b =>
    have ha := a.toNat_lt
    have hb := b.toNat_lt
    refine ⟨[digit (a.toNat / 4), digit (a.toNat % 4 * 16 + b.toNat / 16),
      digit (b.toNat % 16 * 4)], 1, rfl, rfl, ?_⟩
    simp only [List.mem_cons, List.not_mem_nil, or_false, forall_eq_or_imp, forall_eq]
    exact ⟨hdigit _ (by omega), hdigit _ (by omega), hdigit _ (by omega)⟩
  | case4 a b c data ih =>
    have ha := a.toNat_lt
    have hb := b.toNat_lt
    have hc := c.toNat_lt
    obtain ⟨digits, n, he, hn, hdigits⟩ := ih
    refine ⟨digit (a.toNat / 4) :: digit (a.toNat % 4 * 16 + b.toNat / 16) ::
      digit (b.toNat % 16 * 4 + c.toNat / 64) :: digit (c.toNat % 64) :: digits, n, ?_, ?_, ?_⟩
    · rw [encode, he]
      rfl
    · rw [hn]
      simp only [List.length_cons]
      omega
    · simp only [List.forall_mem_cons]
      exact ⟨hdigit _ (by omega), hdigit _ (by omega), hdigit _ (by omega), hdigit _ (by omega),
        hdigits⟩

/-- Bytes are read back from their digits in the URL-safe alphabet, once the padding that was
    cut off is there again. -/
theorem urlsafeDecode_padded (data : List UInt8) :
    urlsafeDecode (padded (Text.rstripChar 61 (urlsafeEncode data))) = some data := by
  obtain ⟨digits, n, he, hn, hdigits⟩ := exists_encode data
  obtain ⟨safe, hsafe⟩ : ∃ safe : CodePoint → CodePoint, safe = fun c =>
    if c = 43 then 45 else if c = 47 then 95 else c := ⟨_, rfl⟩
  -- The alphabet without `-` and `_` is translated there and back.
  have hback : ∀ c, c ≠ 45 ∧ c ≠ 95 →
      (if safe c = 45 then (43 : CodePoint) else if safe c = 95 then 47 else safe c) = c := by
    intro c hc
    subst hsafe
    dsimp only
    split_ifs <;> simp_all
  have hpad : safe 61 = 61 := by
    subst hsafe
    rfl
  have hne : ∀ c ∈ digits.map safe, c ≠ 61 := by
    subst hsafe
    intro c hc
    obtain ⟨d, hd, rfl⟩ := List.mem_map.1 hc
    split_ifs
    · decide
    · decide
    · exact (hdigits d hd).1
  have hencoded : urlsafeEncode data = digits.map safe ++ List.replicate n 61 := by
    rw [urlsafeEncode, ← hsafe, he, List.map_append, List.map_replicate, hpad]
  -- Only the padding is stripped, as no digit is `=`.
  have hstrip : Text.rstripChar 61 (urlsafeEncode data) = digits.map safe := by
    have hpadding : ∀ c ∈ List.replicate n (61 : CodePoint), decide (c = 61) = true :=
      fun c hc => decide_eq_true (List.eq_of_mem_replicate hc)
    rw [hencoded, Text.rstripChar, List.rdropWhile, List.reverse_append, List.reverse_replicate,
      List.dropWhile_append_of_pos hpadding, List.dropWhile_eq_self_iff.2, List.reverse_reverse]
    intro hpos
    exact fun h => hne _ (List.mem_reverse.1 (List.getElem_mem hpos)) (of_decide_eq_true h)
  rw [hstrip, padded, List.length_map, ← hn, urlsafeDecode, List.map_append, List.map_map,
    List.map_replicate]
  have hmap : digits.map ((fun c => if c = 45 then 43 else if c = 95 then 47 else c) ∘ safe) =
      digits :=
    (List.map_congr_left fun c hc => hback c (hdigits c hc).2).trans (List.map_id _)
  rw [hmap, if_neg (by decide), if_neg (by decide), ← he, decode_encode]

end Base64

/-! ## Integers -/

/-- The integer that `int` reads a text as, which is ASCII and of at most 4300 characters:
    digits with single underscores between them, after an optional sign, in white space. -/
def readInt (t : Text) : Option ℤ :=
  let isSpace (c : CodePoint) : Bool := c.val = 32 ∨ (9 ≤ c.val ∧ c.val ≤ 13)
  let (sign, digits) := readSign ((t.dropWhile isSpace).rdropWhile isSpace)
  let parts := Text.split 95 digits
  if parts.all fun part => !part.isEmpty && part.all CodePoint.isDigit then
    some (if sign = some true then -(natValue parts.flatten : ℤ) else natValue parts.flatten)
  else none

/-- A number is read from its digits. -/
theorem readInt_natText (n : ℕ) : readInt (natText n) = some (n : ℤ) := by
  obtain ⟨⟨hne, hdigits⟩, -⟩ := isNumeral_natText n
  have hrange {c : CodePoint} (hc : c ∈ natText n) : 48 ≤ c.val ∧ c.val ≤ 57 := natText_digit hc
  have hspace : ∀ c ∈ natText n, decide (c.val = 32 ∨ (9 ≤ c.val ∧ c.val ≤ 13)) = false :=
    fun c hc => decide_eq_false (by have := hrange hc; omega)
  have hstart : (natText n).dropWhile (fun c => c.val = 32 ∨ (9 ≤ c.val ∧ c.val ≤ 13)) =
      natText n := by
    refine List.dropWhile_eq_self_iff.2 fun hpos => ?_
    rw [hspace _ (List.getElem_mem hpos)]
    exact Bool.false_ne_true
  have hend : (natText n).rdropWhile (fun c => c.val = 32 ∨ (9 ≤ c.val ∧ c.val ≤ 13)) =
      natText n := by
    refine List.rdropWhile_eq_self_iff.2 fun hl => ?_
    rw [hspace _ (List.getLast_mem hl)]
    exact Bool.false_ne_true
  have hsign : readSign (natText n) = (none, natText n) := by
    have hhead {c : CodePoint} (hc : c.val < 48) : (natText n).head? ≠ some c := fun h =>
      not_le.2 hc (hrange (List.mem_of_mem_head? h)).1
    rw [readSign, if_neg (hhead (by decide)), if_neg (hhead (by decide))]
  have hparts : Text.split 95 (natText n) = [natText n] :=
    Text.split_of_notMem fun h => absurd (hrange h).2 (by decide)
  have hall : ([natText n].all fun part => !part.isEmpty && part.all CodePoint.isDigit) = true := by
    simpa [hne] using hdigits
  simp only [readInt, hstart, hend, hsign, hparts]
  rw [if_pos hall, if_neg (by simp), List.flatten_cons, List.flatten_nil, List.append_nil,
    natValue_natText]

end McpRuntime
