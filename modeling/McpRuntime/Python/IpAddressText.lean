import McpRuntime.Python.Except
import McpRuntime.Python.IpAddress

/-!
# The texts of IP addresses

The text that `compressed` gives for an address, which `ipaddress.ip_address` reads back.

* `compressHextets`: the longest run of zeros of an address of version 6 is left out, if there is
  more than one; `exists_zeroRun` says what the loop that looks for it finds;
* `parse_compressed`: the text of an address stands for it.

The versions of Python differ on the text of an address of version 4 mapped to version 6, which
the later ones write with dots. The difference is a parameter.
-/

namespace McpRuntime

/-- The parts of a text that is joined. -/
theorem Text.split_intercalate {separator : CodePoint} {parts : List Text} (hne : parts ≠ [])
    (h : ∀ part ∈ parts, separator ∉ part) :
    Text.split separator ([separator].intercalate parts) = parts := by
  induction parts with
  | nil => exact absurd rfl hne
  | cons part parts ih =>
    rw [List.forall_mem_cons] at h
    cases parts with
    | nil => rw [List.intercalate_singleton, Text.split_of_notMem h.1]
    | cons next parts =>
      rw [List.intercalate_cons_cons, List.append_assoc, List.singleton_append, Text.split_append,
        Text.split_of_notMem h.1, ih (List.cons_ne_nil _ _) h.2, List.singleton_append]

/-- A character of a text is in a part of it, or separates them. -/
theorem Text.exists_part_of_mem {separator c : CodePoint} (hc : c ≠ separator) {t : Text}
    (h : c ∈ t) : ∃ part ∈ t.split separator, c ∈ part := by
  induction t with
  | nil => exact absurd h List.not_mem_nil
  | cons d t ih =>
    obtain ⟨part, parts, hparts⟩ := List.exists_cons_of_ne_nil (Text.split_ne_nil separator t)
    rw [Text.split, hparts]
    dsimp only
    rw [hparts] at ih
    rcases List.mem_cons.1 h with rfl | h
    · rw [if_neg hc]
      exact ⟨c :: part, List.mem_cons_self, List.mem_cons_self⟩
    · obtain ⟨part', hpart, hmem⟩ := ih h
      split_ifs
      · exact ⟨part', List.mem_cons_of_mem _ hpart, hmem⟩
      · rcases List.mem_cons.1 hpart with rfl | hpart
        · exact ⟨d :: part', List.mem_cons_self, List.mem_cons_of_mem _ hmem⟩
        · exact ⟨part', List.mem_cons_of_mem _ hpart, hmem⟩

/-- What is read from texts of values. -/
theorem mapM_map_eq_some {α β : Type} {f : β → Option α} {g : α → β} {l : List α}
    (h : ∀ a ∈ l, f (g a) = some a) : (l.map g).mapM f = some l := by
  rw [mapM_eq_some, List.forall₂_map_left_iff]
  exact List.forall₂_same.2 h

/-! ## Version 4 -/

/-- `str` of an address of version 4. -/
def ipv4Text (value : ℕ) : Text :=
  [46].intercalate [natText (value / 16777216 % 256), natText (value / 65536 % 256),
    natText (value / 256 % 256), natText (value % 256)]

/-- An octet is read back. -/
theorem parseOctet_natText : ∀ n < 256, parseOctet (natText n) = some n := by decide +kernel

/-- The text of an octet is not empty, and has only digits. -/
theorem digits_natText (n : ℕ) : natText n ≠ [] ∧ ∀ c ∈ natText n, c.isDigit = true :=
  (isNumeral_natText n).1

theorem notMem_natText {c : CodePoint} (hc : c.isDigit = false) (n : ℕ) : c ∉ natText n := by
  intro hmem
  rw [(digits_natText n).2 c hmem] at hc
  exact Bool.noConfusion hc

/-- The octets of an address. -/
theorem split_ipv4Text (value : ℕ) : (ipv4Text value).split 46 =
    [natText (value / 16777216 % 256), natText (value / 65536 % 256),
      natText (value / 256 % 256), natText (value % 256)] := by
  refine Text.split_intercalate (List.cons_ne_nil _ _) ?_
  simp only [List.forall_mem_cons, List.not_mem_nil, false_imp_iff, implies_true, and_true]
  exact ⟨notMem_natText rfl _, notMem_natText rfl _, notMem_natText rfl _, notMem_natText rfl _⟩

/-- The characters of an address of version 4. -/
theorem chars_ipv4Text (value : ℕ) : ∀ c ∈ ipv4Text value, c.isDigit = true ∨ c = 46 := by
  intro c hc
  simp only [ipv4Text, List.intercalate_cons_cons, List.intercalate_singleton, List.mem_append,
    List.mem_singleton] at hc
  obtain (((hc | rfl) | ((hc | rfl) | ((hc | rfl) | hc)))) := hc <;>
    first
      | exact .inl ((digits_natText _).2 c hc)
      | exact .inr rfl

/-- An address of version 4 is read back. -/
theorem parseIpv4_ipv4Text {value : ℕ} (h : value < 2 ^ 32) :
    parseIpv4 (ipv4Text value) = some value := by
  have hoctet : ∀ n, parseOctet (natText (n % 256)) = some (n % 256) := fun n =>
    parseOctet_natText _ (Nat.mod_lt n (by decide))
  have hparts : ((ipv4Text value).split 46).mapM parseOctet =
      some [value / 16777216 % 256, value / 65536 % 256, value / 256 % 256, value % 256] := by
    rw [split_ipv4Text, List.mapM_cons, List.mapM_cons, List.mapM_cons, List.mapM_cons, hoctet,
      hoctet, hoctet, hoctet]
    rfl
  rw [parseIpv4, hparts]
  refine congrArg some ?_
  omega

/-! ## Hextets -/

/-- `'%x' % n`, of a number with at most `k + 1` digits. -/
def hexText : ℕ → ℕ → Text
  | 0, n => [hexDigit n]
  | k + 1, n => if n < 16 then [hexDigit n] else hexText k (n / 16) ++ [hexDigit (n % 16)]

/-- The digits of a number. -/
theorem exists_hexText {k n : ℕ} (h : n < 16 ^ (k + 1)) :
    ∃ digits : List ℕ, hexText k n = digits.map hexDigit ∧ digits ≠ [] ∧
      digits.length ≤ k + 1 ∧ (∀ digit ∈ digits, digit < 16) ∧
      digits.foldl (fun n digit => 16 * n + digit) 0 = n := by
  induction k generalizing n with
  | zero =>
    refine ⟨[n], rfl, List.cons_ne_nil _ _, le_rfl, ?_, by simp⟩
    rw [List.forall_mem_singleton]
    exact h
  | succ k ih =>
    rw [hexText]
    split_ifs with hn
    · refine ⟨[n], rfl, List.cons_ne_nil _ _, by simp, ?_, by simp⟩
      rw [List.forall_mem_singleton]
      exact hn
    · have hquotient : n / 16 < 16 ^ (k + 1) := by
        rw [Nat.div_lt_iff_lt_mul (by decide), ← pow_succ]
        exact h
      obtain ⟨digits, htext, hne, hlength, hdigits, hvalue⟩ := ih hquotient
      refine ⟨digits ++ [n % 16], ?_, by simp, ?_, ?_, ?_⟩
      · rw [htext, List.map_append, List.map_singleton]
      · rw [List.length_append, List.length_singleton]
        exact Nat.succ_le_succ hlength
      · rw [List.forall_mem_append, List.forall_mem_singleton]
        exact ⟨hdigits, Nat.mod_lt n (by decide)⟩
      · rw [List.foldl_append, hvalue, List.foldl_cons, List.foldl_nil]
        exact Nat.div_add_mod n 16

/-- The text of a hextet. -/
def hextetText (n : ℕ) : Text := hexText 3 n

/-- The characters of a hextet are digits, and it has at most four. -/
theorem hextetText_spec {n : ℕ} (h : n < 65536) : hextetText n ≠ [] ∧
    (hextetText n).length ≤ 4 ∧ (∀ c ∈ hextetText n, ∃ digit < 16, c = hexDigit digit) ∧
    parseHextet (hextetText n) = some (some n) := by
  obtain ⟨digits, htext, hne, hlength, hdigits, hvalue⟩ := exists_hexText (k := 3) h
  have hnil : hextetText n ≠ [] := by
    rw [hextetText, htext, Ne, List.map_eq_nil_iff]
    exact hne
  have hlength' : (hextetText n).length ≤ 4 := by
    rw [hextetText, htext, List.length_map]
    exact hlength
  have hmap : (hextetText n).mapM hexNumber = some digits := by
    rw [hextetText, htext]
    exact mapM_map_eq_some fun digit hdigit => hexNumber_hexDigit digit (hdigits digit hdigit)
  refine ⟨hnil, hlength', ?_, ?_⟩
  · rw [hextetText, htext, List.forall_mem_map]
    exact fun digit hdigit => ⟨digit, hdigits digit hdigit, rfl⟩
  · rw [parseHextet, if_neg hnil, if_neg (not_lt.2 hlength'), hmap, Option.map_some, hvalue]

/-- The hextets of an address of version 6. -/
def hextets (value : ℕ) : List ℕ := (List.range 8).map fun i => value / 65536 ^ (7 - i) % 65536

theorem length_hextets (value : ℕ) : (hextets value).length = 8 := by
  rw [hextets, List.length_map, List.length_range]

theorem hextets_lt {value n : ℕ} (h : n ∈ hextets value) : n < 65536 := by
  obtain ⟨i, -, rfl⟩ := List.mem_map.1 h
  exact Nat.mod_lt _ (by decide)

theorem hextetsValue_concat (high : List ℕ) (n : ℕ) :
    hextetsValue (high ++ [n]) = 65536 * hextetsValue high + n := by
  rw [hextetsValue, List.foldl_append]
  rfl

theorem hextetsValue_append (high low : List ℕ) :
    hextetsValue (high ++ low) = hextetsValue high * 65536 ^ low.length + hextetsValue low := by
  induction low using List.reverseRecOn with
  | nil => simp [hextetsValue]
  | append_singleton low n ih =>
    rw [← List.append_assoc, hextetsValue_concat, hextetsValue_concat, ih, List.length_append,
      List.length_singleton, pow_succ]
    ring

theorem hextetsValue_zeros (n : ℕ) : hextetsValue (List.replicate n 0) = 0 := by
  induction n with
  | zero => rfl
  | succ n ih => rw [List.replicate_succ', hextetsValue_append, ih]; rfl

/-- The hextets stand for the address. -/
theorem hextetsValue_hextets {value : ℕ} (h : value < 2 ^ 128) :
    hextetsValue (hextets value) = value := by
  have hlist : hextets value = [value / 65536 ^ 7 % 65536, value / 65536 ^ 6 % 65536,
      value / 65536 ^ 5 % 65536, value / 65536 ^ 4 % 65536, value / 65536 ^ 3 % 65536,
      value / 65536 ^ 2 % 65536, value / 65536 ^ 1 % 65536, value / 65536 ^ 0 % 65536] := rfl
  rw [hlist, hextetsValue]
  simp only [List.foldl_cons, List.foldl_nil]
  norm_num
  omega

/-! ## Runs of zeros -/

/-- The longest run of zeros so far, and the run that the hextets so far end with. A start is one
    only of a run that is not empty. -/
structure ZeroRuns where
  bestStart : ℕ := 0
  bestLength : ℕ := 0
  start : ℕ := 0
  length : ℕ := 0

/-- A round of the loop of `_compress_hextets`. -/
def ZeroRuns.step (runs : ZeroRuns) (hextet index : ℕ) : ZeroRuns :=
  if hextet = 0 then
    let start := if runs.length = 0 then index else runs.start
    let length := runs.length + 1
    if runs.bestLength < length then ⟨start, length, start, length⟩
    else { runs with start, length }
  else { runs with start := 0, length := 0 }

/-- The loop of `_compress_hextets`. -/
def zeroRuns (hextets : List ℕ) : ZeroRuns :=
  hextets.zipIdx.foldl (fun runs (hextet, index) => runs.step hextet index) {}

/-- What the loop knows of the hextets so far. -/
structure ZeroRuns.Invariant (seen : List ℕ) (runs : ZeroRuns) : Prop where
  best : ∃ a b, seen = a ++ List.replicate runs.bestLength 0 ++ b ∧
    (0 < runs.bestLength → a.length = runs.bestStart)
  last : ∃ c, seen = c ++ List.replicate runs.length 0 ∧
    (0 < runs.length → c.length = runs.start)

theorem ZeroRuns.Invariant.step {seen : List ℕ} {runs : ZeroRuns} (h : runs.Invariant seen)
    (hextet : ℕ) : (runs.step hextet seen.length).Invariant (seen ++ [hextet]) := by
  obtain ⟨a, b, hbest, hstart⟩ := h.best
  obtain ⟨c, hlast, hlastStart⟩ := h.last
  have hkept : seen ++ [hextet] = a ++ List.replicate runs.bestLength 0 ++ (b ++ [hextet]) := by
    rw [← List.append_assoc, ← hbest]
  rw [ZeroRuns.step]
  by_cases hzero : hextet = 0
  · subst hzero
    have hrun : seen ++ [0] = c ++ List.replicate (runs.length + 1) 0 := by
      rw [List.replicate_succ', ← List.append_assoc, ← hlast]
    have hc : c.length = if runs.length = 0 then seen.length else runs.start := by
      split_ifs with hlength
      · rw [hlast, hlength, List.replicate_zero, List.append_nil]
      · exact hlastStart (Nat.pos_of_ne_zero hlength)
    rw [if_pos rfl]
    dsimp only
    by_cases hbetter : runs.bestLength < runs.length + 1
    · -- the run that goes on is the longest
      rw [if_pos hbetter]
      exact ⟨⟨c, [], by rw [List.append_nil, hrun], fun _ => hc⟩, ⟨c, hrun, fun _ => hc⟩⟩
    · rw [if_neg hbetter]
      exact ⟨⟨a, b ++ [0], hkept, hstart⟩, ⟨c, hrun, fun _ => hc⟩⟩
  · rw [if_neg hzero]
    refine ⟨⟨a, b ++ [hextet], hkept, hstart⟩, ⟨seen ++ [hextet], ?_, ?_⟩⟩
    · exact (List.append_nil _).symm
    · exact fun h => absurd h (Nat.lt_irrefl 0)

/-- The longest run of zeros is one. -/
theorem exists_zeroRun (hextets : List ℕ) : ∃ a b,
    hextets = a ++ List.replicate (zeroRuns hextets).bestLength 0 ++ b ∧
      (0 < (zeroRuns hextets).bestLength → a.length = (zeroRuns hextets).bestStart) := by
  have hloop : ∀ (rest seen : List ℕ) (runs : ZeroRuns), runs.Invariant seen →
      ((rest.zipIdx seen.length).foldl (fun runs (hextet, index) => runs.step hextet index)
        runs).Invariant (seen ++ rest) := by
    intro rest
    induction rest with
    | nil =>
      intro seen runs h
      rwa [List.append_nil]
    | cons hextet rest ih =>
      intro seen runs h
      have hnext := ih _ _ (h.step hextet)
      rw [List.length_append, List.append_assoc] at hnext
      exact hnext
  have hstart : ({} : ZeroRuns).Invariant [] :=
    ⟨⟨[], [], rfl, fun _ => rfl⟩, ⟨[], rfl, fun _ => rfl⟩⟩
  exact (hloop hextets [] {} hstart).best

/-- `_compress_hextets`, of the texts of the hextets. -/
def compressHextets (hextets : List ℕ) : List Text :=
  let runs := zeroRuns hextets
  let texts := hextets.map hextetText
  if 1 < runs.bestLength then
    let bestEnd := runs.bestStart + runs.bestLength
    (if runs.bestStart = 0 then [[]] else []) ++ texts.take runs.bestStart ++ [[]] ++
      texts.drop bestEnd ++ if bestEnd = hextets.length then [[]] else []
  else texts

/-- `str` of an address of version 6 without a scope: the mapped addresses of version 4 have
    their last part with dots, in the versions of Python that write them so. -/
def ipv6Text (dotted : Bool) (value : ℕ) : Text :=
  if dotted && value / 2 ^ 32 = 0xFFFF then lit "::ffff:" ++ ipv4Text (value % 2 ^ 32)
  else [58].intercalate (compressHextets (hextets value))

/-- `compressed`. -/
def IpAddress.compressed (dotted : Bool) : IpAddress → Text
  | .v4 value => ipv4Text value
  | .v6 value => ipv6Text dotted value

example : (IpAddress.v6 1).compressed true = lit "::1" ∧
    (IpAddress.v6 (2 ^ 112)).compressed true = lit "1::" ∧
    (IpAddress.v6 (2 ^ 112 + 2 ^ 64 + 1)).compressed true = lit "1:0:0:1::1" ∧
    (IpAddress.v6 281470698652420).compressed true = lit "::ffff:1.2.3.4" ∧
    (IpAddress.v6 281470698652420).compressed false = lit "::ffff:102:304" := by
  decide +kernel


/-! ## Reading the text of an address -/

/-- The parts on one side of the zeros that are left out. -/
def sideTexts (side : List ℕ) : List Text := if side = [] then [[]] else side.map hextetText

/-- What these parts are read as. -/
def sideParts (side : List ℕ) : List (Option ℕ) := if side = [] then [none] else side.map some

theorem sideParts_ne_nil (side : List ℕ) : sideParts side ≠ [] := by
  rw [sideParts]
  split_ifs with hside
  · exact List.cons_ne_nil _ _
  · rwa [Ne, List.map_eq_nil_iff]

theorem mapM_sideTexts {side : List ℕ} (h : ∀ n ∈ side, n < 65536) :
    (sideTexts side).mapM parseHextet = some (sideParts side) := by
  rw [sideTexts, sideParts]
  split_ifs with hside
  · rfl
  · rw [mapM_eq_some, List.forall₂_map_left_iff, List.forall₂_map_right_iff]
    exact List.forall₂_same.2 fun n hn => (hextetText_spec (h n hn)).2.2.2

/-- The hextets of the parts on one side are read. -/
theorem read_sideParts {β : Type} (side : List ℕ) (next : List ℕ → Option β) :
    (if sideParts side = [none] then some [] >>= next else (sideParts side).mapM id >>= next) =
      next side := by
  rw [sideParts]
  by_cases hside : side = []
  · rw [if_pos hside, if_pos rfl, hside]
    rfl
  · obtain ⟨n, rest, rfl⟩ := List.exists_cons_of_ne_nil hside
    have hread : ((n :: rest).map some).mapM id = some (n :: rest) :=
      mapM_map_eq_some fun _ _ => rfl
    rw [if_neg hside, if_neg (by simp), hread]
    rfl

theorem idxOf?_append_cons {α : Type} [BEq α] [LawfulBEq α] {a : α} {l : List α} (h : a ∉ l)
    (r : List α) : (l ++ a :: r).idxOf? a = some l.length := by
  induction l with
  | nil => simp [List.idxOf?_cons]
  | cons b l ih =>
    rw [List.mem_cons, not_or] at h
    rw [List.cons_append, List.idxOf?_cons, ih h.2]
    simp [Ne.symm h.1]

/-- The parts around the zeros that are left out make up the address. -/
theorem joinHextets_sides {high low : List ℕ} {n : ℕ} (hn : 1 < n)
    (hlength : high.length + n + low.length = 8) :
    joinHextets (sideParts high ++ none :: sideParts low) =
      some (hextetsValue (high ++ List.replicate n 0 ++ low)) := by
  have hside : ∀ side : List ℕ, (sideParts side).length ≤ side.length + 1 ∧
      none ∉ (sideParts side).tail ∧ none ∉ (sideParts side).dropLast := by
    intro side
    rw [sideParts]
    split_ifs with hside
    · simp
    · refine ⟨by simp, fun hmem => ?_, fun hmem => ?_⟩
      · have := List.mem_of_mem_tail hmem
        simp at this
      · have := List.dropLast_subset _ hmem
        simp at this
  have hhigh := sideParts_ne_nil high
  have hlow := sideParts_ne_nil low
  have hinner : (sideParts high ++ none :: sideParts low).tail.dropLast =
      (sideParts high).tail ++ none :: (sideParts low).dropLast := by
    rw [List.tail_append_of_ne_nil hhigh, List.dropLast_append_of_ne_nil (List.cons_ne_nil _ _),
      List.dropLast_cons_of_ne_nil hlow]
  -- The empty part of the run of zeros is the only one that is left.
  have hcount : ((sideParts high).tail ++ none :: (sideParts low).dropLast).count none = 1 := by
    rw [List.count_append, List.count_cons_self, List.count_eq_zero_of_not_mem (hside high).2.1,
      List.count_eq_zero_of_not_mem (hside low).2.2]
  have hbounds : ¬ (9 < (sideParts high ++ none :: sideParts low).length ∨
      1 < ((sideParts high).tail ++ none :: (sideParts low).dropLast).count none) := by
    rw [hcount, List.length_append, List.length_cons]
    have := (hside high).1
    have := (hside low).1
    omega
  -- What is before it and after it is read as the two sides.
  have hstart : (sideParts high).tail.length + 1 = (sideParts high).length := by
    rw [List.length_tail, Nat.sub_add_cancel (List.length_pos_iff.2 hhigh)]
  have htake : (sideParts high ++ none :: sideParts low).take
      ((sideParts high).tail.length + 1) = sideParts high := by
    rw [hstart, List.take_left]
  have hdrop : (sideParts high ++ none :: sideParts low).drop
      ((sideParts high).tail.length + 2) = sideParts low := by
    have hlengths : (sideParts high).tail.length + 2 = (sideParts high ++ [none]).length := by
      rw [List.length_append, List.length_singleton, ← hstart]
    rw [hlengths, List.append_cons _ _ (sideParts low), List.drop_left]
  rw [joinHextets, hinner]
  dsimp only
  rw [if_neg hbounds, idxOf?_append_cons (hside high).2.1]
  dsimp only
  rw [htake, hdrop]
  refine (read_sideParts high _).trans ((read_sideParts low _).trans ?_)
  have hfew : high.length + low.length < 8 := by omega
  have hpower : 8 - high.length = n + low.length := by omega
  rw [if_pos hfew, hextetsValue_append, hextetsValue_append, hextetsValue_zeros,
    List.length_replicate, Nat.add_zero, Nat.mul_assoc, ← pow_add, hpower]

/-- Hextets of which none is left out make up the address. -/
theorem joinHextets_map_some {hextets : List ℕ} (h : hextets.length = 8) :
    joinHextets (hextets.map some) = some (hextetsValue hextets) := by
  have hnone : none ∉ (hextets.map some).tail.dropLast := fun hmem => by
    have := List.mem_of_mem_tail (List.dropLast_subset _ hmem)
    simp at this
  have hbounds : ¬ (9 < (hextets.map some).length ∨
      1 < (hextets.map some).tail.dropLast.count none) := by
    rw [List.count_eq_zero_of_not_mem hnone, List.length_map, h]
    decide
  have hread : (hextets.map some).mapM id = some hextets := mapM_map_eq_some fun _ _ => rfl
  rw [joinHextets, if_neg hbounds, List.idxOf?_eq_none_iff.2 hnone]
  dsimp only
  rw [hread]
  exact if_pos h

/-- What is left of the hextets: all of them, or those on the sides of a run of zeros. -/
theorem compressHextets_cases (hextets : List ℕ) :
    compressHextets hextets = hextets.map hextetText ∨ ∃ high n low, 1 < n ∧
      hextets = high ++ List.replicate n 0 ++ low ∧
      compressHextets hextets = sideTexts high ++ [] :: sideTexts low := by
  rw [compressHextets]
  dsimp only
  by_cases hlong : 1 < (zeroRuns hextets).bestLength
  · rw [if_pos hlong]
    obtain ⟨high, low, hextetsEq, hstart⟩ := exists_zeroRun hextets
    have hhigh := hstart (by omega)
    refine .inr ⟨high, (zeroRuns hextets).bestLength, low, hlong, hextetsEq, ?_⟩
    generalize (zeroRuns hextets).bestLength = n at hextetsEq ⊢
    rw [← hhigh]
    have htake : (hextets.map hextetText).take high.length = high.map hextetText := by
      rw [hextetsEq, List.append_assoc, List.map_append, List.take_left' (List.length_map _)]
    have hdrop : (hextets.map hextetText).drop (high.length + n) = low.map hextetText := by
      rw [hextetsEq, List.map_append, List.drop_left']
      rw [List.length_map, List.length_append, List.length_replicate]
    have hlow : high.length + n = hextets.length ↔ low = [] := by
      rw [hextetsEq, List.length_append, List.length_append, List.length_replicate,
        ← List.length_eq_zero_iff]
      omega
    rw [htake, hdrop, sideTexts, sideTexts]
    simp only [List.length_eq_zero_iff, hlow]
    by_cases hhighNil : high = []
    · by_cases hlowNil : low = []
      · simp [hhighNil, hlowNil]
      · simp [hhighNil, hlowNil]
    · by_cases hlowNil : low = []
      · simp [hhighNil, hlowNil]
      · simp [hhighNil, hlowNil]
  · exact .inl (if_neg hlong)

/-- The characters of a hextet. -/
theorem notMem_hextetText {c : CodePoint} (hc : ∀ digit < 16, c ≠ hexDigit digit) {n : ℕ}
    (h : n < 65536) : c ∉ hextetText n := by
  intro hmem
  obtain ⟨digit, hdigit, rfl⟩ := (hextetText_spec h).2.2.1 c hmem
  exact hc digit hdigit rfl

/-- A text of parts without dots is read part by part. -/
theorem parseIpv6Value_intercalate {parts : List Text} (hlength : 3 ≤ parts.length)
    (h : ∀ part ∈ parts, (58 : CodePoint) ∉ part ∧ (46 : CodePoint) ∉ part) :
    parseIpv6Value ([58].intercalate parts) = (parts.mapM parseHextet).bind joinHextets := by
  have hne : parts ≠ [] := List.ne_nil_of_length_pos (by omega)
  have hlast : (parts.getLastD []).contains 46 = false := by
    rw [← Bool.not_eq_true, List.contains_iff_mem, List.getLastD_eq_getLast?,
      List.getLast?_eq_some_getLast hne]
    exact (h _ (List.getLast_mem hne)).2
  rw [parseIpv6Value, Text.split_intercalate hne fun part hpart => (h part hpart).1]
  dsimp only
  rw [if_neg (by omega), hlast, if_neg Bool.false_ne_true]
  rfl

/-- An address of version 6 is read back. -/
theorem parseIpv6Value_hextets {value : ℕ} (h : value < 2 ^ 128) :
    parseIpv6Value ([58].intercalate (compressHextets (hextets value))) = some value := by
  have hsmall : ∀ n ∈ hextets value, n < 65536 := fun n hn => hextets_lt hn
  have hchars : ∀ n < 65536, (58 : CodePoint) ∉ hextetText n ∧ (46 : CodePoint) ∉ hextetText n :=
    fun n hn => ⟨notMem_hextetText (by decide) hn, notMem_hextetText (by decide) hn⟩
  have hlength := length_hextets value
  have hvalue := hextetsValue_hextets h
  -- Either no zeros are compressed, or the text has the two sides of the run.
  rcases compressHextets_cases (hextets value) with hall | ⟨high, n, low, hn, hsides, htexts⟩
  · have hread : ((hextets value).map hextetText).mapM parseHextet =
        some ((hextets value).map some) := by
      rw [mapM_eq_some, List.forall₂_map_left_iff, List.forall₂_map_right_iff]
      exact List.forall₂_same.2 fun n hn => (hextetText_spec (hsmall n hn)).2.2.2
    rw [hall, parseIpv6Value_intercalate (by rw [List.length_map, hlength]; decide)
      (List.forall_mem_map.2 fun n hn => hchars n (hsmall n hn)), hread, Option.bind_some,
      joinHextets_map_some hlength, hvalue]
  · have hsmallHigh : ∀ n ∈ high, n < 65536 := fun n hn => hsmall n (by simp [hsides, hn])
    have hsmallLow : ∀ n ∈ low, n < 65536 := fun n hn => hsmall n (by simp [hsides, hn])
    have hside : ∀ side : List ℕ, (∀ n ∈ side, n < 65536) → sideTexts side ≠ [] ∧
        ∀ part ∈ sideTexts side, (58 : CodePoint) ∉ part ∧ (46 : CodePoint) ∉ part := by
      intro side hside
      rw [sideTexts]
      split_ifs with hnil
      · simp
      · exact ⟨by rwa [Ne, List.map_eq_nil_iff],
          List.forall_mem_map.2 fun n hn => hchars n (hside n hn)⟩
    have hparts : ∀ part ∈ sideTexts high ++ [] :: sideTexts low,
        (58 : CodePoint) ∉ part ∧ (46 : CodePoint) ∉ part := by
      rw [List.forall_mem_append, List.forall_mem_cons]
      exact ⟨(hside high hsmallHigh).2, by simp, (hside low hsmallLow).2⟩
    -- Without a side there is an empty part in its place, so there are three parts at least.
    have hthree : 3 ≤ (sideTexts high ++ [] :: sideTexts low).length := by
      have := List.length_pos_iff.2 (hside high hsmallHigh).1
      have := List.length_pos_iff.2 (hside low hsmallLow).1
      rw [List.length_append, List.length_cons]
      omega
    have hread : (sideTexts high ++ [] :: sideTexts low).mapM parseHextet =
        some (sideParts high ++ none :: sideParts low) := by
      rw [List.mapM_append, mapM_sideTexts hsmallHigh, List.mapM_cons, mapM_sideTexts hsmallLow]
      rfl
    have height : high.length + n + low.length = 8 := by
      rw [← hlength, hsides, List.length_append, List.length_append, List.length_replicate]
    rw [htexts, parseIpv6Value_intercalate hthree hparts, hread, Option.bind_some,
      joinHextets_sides hn height, ← hsides, hvalue]

/-- An address of version 4 that is mapped to version 6 is read back. -/
theorem parseIpv6Value_mapped {value : ℕ} (h : value / 2 ^ 32 = 0xFFFF) :
    parseIpv6Value (lit "::ffff:" ++ ipv4Text (value % 2 ^ 32)) = some value := by
  have hsmall : value % 2 ^ 32 < 2 ^ 32 := Nat.mod_lt value (by decide)
  have hcolon : (58 : CodePoint) ∉ ipv4Text (value % 2 ^ 32) := fun hmem =>
    absurd (chars_ipv4Text _ 58 hmem) (by decide)
  have hsplit : (lit "::ffff:" ++ ipv4Text (value % 2 ^ 32)).split 58 =
      [[], [], lit "ffff", ipv4Text (value % 2 ^ 32)] := by
    have hjoin : lit "::ffff:" ++ ipv4Text (value % 2 ^ 32) =
        [58].intercalate [[], [], lit "ffff", ipv4Text (value % 2 ^ 32)] := by
      simp only [List.intercalate_cons_cons, List.intercalate_singleton]
      rfl
    rw [hjoin]
    refine Text.split_intercalate (List.cons_ne_nil _ _) ?_
    simp only [List.forall_mem_cons, List.not_mem_nil, false_imp_iff, implies_true, and_true,
      not_false_eq_true, true_and]
    exact ⟨by decide, hcolon⟩
  have hdots : (ipv4Text (value % 2 ^ 32)).contains 46 = true := by
    rw [List.contains_iff_mem]
    simp only [ipv4Text, List.intercalate_cons_cons, List.mem_append, List.mem_singleton,
      true_or, or_true]
  have hread : [([] : Text), [], lit "ffff"].mapM parseHextet =
      some [none, none, some 0xFFFF] := by decide
  rw [parseIpv6Value, hsplit]
  dsimp only [List.getLastD, List.getLast, List.dropLast]
  have hthree : ¬ [([] : Text), [], lit "ffff", ipv4Text (value % 2 ^ 32)].length < 3 :=
    Nat.not_lt.2 (Nat.le_succ 3)
  rw [if_neg hthree, hdots, if_pos rfl, parseIpv4_ipv4Text hsmall, hread]
  have hjoined : joinHextets [none, none, some 0xFFFF, some (value % 2 ^ 32 / 65536),
      some (value % 2 ^ 32 % 65536)] = some (hextetsValue [0xFFFF, value % 2 ^ 32 / 65536,
        value % 2 ^ 32 % 65536]) := by
    have hsides := @joinHextets_sides [] [0xFFFF, value % 2 ^ 32 / 65536, value % 2 ^ 32 % 65536] 5
      (by decide) rfl
    rw [List.nil_append, hextetsValue_append, hextetsValue_zeros, Nat.zero_mul, Nat.zero_add]
      at hsides
    exact hsides
  refine hjoined.trans (congrArg some ?_)
  rw [hextetsValue]
  simp only [List.foldl_cons, List.foldl_nil]
  omega

/-! ## The range of an address -/

theorem parseOctet_lt {t : Text} {n : ℕ} (h : parseOctet t = some n) :
    n < 256 ∧ ∀ c ∈ t, c.isDigit = true := by
  rw [parseOctet] at h
  split_ifs at h with hoctet
  obtain rfl := Option.some.inj h
  exact ⟨Nat.lt_succ_of_le hoctet.2.2.2.2, List.all_eq_true.1 hoctet.2.1⟩

/-- An address of version 4 has four octets. -/
theorem exists_octets {t : Text} {value : ℕ} (h : parseIpv4 t = some value) :
    ∃ a b c d, (t.split 46).Forall₂ (fun part n => parseOctet part = some n) [a, b, c, d] ∧
      value = ((a * 256 + b) * 256 + c) * 256 + d := by
  rw [parseIpv4] at h
  split at h
  · next a b c d hparts => exact ⟨a, b, c, d, mapM_eq_some.1 hparts, (Option.some.inj h).symm⟩
  · cases h

theorem parseIpv4_lt {t : Text} {value : ℕ} (h : parseIpv4 t = some value) : value < 2 ^ 32 := by
  obtain ⟨a, b, c, d, hparts, rfl⟩ := exists_octets h
  have hoctet : ∀ n ∈ [a, b, c, d], n < 256 := fun n hn => by
    obtain ⟨part, -, hpart⟩ := exists_of_forall₂ hparts.flip hn
    exact (parseOctet_lt hpart).1
  simp only [List.forall_mem_cons] at hoctet
  obtain ⟨ha, hb, hc, hd, -⟩ := hoctet
  omega

theorem hexNumber_lt {c : CodePoint} {n : ℕ} (h : hexNumber c = some n) : n < 16 := by
  rw [hexNumber, CodePoint.isDigit] at h
  split_ifs at h with hdigit
  · simp only [Bool.and_eq_true, decide_eq_true_eq] at hdigit
    obtain rfl := Option.some.inj h
    omega
  · obtain rfl := Option.some.inj h
    omega
  · obtain rfl := Option.some.inj h
    omega

/-- A part is read as a hextet, or as nothing. -/
theorem parseHextet_lt {t : Text} {part : Option ℕ} (h : parseHextet t = some part) :
    ∀ n ∈ part, n < 65536 := by
  rw [parseHextet] at h
  split_ifs at h with hnil hlength
  · obtain rfl := Option.some.inj h
    exact fun n hn => by cases hn
  · obtain ⟨digits, hdigits, rfl⟩ := Option.map_eq_some_iff.1 h
    have hread := mapM_eq_some.1 hdigits
    have hlt : ∀ digit ∈ digits, digit < 16 := fun digit hdigit => by
      obtain ⟨c, -, hc⟩ := exists_of_forall₂ hread.flip hdigit
      exact hexNumber_lt hc
    have hvalue : ∀ digits : List ℕ, (∀ digit ∈ digits, digit < 16) →
        digits.foldl (fun n digit => 16 * n + digit) 0 < 16 ^ digits.length := by
      intro digits hlt
      induction digits using List.reverseRecOn with
      | nil => decide
      | append_singleton digits digit ih =>
        rw [List.forall_mem_append, List.forall_mem_singleton] at hlt
        have := ih hlt.1
        rw [List.foldl_append, List.foldl_cons, List.foldl_nil, List.length_append,
          List.length_singleton, pow_succ]
        omega
    rintro n ⟨⟩
    refine (hvalue digits hlt).trans_le ((Nat.pow_le_pow_right (by decide) ?_).trans_eq
      (by decide : 16 ^ 4 = 65536))
    rw [← hread.length_eq]
    exact not_lt.1 hlength

theorem hextetsValue_lt {hextets : List ℕ} (h : ∀ n ∈ hextets, n < 65536) :
    hextetsValue hextets < 65536 ^ hextets.length := by
  induction hextets using List.reverseRecOn with
  | nil => decide
  | append_singleton hextets n ih =>
    rw [List.forall_mem_append, List.forall_mem_singleton] at h
    have := ih h.1
    rw [hextetsValue_concat, List.length_append, List.length_singleton, pow_succ]
    omega

/-- The hextets on one side. -/
theorem exists_side {parts : List (Option ℕ)} (hparts : ∀ part ∈ parts, ∀ n ∈ part, n < 65536)
    {β : Type} {next : List ℕ → Option β} {b : β}
    (h : (if parts = [none] then some [] >>= next else parts.mapM id >>= next) = some b) :
    ∃ side, (∀ n ∈ side, n < 65536) ∧ next side = some b := by
  split_ifs at h
  · exact ⟨[], by simp, h⟩
  · obtain ⟨side, hside, h⟩ := Option.bind_eq_some_iff.1 h
    refine ⟨side, fun n hn => ?_, h⟩
    obtain ⟨part, hpart, he⟩ := exists_of_forall₂ (mapM_eq_some.1 hside).flip hn
    exact hparts part hpart n he

/-- Parts that are read as hextets make up an address. -/
theorem joinHextets_lt {parts : List (Option ℕ)} (hparts : ∀ part ∈ parts, ∀ n ∈ part, n < 65536)
    {value : ℕ} (h : joinHextets parts = some value) : value < 2 ^ 128 := by
  rw [joinHextets] at h
  dsimp only at h
  by_cases hbounds : 9 < parts.length ∨ 1 < parts.tail.dropLast.count none
  · rw [if_pos hbounds] at h
    cases h
  rw [if_neg hbounds] at h
  cases hskip : parts.tail.dropLast.idxOf? none with
  | none =>
    rw [hskip] at h
    obtain ⟨hextets, hread, h⟩ := Option.bind_eq_some_iff.1 h
    split_ifs at h with hlength
    obtain rfl := Option.some.inj h
    have hsmall : ∀ n ∈ hextets, n < 65536 := fun n hn => by
      obtain ⟨part, hpart, he⟩ := exists_of_forall₂ (mapM_eq_some.1 hread).flip hn
      exact hparts part hpart n he
    have := hextetsValue_lt hsmall
    rw [hlength] at this
    exact this.trans_eq (by norm_num)
  | some i =>
    rw [hskip] at h
    obtain ⟨high, hhigh, h⟩ := exists_side (fun part hpart => hparts part (List.mem_of_mem_take hpart)) h
    obtain ⟨low, hlow, h⟩ := exists_side (fun part hpart => hparts part (List.mem_of_mem_drop hpart)) h
    split_ifs at h with hfew
    obtain rfl := Option.some.inj h
    have hhighLt := hextetsValue_lt hhigh
    have hlowLt : hextetsValue low < 65536 ^ (8 - high.length) :=
      (hextetsValue_lt hlow).trans_le (Nat.pow_le_pow_right (by decide) (by omega))
    calc hextetsValue high * 65536 ^ (8 - high.length) + hextetsValue low
        < (hextetsValue high + 1) * 65536 ^ (8 - high.length) := by
          rw [Nat.add_mul, Nat.one_mul]
          omega
      _ ≤ 65536 ^ high.length * 65536 ^ (8 - high.length) := Nat.mul_le_mul_right _ hhighLt
      _ = 2 ^ 128 := by
          rw [← pow_add, Nat.add_sub_cancel' (by omega)]
          norm_num

theorem parseIpv6Value_lt {t : Text} {value : ℕ} (h : parseIpv6Value t = some value) :
    value < 2 ^ 128 := by
  rw [parseIpv6Value] at h
  dsimp only at h
  have hread : ∀ (texts : List Text) (parts : List (Option ℕ)),
      texts.mapM parseHextet = some parts → ∀ part ∈ parts, ∀ n ∈ part, n < 65536 := by
    intro texts parts hparts part hpart
    obtain ⟨t, -, ht⟩ := exists_of_forall₂ (mapM_eq_some.1 hparts).flip hpart
    exact parseHextet_lt ht
  split_ifs at h
  · obtain ⟨last, hlast, h⟩ := Option.bind_eq_some_iff.1 h
    obtain ⟨parts, hparts, h⟩ := Option.bind_eq_some_iff.1 h
    refine joinHextets_lt ?_ h
    have := parseIpv4_lt hlast
    rw [List.forall_mem_append]
    refine ⟨hread _ _ hparts, ?_⟩
    simp only [List.forall_mem_cons, Option.mem_some_iff, forall_eq', List.not_mem_nil,
      false_imp_iff, implies_true, and_true]
    omega
  · obtain ⟨parts, hparts, h⟩ := Option.bind_eq_some_iff.1 h
    exact joinHextets_lt (hread _ _ hparts) h

/-! ## Addresses -/

/-- The value of an address is in the range of its version. -/
def IpAddress.InRange : IpAddress → Prop
  | .v4 value => value < 2 ^ 32
  | .v6 value => value < 2 ^ 128

theorem inRange_of_parse {t : Text} {ip : IpAddress} (h : IpAddress.parse t = some ip) :
    ip.InRange := by
  rw [IpAddress.parse] at h
  cases hv4 : parseIpv4 t with
  | some value =>
    rw [hv4] at h
    obtain rfl := Option.some.inj h
    exact parseIpv4_lt hv4
  | none =>
    rw [hv4] at h
    obtain ⟨value, hvalue, rfl⟩ := Option.map_eq_some_iff.1 h
    rw [parseIpv6] at hvalue
    split_ifs at hvalue
    split at hvalue
    · exact parseIpv6Value_lt hvalue
    · split_ifs at hvalue
      exact parseIpv6Value_lt hvalue

/-- The characters of an address: digits of hextets, colons and dots. -/
def isAddressChar (c : CodePoint) : Bool := (hexNumber c).isSome || c = 58 || c = 46

theorem mem_intercalate {separator : CodePoint} {parts : List Text} {c : CodePoint}
    (h : c ∈ [separator].intercalate parts) : c = separator ∨ ∃ part ∈ parts, c ∈ part := by
  induction parts with
  | nil => exact absurd h List.not_mem_nil
  | cons part parts ih =>
    cases parts with
    | nil => exact .inr ⟨part, List.mem_cons_self, by rwa [List.intercalate_singleton] at h⟩
    | cons next parts =>
      rw [List.intercalate_cons_cons, List.mem_append, List.mem_append, List.mem_singleton] at h
      rcases h with (h | rfl) | h
      · exact .inr ⟨part, List.mem_cons_self, h⟩
      · exact .inl rfl
      · obtain rfl | ⟨part', hpart, hc⟩ := ih h
        · exact .inl rfl
        · exact .inr ⟨part', List.mem_cons_of_mem _ hpart, hc⟩

theorem isAddressChar_of_ipv4Text {value : ℕ} {c : CodePoint} (h : c ∈ ipv4Text value) :
    isAddressChar c = true := by
  rw [isAddressChar]
  rcases chars_ipv4Text value c h with hdigit | rfl
  · rw [hexNumber, if_pos hdigit]
    rfl
  · rfl

/-- The parts of an address of version 6. -/
theorem chars_compressHextets (value : ℕ) : ∀ part ∈ compressHextets (hextets value),
    ∀ c ∈ part, ∃ digit < 16, c = hexDigit digit := by
  have htext : ∀ n ∈ hextets value, ∀ c ∈ hextetText n, ∃ digit < 16, c = hexDigit digit :=
    fun n hn => (hextetText_spec (hextets_lt hn)).2.2.1
  have hside : ∀ side : List ℕ, (∀ n ∈ side, n ∈ hextets value) → ∀ part ∈ sideTexts side,
      ∀ c ∈ part, ∃ digit < 16, c = hexDigit digit := by
    intro side hsub
    rw [sideTexts]
    split_ifs
    · simp
    · exact List.forall_mem_map.2 fun n hn => htext n (hsub n hn)
  rcases compressHextets_cases (hextets value) with hall | ⟨high, n, low, -, hsides, htexts⟩
  · rw [hall]
    exact List.forall_mem_map.2 htext
  · rw [htexts, List.forall_mem_append, List.forall_mem_cons]
    refine ⟨hside high fun n hn => ?_, by simp, hside low fun n hn => ?_⟩
    · simp [hsides, hn]
    · simp [hsides, hn]

/-- The text of an address has only characters of addresses. -/
theorem isAddressChar_of_compressed {dotted : Bool} {ip : IpAddress} {c : CodePoint}
    (h : c ∈ ip.compressed dotted) : isAddressChar c = true := by
  cases ip with
  | v4 value => exact isAddressChar_of_ipv4Text h
  | v6 value =>
    rw [IpAddress.compressed, ipv6Text] at h
    split_ifs at h with hmapped
    · rcases List.mem_append.1 h with h | h
      · have hall : (lit "::ffff:").all isAddressChar = true := by decide
        exact List.all_eq_true.1 hall c h
      · exact isAddressChar_of_ipv4Text h
    · obtain rfl | ⟨part, hpart, hc⟩ := mem_intercalate h
      · rfl
      · obtain ⟨digit, hdigit, rfl⟩ := chars_compressHextets value part hpart c hc
        rw [isAddressChar, hexNumber_hexDigit digit hdigit]
        rfl

/-- A text with another character than digits and dots is no address of version 4. -/
theorem parseIpv4_of_mem {c : CodePoint} {t : Text} (hdigit : c.isDigit = false) (hdot : c ≠ 46)
    (h : c ∈ t) : parseIpv4 t = none := by
  cases hv4 : parseIpv4 t with
  | none => rfl
  | some value =>
    obtain ⟨a, b, _, d, hparts, -⟩ := exists_octets hv4
    obtain ⟨part, hpart, hmem⟩ := Text.exists_part_of_mem hdot h
    obtain ⟨n, -, hn⟩ := exists_of_forall₂ hparts hpart
    exact absurd ((parseOctet_lt hn).2 c hmem) (Bool.eq_false_iff.1 hdigit)

/-- A text with a colon is no address of version 4. -/
theorem parseIpv4_of_colon {t : Text} (h : (58 : CodePoint) ∈ t) : parseIpv4 t = none :=
  parseIpv4_of_mem (by decide) (by decide) h

/-- The text of an address stands for it. -/
theorem parse_compressed (dotted : Bool) {ip : IpAddress} (h : ip.InRange) :
    IpAddress.parse (ip.compressed dotted) = some ip := by
  cases ip with
  | v4 value =>
    rw [IpAddress.compressed, IpAddress.parse, parseIpv4_ipv4Text h]
  | v6 value =>
    have hchars : ∀ c, isAddressChar c = false → c ∉ (IpAddress.v6 value).compressed dotted :=
      fun c hc hmem => by
        rw [isAddressChar_of_compressed hmem] at hc
        exact Bool.noConfusion hc
    have hvalue : parseIpv6Value ((IpAddress.v6 value).compressed dotted) = some value := by
      rw [IpAddress.compressed, ipv6Text]
      split_ifs with hmapped
      · rw [Bool.and_eq_true, decide_eq_true_iff] at hmapped
        exact parseIpv6Value_mapped hmapped.2
      · exact parseIpv6Value_hextets h
    have hcolon : (58 : CodePoint) ∈ (IpAddress.v6 value).compressed dotted := by
      by_contra hcolon
      rw [parseIpv6Value, Text.split_of_notMem hcolon] at hvalue
      exact absurd hvalue (by simp)
    have hslash : ((IpAddress.v6 value).compressed dotted).contains 47 = false := by
      rw [← Bool.not_eq_true, List.contains_iff_mem]
      exact hchars 47 (by decide)
    have hpercent : ((IpAddress.v6 value).compressed dotted).partition 37 =
        ((IpAddress.v6 value).compressed dotted, none) := by
      rw [Text.partition, List.dropWhile_eq_nil_iff.2]
      exact fun d hd => decide_eq_true fun he => hchars 37 (by decide) (he ▸ hd)
    rw [IpAddress.parse, parseIpv4_of_colon hcolon]
    dsimp only
    rw [parseIpv6, hslash, if_neg Bool.false_ne_true, hpercent]
    dsimp only
    rw [hvalue]
    rfl

/-! ## The length and the end of a text -/

theorem length_intercalate_le {separator : CodePoint} {parts : List Text} {n : ℕ}
    (h : ∀ part ∈ parts, part.length ≤ n) :
    ([separator].intercalate parts).length ≤ (n + 1) * parts.length := by
  induction parts with
  | nil => exact Nat.zero_le _
  | cons part parts ih =>
    rw [List.forall_mem_cons] at h
    cases parts with
    | nil =>
      rw [List.intercalate_singleton, List.length_singleton]
      omega
    | cons next parts =>
      have := ih h.2
      rw [List.intercalate_cons_cons, List.length_append, List.length_append, List.length_singleton,
        List.length_cons, Nat.mul_succ]
      omega

theorem length_natText : ∀ n < 256, (natText n).length ≤ 3 := by decide +kernel

theorem length_ipv4Text (value : ℕ) : (ipv4Text value).length ≤ 16 := by
  refine @length_intercalate_le 46 _ 3 ?_
  have hlength : ∀ n, (natText (n % 256)).length ≤ 3 := fun n =>
    length_natText _ (Nat.mod_lt n (by decide))
  simp only [List.forall_mem_cons, List.not_mem_nil, false_imp_iff, implies_true, and_true]
  exact ⟨hlength _, hlength _, hlength _, hlength _⟩

theorem length_hextetText {n : ℕ} (h : n < 65536) : (hextetText n).length ≤ 4 :=
  (hextetText_spec h).2.1

/-- There are not many parts of an address of version 6, and they are short. -/
theorem length_compressHextets (value : ℕ) : (compressHextets (hextets value)).length ≤ 9 ∧
    ∀ part ∈ compressHextets (hextets value), part.length ≤ 4 := by
  have hsmall : ∀ n ∈ hextets value, (hextetText n).length ≤ 4 := fun n hn =>
    length_hextetText (hextets_lt hn)
  have hside : ∀ side : List ℕ, (∀ n ∈ side, n ∈ hextets value) →
      (sideTexts side).length ≤ side.length + 1 ∧ ∀ part ∈ sideTexts side, part.length ≤ 4 := by
    intro side hsub
    rw [sideTexts]
    split_ifs with hnil
    · simp
    · rw [List.length_map]
      exact ⟨Nat.le_succ _, List.forall_mem_map.2 fun n hn => hsmall n (hsub n hn)⟩
  rcases compressHextets_cases (hextets value) with hall | ⟨high, n, low, hn, hsides, htexts⟩
  · rw [hall, List.length_map, length_hextets]
    exact ⟨by decide, List.forall_mem_map.2 hsmall⟩
  · have hlength := congrArg List.length hsides
    rw [length_hextets, List.length_append, List.length_append, List.length_replicate] at hlength
    have hhigh := hside high fun n hn => by simp [hsides, hn]
    have hlow := hside low fun n hn => by simp [hsides, hn]
    rw [htexts, List.length_append, List.length_cons, List.forall_mem_append, List.forall_mem_cons]
    exact ⟨by omega, hhigh.2, Nat.zero_le _, hlow.2⟩

/-- The text of an address is short. -/
theorem length_compressed (dotted : Bool) (ip : IpAddress) :
    (ip.compressed dotted).length ≤ 253 := by
  cases ip with
  | v4 value => exact (length_ipv4Text value).trans (by decide)
  | v6 value =>
    rw [IpAddress.compressed, ipv6Text]
    split_ifs
    · have := length_ipv4Text (value % 2 ^ 32)
      have hprefix : (lit "::ffff:").length = 7 := by decide
      rw [List.length_append, hprefix]
      omega
    · obtain ⟨hlength, hparts⟩ := length_compressHextets value
      have := @length_intercalate_le 58 _ 4 hparts
      omega

/-- The text of an address of version 4 does not end with a dot. -/
theorem getLast?_append_ipv4Text (t : Text) (value : ℕ) :
    (t ++ ipv4Text value).getLast? ≠ some 46 := by
  have hlast := digits_natText (value % 256)
  simp only [ipv4Text, List.intercalate_cons_cons, List.intercalate_singleton, ← List.append_assoc]
  rw [List.getLast?_append_of_ne_nil _ hlast.1]
  intro hdot
  exact absurd (hlast.2 46 (List.mem_of_getLast? hdot)) (by decide)

/-- The text of an address does not end with a dot. -/
theorem getLast?_compressed (dotted : Bool) (ip : IpAddress) :
    (ip.compressed dotted).getLast? ≠ some 46 := by
  cases ip with
  | v4 value => exact getLast?_append_ipv4Text [] value
  | v6 value =>
    rw [IpAddress.compressed, ipv6Text]
    split_ifs
    · exact getLast?_append_ipv4Text _ _
    · intro hdot
      obtain he | ⟨part, hpart, hc⟩ := mem_intercalate (List.mem_of_getLast? hdot)
      · exact absurd he (by decide)
      · obtain ⟨digit, hdigit, he⟩ := chars_compressHextets value part hpart 46 hc
        exact absurd he ((by decide : ∀ digit < 16, (46 : CodePoint) ≠ hexDigit digit) digit hdigit)

end McpRuntime
