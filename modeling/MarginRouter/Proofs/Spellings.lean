import MarginRouter.Command.Report
import MarginRouter.Proofs.Codec
import MarginRouter.Proofs.ReversedPaths
import Mathlib.Data.Bool.AllAny
import Mathlib.Data.List.TakeWhile

/-!
# How paths are spelled

A path has one text of its own and is read from many: blanks may stand around the digits, one marker may stand before them, and the
letters among them may be of either case. What is read from any of these spellings is written back as the text of its own.
-/

namespace MarginRouter

namespace Text

/-- What is taken off the two ends of a text is blank. -/
theorem exists_trim (cs : List Char) : ∃ before after, cs = before ++ trim cs ++ after ∧
    (∀ c ∈ before, isBlank c = true) ∧ ∀ c ∈ after, isBlank c = true := by
  refine ⟨cs.takeWhile isBlank, ((cs.dropWhile isBlank).reverse.takeWhile isBlank).reverse, ?_, ?_, ?_⟩
  · rw [trim, List.append_assoc, ← List.reverse_append, List.takeWhile_append_dropWhile, List.reverse_reverse,
      List.takeWhile_append_dropWhile]
  · exact fun c hc => List.mem_takeWhile_imp hc
  · exact fun c hc => List.mem_takeWhile_imp (List.mem_reverse.1 hc)

theorem dropWhile_isBlank {cs : List Char} (h : ∀ c ∈ cs, ¬isBlank c = true) : cs.dropWhile isBlank = cs :=
  List.dropWhile_eq_self_iff.2 fun hpos => h _ (List.getElem_mem hpos)

/-- A text without blanks is found between blanks. -/
theorem trim_append {before cs after : List Char} (hbefore : ∀ c ∈ before, isBlank c = true)
    (hcs : ∀ c ∈ cs, ¬isBlank c = true) (hafter : ∀ c ∈ after, isBlank c = true) : trim (before ++ cs ++ after) = cs := by
  have hrev : ∀ c ∈ cs.reverse, ¬isBlank c = true := fun c hc => hcs c (List.mem_reverse.1 hc)
  have hend : ((cs ++ after).reverse.dropWhile isBlank).reverse = cs := by
    rw [List.reverse_append, List.dropWhile_append_of_pos fun c hc => hafter c (List.mem_reverse.1 hc),
      dropWhile_isBlank hrev, List.reverse_reverse]
  rw [trim, List.append_assoc, List.dropWhile_append_of_pos hbefore]
  cases cs with
  | nil =>
    have hnil : after.dropWhile isBlank = [] := List.dropWhile_eq_nil_iff.2 hafter
    rw [List.nil_append, hnil]
    rfl
  | cons c cs => rwa [List.cons_append, List.dropWhile_cons_of_neg (hcs c List.mem_cons_self)]

end Text

namespace Hex

/-- The digits of either case. -/
def digits : List Char :=
  ['0', '1', '2', '3', '4', '5', '6', '7', '8', '9', 'a', 'b', 'c', 'd', 'e', 'f', 'A', 'B', 'C', 'D', 'E', 'F']

/-- What may stand before digits: nothing, or one marker. -/
def markers : List (List Char) :=
  [[], ['0', 'x'], ['0', 'X']]

/-- A text spells digits if nothing else stands in it than the digits, one marker right before them at most, and blanks around. -/
inductive Spells (ds : List Char) : List Char → Prop where
  | intro {before marker after : List Char} (hbefore : ∀ c ∈ before, Text.isBlank c = true) (hmarker : marker ∈ markers)
      (hdigits : ∀ c ∈ ds, c ∈ digits) (hafter : ∀ c ∈ after, Text.isBlank c = true) :
      Spells ds (before ++ (marker ++ ds) ++ after)

variable {c : Char} {cs ds : List Char} {bytes : List UInt8}

/-! ## Digits -/

theorem isSome_value?_iff : (value? c).isSome = true ↔ c ∈ digits := by
  constructor
  · intro h
    have hle : c ≤ 'f' := by
      unfold value? at h
      split at h
      · next hc => exact Char.le_trans hc.2 (by decide)
      · split at h
        · next hc => exact hc.2
        · split at h
          · next hc => exact Char.le_trans hc.2 (by decide)
          · cases h
    have hascii : c.toNat < 128 := Nat.lt_of_le_of_lt (UInt32.le_iff_toNat_le.1 (Char.le_def.1 hle)) (by decide)
    have hall : ∀ n < 128, (value? (Char.ofNat n)).isSome = true → Char.ofNat n ∈ digits := by decide
    rw [← Char.ofNat_toNat c] at h ⊢
    exact hall _ hascii h
  · exact (List.all_iff_forall_prop.1 (by decide) : ∀ c ∈ digits, (value? c).isSome = true) c

theorem value?_lt : ∀ c ∈ digits, (value? c).getD 0 < 16 :=
  List.all_iff_forall_prop.1 (by decide)

/-- A digit that is read and written again is in lower case. -/
theorem digit_value? : ∀ c ∈ digits, digit ((value? c).getD 0) = c.toLower :=
  List.all_iff_forall_prop.1 (by decide)

theorem utf8Size_of_mem : ∀ c ∈ digits, c.utf8Size = 1 :=
  List.all_iff_forall_prop.1 (by decide)

theorem not_isBlank_of_mem : ∀ c ∈ digits, ¬Text.isBlank c = true :=
  List.all_iff_forall_prop.1 (by decide)

/-! ## Reading digits -/

theorem firstBad_eq_none {position : Nat} : firstBad position cs = none ↔ ∀ c ∈ cs, c ∈ digits := by
  induction cs generalizing position with
  | nil => exact iff_of_true rfl (List.forall_mem_nil _)
  | cons c cs ih =>
    rw [firstBad, List.forall_mem_cons, ← isSome_value?_iff]
    by_cases hc : (value? c).isSome = true
    · rw [if_pos hc, ih]
      exact (and_iff_right hc).symm
    · rw [if_neg hc]
      exact iff_of_false (Option.some_ne_none _) fun h => hc h.1

theorem byteLength_of_digits (h : ∀ c ∈ cs, c ∈ digits) : byteLength cs = cs.length := by
  induction cs with
  | nil => rfl
  | cons c cs ih =>
    obtain ⟨hc, hcs⟩ := List.forall_mem_cons.1 h
    show c.utf8Size + byteLength cs = cs.length + 1
    rw [utf8Size_of_mem c hc, ih hcs, Nat.add_comm]

/-- Digits that are read and written again are in lower case. They are taken two by two. -/
theorem encode_pairs : ∀ {cs : List Char}, (∀ c ∈ cs, c ∈ digits) → cs.length % 2 = 0 →
    encode (pairs cs) = cs.map Char.toLower
  | [], _, _ => rfl
  | [_], _, heven => absurd heven Nat.one_ne_zero
  | a :: b :: cs, h, heven => by
    obtain ⟨ha, hb, hcs⟩ : a ∈ digits ∧ b ∈ digits ∧ ∀ c ∈ cs, c ∈ digits := by
      simpa only [List.forall_mem_cons] using h
    have hrest : cs.length % 2 = 0 := by
      rwa [List.length_cons, List.length_cons, Nat.add_assoc, Nat.add_mod_right] at heven
    have hlt := value?_lt a ha
    have hlt' := value?_lt b hb
    have hbyte : (UInt8.ofNat (16 * (value? a).getD 0 + (value? b).getD 0)).toNat =
        16 * (value? a).getD 0 + (value? b).getD 0 := UInt8.toNat_ofNat_of_lt' (show _ < 256 by omega)
    rw [pairs, encode_cons, hbyte, encode_pairs hcs hrest, show (16 * (value? a).getD 0 + (value? b).getD 0) / 16 =
      (value? a).getD 0 by omega, show (16 * (value? a).getD 0 + (value? b).getD 0) % 16 = (value? b).getD 0 by omega,
      digit_value? a ha, digit_value? b hb]
    rfl

theorem length_encode (bytes : List UInt8) : (encode bytes).length = 2 * bytes.length := by
  induction bytes with
  | nil => rfl
  | cons b bytes ih =>
    rw [encode_cons, List.length_cons, List.length_cons, ih, List.length_cons]
    rfl

/-- A text is read exactly when it consists of an even number of digits, and what is read is written in the same digits, in lower
case. -/
theorem decode_eq_ok : decode cs = .ok bytes ↔ (∀ c ∈ cs, c ∈ digits) ∧ encode bytes = cs.map Char.toLower := by
  have hread (hcs : ∀ c ∈ cs, c ∈ digits) (heven : cs.length % 2 = 0) : decode cs = .ok (pairs cs) := by
    rw [decode, byteLength_of_digits hcs, if_neg (by omega), firstBad_eq_none.2 hcs]
  constructor
  · intro h
    by_cases hodd : byteLength cs % 2 = 1
    · rw [decode, if_pos hodd] at h
      cases h
    · cases hbad : firstBad 0 cs with
      | some fault =>
        rw [decode, if_neg hodd, hbad] at h
        cases h
      | none =>
        have hcs := firstBad_eq_none.1 hbad
        have heven : cs.length % 2 = 0 := by
          rw [byteLength_of_digits hcs] at hodd
          omega
        cases (hread hcs heven).symm.trans h
        exact ⟨hcs, encode_pairs hcs heven⟩
  · rintro ⟨hcs, hbytes⟩
    have heven : cs.length % 2 = 0 := by
      rw [← List.length_map Char.toLower, ← hbytes, length_encode, Nat.mul_mod_right]
    have hsame : decode (encode (pairs cs)) = decode (encode bytes) := by rw [encode_pairs hcs heven, hbytes]
    rw [decode_encode, decode_encode] at hsame
    rw [hread hcs heven, hsame]

/-! ## Spellings -/

theorem not_isBlank_of_mem_marker {marker : List Char} (h : marker ∈ markers) : ∀ c ∈ marker, ¬Text.isBlank c = true := by
  have hmarkers : ∀ marker ∈ markers, (marker.any Text.isBlank) = false := by decide
  exact List.any_eq_false.1 (hmarkers marker h)

theorem exists_stripMarker (cs : List Char) : ∃ marker ∈ markers, cs = marker ++ stripMarker cs := by
  fun_cases stripMarker cs with
  | case1 cs => exact ⟨['0', 'x'], by decide, rfl⟩
  | case2 cs => exact ⟨['0', 'X'], by decide, rfl⟩
  | case3 => exact ⟨[], by decide, rfl⟩

/-- No digits begin with a marker. -/
theorem stripMarker_of_digits (h : ∀ c ∈ ds, c ∈ digits) : stripMarker ds = ds := by
  fun_cases stripMarker ds with
  | case1 cs => exact absurd (h 'x' (by simp)) (by decide)
  | case2 cs => exact absurd (h 'X' (by simp)) (by decide)
  | case3 => rfl

theorem stripMarker_append {marker : List Char} (hmarker : marker ∈ markers) (h : ∀ c ∈ ds, c ∈ digits) :
    stripMarker (marker ++ ds) = ds := by
  simp only [markers, List.mem_cons, List.not_mem_nil, or_false] at hmarker
  obtain rfl | rfl | rfl := hmarker
  · exact stripMarker_of_digits h
  · rfl
  · rfl

/-- What a text spells is what is left of it without the blanks at its ends and without one marker, if these are digits. -/
theorem spells_iff : Spells ds cs ↔ stripMarker (Text.trim cs) = ds ∧ ∀ c ∈ ds, c ∈ digits := by
  constructor
  · rintro ⟨hbefore, hmarker, hdigits, hafter⟩
    refine ⟨?_, hdigits⟩
    rw [Text.trim_append hbefore ?_ hafter, stripMarker_append hmarker hdigits]
    exact List.forall_mem_append.2 ⟨not_isBlank_of_mem_marker hmarker, fun c hc => not_isBlank_of_mem c (hdigits c hc)⟩
  · rintro ⟨rfl, hdigits⟩
    obtain ⟨before, after, hcs, hbefore, hafter⟩ := Text.exists_trim cs
    obtain ⟨marker, hmarker, htrim⟩ := exists_stripMarker (Text.trim cs)
    have hspells := Spells.intro hbefore hmarker hdigits hafter
    rwa [← htrim, ← hcs] at hspells

/-- A text spells one thing at most. -/
theorem Spells.unique {ds' : List Char} (h : Spells ds cs) (h' : Spells ds' cs) : ds = ds' :=
  (spells_iff.1 h).1.symm.trans (spells_iff.1 h').1

/-- The text of a byte string spells its digits. -/
theorem spells_text (bytes : List UInt8) : Spells (encode bytes) (text bytes).toList := by
  have hspells : Spells (encode bytes) ([] ++ (['0', 'x'] ++ encode bytes) ++ []) :=
    .intro nofun (by decide) (decode_eq_ok.1 (decode_encode bytes)).1 nofun
  have htext : (text bytes).toList = ['0', 'x'] ++ encode bytes := by
    rw [text, String.toList_append, String.toList_ofList, String.toList_ofList]
  rwa [htext, ← List.append_nil (_ ++ _)]

end Hex

namespace Path

variable {p : Path} {cs ds : List Char} {d : Direction} {c : Composition}

/-- A text is read as a path exactly when it spells the digits of the path, in either case. -/
theorem ofHex_eq_ok : ofHex cs = .ok p ↔ ∃ ds, Hex.Spells ds cs ∧ Hex.encode p.encode = ds.map Char.toLower := by
  constructor
  · intro h
    cases hdecode : Hex.decode (Hex.stripMarker (Text.trim cs)) with
    | error fault =>
      rw [ofHex, hdecode] at h
      cases h
    | ok bytes =>
      rw [ofHex, hdecode] at h
      obtain ⟨hdigits, hlower⟩ := Hex.decode_eq_ok.1 hdecode
      exact ⟨_, Hex.spells_iff.2 ⟨rfl, hdigits⟩, encode_of_decode h ▸ hlower⟩
  · rintro ⟨ds, hspells, hlower⟩
    obtain ⟨rfl, hdigits⟩ := Hex.spells_iff.1 hspells
    rw [ofHex, Hex.decode_eq_ok.2 ⟨hdigits, hlower⟩]
    exact p.decode_encode

theorem ofHex_toHex (p : Path) : ofHex p.toHex.toList = .ok p :=
  ofHex_eq_ok.2 ⟨_, Hex.spells_text p.encode, (Hex.decode_eq_ok.1 (Hex.decode_encode p.encode)).2⟩

/-- The spelled digits and the text of the path itself. -/
theorem toHex_of_spells (hspells : Hex.Spells ds cs) (h : ofHex cs = .ok p) :
    p.toHex = "0x" ++ String.ofList (ds.map Char.toLower) := by
  obtain ⟨ds', hspells', hlower⟩ := ofHex_eq_ok.1 h
  rw [hspells.unique hspells', ← hlower]
  rfl

/-- The digits are as many as those of a path, two for each byte. -/
theorem exists_ofHex_iff : (∃ p, ofHex cs = .ok p) ↔
    ∃ ds, Hex.Spells ds cs ∧ ∃ k, ds.length = 2 * (20 + 25 * k) ∨ ds.length = 2 * (21 + 25 * k) := by
  constructor
  · rintro ⟨p, h⟩
    obtain ⟨ds, hspells, hlower⟩ := ofHex_eq_ok.1 h
    obtain ⟨⟨k, hk⟩, -⟩ := decode_eq_ok.1 p.decode_encode
    have hlength : ds.length = 2 * p.encode.length := by
      rw [← Hex.length_encode, hlower, List.length_map]
    exact ⟨ds, hspells, k, by omega⟩
  · rintro ⟨ds, hspells, k, hk⟩
    have hlower : Hex.encode (Hex.pairs ds) = ds.map Char.toLower :=
      Hex.encode_pairs (Hex.spells_iff.1 hspells).2 (by omega)
    have hlength := congrArg List.length hlower
    rw [Hex.length_encode, List.length_map] at hlength
    have hread := decode_eq_ok.2 ⟨⟨k, show (Hex.pairs ds).length = _ ∨ _ by omega⟩, rfl⟩
    exact ⟨_, ofHex_eq_ok.2 ⟨ds, hspells, by rw [encode_of_decode hread, hlower]⟩⟩

end Path

namespace Command

variable {s : Config.Settings} {p : Path} {hex : String}

/-- Whoever asks for the path that leads back gets its text, however the path is spelled. -/
theorem report_reverse (h : Path.ofHex hex.toList = .ok p) :
    (Question.path (.reverse hex)).report s = .printed [p.reversed.toHex] := by
  rw [Question.report, PathQuestion.answer, reversePath, h]
  rfl

end Command

/-- The texts of paths, exactly. A path reads back from its own text. Of all texts, those are read that spell two digits for each of
the 20 + 25k or 21 + 25k bytes of a path, and the text of the path that is read consists of the marker and of these digits in lower
case. So the text of a path that can be classified, however it is spelled, is reversed by the command into a text that the command
reverses into the text of the path itself. -/
theorem Path.hex_roundTrip :
    (∀ p : Path, ofHex p.toHex.toList = .ok p) ∧
    (∀ hex : String, (∃ p, ofHex hex.toList = .ok p) ↔
      ∃ ds, Hex.Spells ds hex.toList ∧ ∃ k, ds.length = 2 * (20 + 25 * k) ∨ ds.length = 2 * (21 + 25 * k)) ∧
    (∀ (hex : String) (ds : List Char) (p : Path), Hex.Spells ds hex.toList → ofHex hex.toList = .ok p →
      p.toHex = "0x" ++ String.ofList (ds.map Char.toLower)) ∧
    ∀ (s : Config.Settings) (hex : String) (p : Path) (d : Direction) (c : Composition), ofHex hex.toList = .ok p →
      p.classify d = .ok c →
        ∃ back, (Command.Question.path (.reverse hex)).report s = .printed [back] ∧
          (Command.Question.path (.reverse back)).report s = .printed [p.toHex] := by
  refine ⟨ofHex_toHex, fun hex => exists_ofHex_iff, fun hex ds p => toHex_of_spells, ?_⟩
  intro s hex p d c hread hclassify
  obtain ⟨a, n, hleads, hcodes, -⟩ := classify_eq_ok.1 hclassify
  refine ⟨p.reversed.toHex, Command.report_reverse hread, ?_⟩
  rw [Command.report_reverse p.reversed.ofHex_toHex, reversed_reversed hleads hcodes]

namespace Sample

/-- The digits of `marginPath`, some of the letters capital. -/
def marginDigits : List Char :=
  List.replicate 39 '0' ++ "A0009c40102".toList ++ List.replicate 39 '0' ++ "B0002580200".toList ++ List.replicate 39 '0' ++
    "C10".toList

/-- The digits behind a marker, with blanks around them. -/
def marginText : String :=
  "\t 0X" ++ String.ofList marginDigits ++ "\n"

end Sample

/-- `Path.hex_roundTrip` where a position is opened, at a text with capital letters, a capital marker and blanks around. -/
theorem Path.hex_roundTrip_margin :
    Hex.Spells Sample.marginDigits Sample.marginText.toList ∧
      Path.ofHex Sample.marginText.toList = .ok Sample.marginPath ∧
      Sample.marginPath.toHex = "0x" ++ String.ofList (Sample.marginDigits.map Char.toLower) ∧
      Sample.marginPath.classify .exactIn = .ok .marginOpen ∧
      ∃ back, (Command.Question.path (.reverse Sample.marginText)).report .default = .printed [back] ∧
        (Command.Question.path (.reverse back)).report .default = .printed [Sample.marginPath.toHex] := by
  have hspells : Hex.Spells Sample.marginDigits Sample.marginText.toList := by
    rw [Sample.marginText, String.toList_append, String.toList_append, String.toList_ofList]
    exact Hex.spells_iff.2 ⟨by decide +kernel, List.all_iff_forall_prop.1 (by decide +kernel)⟩
  have hlower : Hex.encode Sample.marginPath.encode = Sample.marginDigits.map Char.toLower := by decide +kernel
  have hread := Path.ofHex_eq_ok.2 ⟨_, hspells, hlower⟩
  have hclassify : Sample.marginPath.classify .exactIn = .ok .marginOpen := Attempt.ok_of_toOption (by decide +kernel)
  obtain ⟨-, -, hwrites, htwice⟩ := Path.hex_roundTrip
  exact ⟨hspells, hread, hwrites _ _ _ hspells hread, hclassify, htwice .default _ _ _ _ hread hclassify⟩

end MarginRouter
