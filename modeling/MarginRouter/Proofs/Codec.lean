import MarginRouter.Path.Codec

/-!
# The codec of paths

Writing and reading are inverse to each other. A path reads back as itself, and a byte string whose length some path has is the
written form of the path read from it. So the length alone decides whether a byte string is a path, and no two paths are written
alike.
-/

namespace MarginRouter

namespace Hop

theorem length_encode (h : Hop) : h.encode.length = width := by
  simp [encode, width]

/-- Reading a hop undoes writing it. -/
theorem decode_encode (h : Hop) : decode h.encode = h := by
  obtain ⟨token, fee, provider, code, hfee⟩ := h
  have hnumber : BigEndian.decode (BigEndian.encode 3 fee) = fee := BigEndian.decode_encode hfee
  have hdrop : (token.toBytes ++ (BigEndian.encode 3 fee ++ [provider, code])).drop 20 =
      BigEndian.encode 3 fee ++ [provider, code] := List.drop_left' (Address.length_toBytes token)
  have htake : (BigEndian.encode 3 fee ++ [provider, code]).take 3 = BigEndian.encode 3 fee :=
    List.take_left' (BigEndian.length_encode 3 fee)
  simp [decode, encode, Address.ofBytes_append, hdrop, htake, hnumber]

/-- Twenty-five bytes are the written form of the hop read from them. -/
theorem encode_decode {bytes : List UInt8} (h : bytes.length = width) : (decode bytes).encode = bytes := by
  have hlen : bytes.length = 25 := h
  have hfee : BigEndian.encode 3 (BigEndian.decode ((bytes.drop 20).take 3)) = (bytes.drop 20).take 3 := by
    refine BigEndian.encode_decode_take ?_
    rw [List.length_drop, hlen]
    decide
  have hlast : bytes.drop 23 = [bytes.getD 23 0, bytes.getD 24 0] := by
    rw [List.drop_eq_getElem_cons (by omega), List.drop_eq_getElem_cons (by omega), List.drop_of_length_le (by omega),
      ← List.getElem_eq_getD 0, ← List.getElem_eq_getD 0]
  calc (decode bytes).encode
      = bytes.take 20 ++ ((bytes.drop 20).take 3 ++ bytes.drop 23) := by
        simp only [encode, decode, Address.toBytes_ofBytes (show 20 ≤ bytes.length by omega), hfee, hlast]
    _ = bytes.take 20 ++ bytes.drop 20 := by
        rw [show bytes.drop 23 = (bytes.drop 20).drop 3 by rw [List.drop_drop], List.take_append_drop]
    _ = bytes := List.take_append_drop 20 bytes

end Hop

/-- A leg as a step from its first token. -/
def Leg.step (l : Leg) : Path.Step :=
  ⟨l.hop.fee, l.hop.provider, l.hop.code, l.tail⟩

namespace Path

variable {p : Path} {bytes : List UInt8}

theorem length_encode (p : Path) : p.encode.length = p.encodedLength := by
  have hhops : (p.hops.flatMap Hop.encode).length = p.hops.length * Hop.width := by
    rw [List.length_flatMap, List.map_congr_left fun h _ => h.length_encode, List.map_const', List.sum_replicate_nat]
  rw [encode, List.length_append, List.length_append, hhops, Address.length_toBytes, encodedLength, Nat.add_assoc]

/-! ## Reading what has been written -/

/-- The byte behind the final token is the mode byte. -/
theorem getElem?_mode (token : Address) (modeByte : Option UInt8) : (token.toBytes ++ modeByte.toList)[20]? = modeByte := by
  rw [List.getElem?_append_right (Nat.le_of_eq (Address.length_toBytes token)), Address.length_toBytes]
  cases modeByte with
  | none => rfl
  | some byte => rfl

/-- As many hops as have been written read back as themselves, whatever follows. The induction is on the hops. -/
theorem decodeHops_flatMap (hops : List Hop) (rest : List UInt8) :
    decodeHops hops.length (hops.flatMap Hop.encode ++ rest) = ⟨hops, .ofBytes rest, rest[20]?⟩ := by
  induction hops with
  | nil => rfl
  | cons h hops ih =>
    have htake : (h.encode ++ (hops.flatMap Hop.encode ++ rest)).take Hop.width = h.encode := List.take_left' h.length_encode
    have hdrop : (h.encode ++ (hops.flatMap Hop.encode ++ rest)).drop Hop.width = hops.flatMap Hop.encode ++ rest :=
      List.drop_left' h.length_encode
    rw [List.flatMap_cons, List.append_assoc, List.length_cons, decodeHops, htake, hdrop, ih, Hop.decode_encode]

/-! ## Writing what has been read -/

/-- The lengths that paths have. -/
theorem decodable_iff (length : Nat) :
    20 ≤ length ∧ (length - 20) % Hop.width ≤ 1 ↔ ∃ k, length = 20 + 25 * k ∨ length = 21 + 25 * k := by
  rw [Hop.width]
  constructor
  · rintro ⟨hmin, hrest⟩
    exact ⟨(length - 20) / 25, by omega⟩
  · rintro ⟨k, hk⟩
    omega

/-- What a byte string of such a length holds is written as it stands there. The induction is on the hops it holds. -/
theorem encode_decodeHops (count : Nat) :
    ∀ {bytes : List UInt8}, bytes.length = 20 + 25 * count ∨ bytes.length = 21 + 25 * count →
      (decodeHops count bytes).encode = bytes := by
  induction count with
  | zero =>
    intro bytes hlen
    have hmode : bytes.drop 20 = bytes[20]?.toList := by
      by_cases hone : bytes.length = 21
      · rw [List.drop_eq_getElem_cons (by omega), List.drop_of_length_le (by omega), List.getElem?_eq_getElem (by omega)]
        rfl
      · rw [List.drop_of_length_le (by omega), List.getElem?_eq_none (by omega)]
        rfl
    rw [decodeHops, encode, List.flatMap_nil, List.nil_append, Address.toBytes_ofBytes (by omega), ← hmode,
      List.take_append_drop]
  | succ count ih =>
    intro bytes hlen
    have hhead : (bytes.take Hop.width).length = Hop.width := by
      rw [List.length_take, Hop.width]
      omega
    have htail : (decodeHops count (bytes.drop Hop.width)).encode = bytes.drop Hop.width := by
      refine ih ?_
      rw [List.length_drop, Hop.width]
      omega
    rw [decodeHops, encode, List.flatMap_cons, List.append_assoc, Hop.encode_decode hhead]
    refine Eq.trans (congrArg _ htail) ?_
    exact List.take_append_drop Hop.width bytes

/-- A byte string is read exactly when it has the length of a path. -/
theorem decode_eq_ok : decode bytes = .ok p ↔
    (∃ k, bytes.length = 20 + 25 * k ∨ bytes.length = 21 + 25 * k) ∧
      decodeHops ((bytes.length - 20) / Hop.width) bytes = p := by
  unfold decode
  rw [← decodable_iff]
  by_cases h : 20 ≤ bytes.length ∧ (bytes.length - 20) % Hop.width ≤ 1
  · simp only [if_pos h, Except.ok.injEq]
    exact ⟨fun hp => ⟨h, hp⟩, fun hp => hp.2⟩
  · simp only [if_neg h, reduceCtorEq, false_iff]
    exact fun hp => h hp.1

theorem decode_eq_malformed (h : ¬∃ k, bytes.length = 20 + 25 * k ∨ bytes.length = 21 + 25 * k) :
    decode bytes = .error (.malformed bytes.length) := by
  unfold decode
  exact if_neg (mt (decodable_iff _).1 h)

/-- Reading a path undoes writing it. -/
theorem decode_encode (p : Path) : decode p.encode = .ok p := by
  have hlen := p.length_encode
  have hmode : p.modeByte.toList.length ≤ 1 := by
    cases p.modeByte with
    | none => exact Nat.zero_le 1
    | some byte => exact Nat.le_refl 1
  rw [encodedLength, Hop.width] at hlen
  have hcount : (p.encode.length - 20) / Hop.width = p.hops.length := by
    rw [Hop.width]
    omega
  refine decode_eq_ok.2 ⟨⟨p.hops.length, by omega⟩, ?_⟩
  rw [hcount, encode, decodeHops_flatMap, Address.ofBytes_append, getElem?_mode]

/-- Writing a path undoes reading it. -/
theorem encode_of_decode (h : decode bytes = .ok p) : p.encode = bytes := by
  obtain ⟨⟨k, hk⟩, rfl⟩ := decode_eq_ok.1 h
  refine encode_decodeHops _ ?_
  rw [Hop.width]
  omega

theorem encode_injective : Function.Injective encode := by
  intro p q h
  have hq := decode_encode q
  rw [← h, decode_encode p] at hq
  exact Except.ok.inj hq

/-! ## Paths taken step by step -/

theorem walk_legsFrom (final : Address) (hops : List Hop) :
    ∀ index, walk (firstOf hops final) index ((legsFrom final index hops).map Leg.step) = .ok (hops, final) := by
  induction hops with
  | nil => exact fun _ => rfl
  | cons h hops ih =>
    intro index
    have hrest : walk (Leg.step ⟨index, h, firstOf hops final⟩).next (index + 1)
        ((legsFrom final (index + 1) hops).map Leg.step) = .ok (hops, final) := ih (index + 1)
    rw [legsFrom, List.map_cons, walk, hrest]
    exact dif_pos h.fee_lt

/-- Every path can be taken step by step: none of its fees is too large. -/
theorem ofSteps_legs (p : Path) : ofSteps p.firstToken (p.legs.map Leg.step) p.modeByte = .ok p := by
  rw [ofSteps, firstToken, legs, walk_legsFrom]
  rfl

/-! ## One to one -/

/-- The codec is a bijection between the paths and the byte strings of 20 + 25k and 21 + 25k bytes. Every path, that is, whatever
the check of fees accepts, is written in the bytes its length counts and reads back as itself. A byte string is read exactly when
it has such a length, and then it is the written form of the path read from it; of any other, the length is reported. So no fee
is ever found out of range, and no two paths are written alike. -/
theorem codec_bijective :
    (∀ p : Path, (∃ start steps, ofSteps start steps p.modeByte = .ok p) ∧ decode p.encode = .ok p ∧
      p.encode.length = p.encodedLength) ∧
    (∀ bytes, (∃ p, decode bytes = .ok p) ↔ ∃ k, bytes.length = 20 + 25 * k ∨ bytes.length = 21 + 25 * k) ∧
    (∀ bytes p, decode bytes = .ok p → p.encode = bytes) ∧
    (∀ bytes, (¬∃ k, bytes.length = 20 + 25 * k ∨ bytes.length = 21 + 25 * k) →
      decode bytes = .error (.malformed bytes.length)) ∧
    (∀ bytes index fee, decode bytes ≠ .error (.feeOutOfRange index fee)) ∧
    Function.Injective encode := by
  refine ⟨?_, ?_, ?_, ?_, ?_, encode_injective⟩
  · intro p
    exact ⟨⟨_, _, p.ofSteps_legs⟩, p.decode_encode, p.length_encode⟩
  · intro bytes
    constructor
    · rintro ⟨p, hp⟩
      exact (decode_eq_ok.1 hp).1
    · intro hlen
      exact ⟨_, decode_eq_ok.2 ⟨hlen, rfl⟩⟩
  · intro bytes p hp
    exact encode_of_decode hp
  · intro bytes hlen
    exact decode_eq_malformed hlen
  · intro bytes index fee h
    by_cases hlen : ∃ k, bytes.length = 20 + 25 * k ∨ bytes.length = 21 + 25 * k
    · cases (decode_eq_ok.2 ⟨hlen, rfl⟩).symm.trans h
    · cases (decode_eq_malformed hlen).symm.trans h

end Path

namespace Sample

/-- There and back, with the largest fee, an action without a name, and a mode byte that is no mode. -/
def oddPath : Path :=
  ⟨[⟨.ofNat 10, 0xffffff, 255, 77, by decide⟩, ⟨.ofNat 11, 500, 0, 0, by decide⟩], .ofNat 10, some 0x0c⟩

end Sample

/-- `Path.codec_bijective` at a path of two hops, at forty-six zero bytes, and at the encoding of the path without its first two
bytes. -/
theorem Path.codec_bijective_odd :
    Path.decode Sample.oddPath.encode = .ok Sample.oddPath ∧ Sample.oddPath.encode.length = 71 ∧
      (∃ p, Path.decode (List.replicate 46 0) = .ok p ∧ p.encode = List.replicate 46 0) ∧
      Path.decode (Sample.oddPath.encode.drop 2) = .error (.malformed 69) := by
  obtain ⟨hpath, hreads, hwrites, hrefuses, -, -⟩ := Path.codec_bijective
  obtain ⟨-, hread, hlen⟩ := hpath Sample.oddPath
  have hshort : (Sample.oddPath.encode.drop 2).length = 69 := by
    rw [List.length_drop, hlen]
    rfl
  refine ⟨hread, hlen, ?_, ?_⟩
  · obtain ⟨p, hp⟩ := (hreads (List.replicate 46 0)).2 ⟨1, .inr (List.length_replicate ..)⟩
    exact ⟨p, hp, hwrites _ p hp⟩
  · rw [← hshort]
    refine hrefuses _ ?_
    rintro ⟨k, hk⟩
    omega

end MarginRouter
