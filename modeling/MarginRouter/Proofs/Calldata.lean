import MarginRouter.Proofs.Codec
import MarginRouter.Registry.Calldata

/-!
# The codecs of call data

A call is written as its operation identifier and its arguments, and reading undoes writing. The length of the arguments alone
decides whether they can be read, and what has been read is written as it stood there. So a call is a trade with these arguments
exactly when it is their written form, and no two trades share their call data.
-/

namespace MarginRouter

variable {op op' : OperationId} {bytes calldata : List UInt8}

namespace TradeArgs

variable {args args' : TradeArgs}

/-! ## Trades -/

/-- Arguments are read exactly when they hold two words and the encoding of a path. -/
theorem decode_eq_ok : decode op bytes = .ok args ↔
    64 ≤ bytes.length ∧ Path.decode (bytes.drop 64) = .ok args.path ∧ .ofBytes bytes = args.amount ∧
      .ofBytes (bytes.drop 32) = args.limit := by
  obtain ⟨amount, limit, path⟩ := args
  unfold decode
  by_cases hlen : bytes.length < 64
  · rw [if_pos hlen]
    constructor
    · intro h
      cases h
    · intro h
      exact absurd h.1 (Nat.not_le_of_lt hlen)
  · rw [if_neg hlen]
    have hle : 64 ≤ bytes.length := Nat.le_of_not_lt hlen
    cases Path.decode (bytes.drop 64) with
    | error e => simp
    | ok p => simp [hle, and_assoc, and_comm (a := p = path)]

/-- The arguments that follow the identifier. -/
theorem drop_encode (args : TradeArgs) (op : OperationId) :
    (args.encode op).drop 4 = args.amount.toBytes ++ (args.limit.toBytes ++ args.path.encode) :=
  List.drop_left' op.length_toBytes

/-- Reading the arguments of a trade undoes writing them. -/
theorem decode_encode (args : TradeArgs) (op : OperationId) : decode op ((args.encode op).drop 4) = .ok args := by
  have hlimit : ((args.encode op).drop 4).drop 32 = args.limit.toBytes ++ args.path.encode := by
    rw [drop_encode]
    exact List.drop_left' args.amount.length_toBytes
  have hpath : ((args.encode op).drop 4).drop 64 = args.path.encode := by
    have hsplit : ((args.encode op).drop 4).drop 64 = (((args.encode op).drop 4).drop 32).drop 32 := by
      rw [List.drop_drop (i := 32)]
    rw [hsplit, hlimit]
    exact List.drop_left' args.limit.length_toBytes
  refine decode_eq_ok.2 ⟨?_, ?_, ?_, ?_⟩
  · rw [drop_encode, List.length_append, List.length_append, Amount.length_toBytes, Amount.length_toBytes]
    omega
  · rw [hpath, Path.decode_encode]
  · rw [drop_encode, Amount.ofBytes_append]
  · rw [hlimit, Amount.ofBytes_append]

/-- What has been read is written as it stood there. -/
theorem encode_of_decode (h : decode op bytes = .ok args) : args.encode op = op.toBytes ++ bytes := by
  obtain ⟨hlen, hpath, hamount, hlimit⟩ := decode_eq_ok.1 h
  have hfirst : args.amount.toBytes = bytes.take 32 := by
    rw [← hamount, Amount.toBytes_ofBytes (by omega)]
  have hsecond : args.limit.toBytes = (bytes.drop 32).take 32 := by
    rw [← hlimit, Amount.toBytes_ofBytes (by rw [List.length_drop]; omega)]
  have hrest : args.path.encode = (bytes.drop 32).drop 32 := by
    rw [Path.encode_of_decode hpath, List.drop_drop]
  rw [encode, hfirst, hsecond, hrest, List.take_append_drop, List.take_append_drop]

/-- The length alone decides whether arguments can be read. -/
theorem exists_decode_iff : (∃ args, decode op bytes = .ok args) ↔
    ∃ k, bytes.length = 64 + (20 + 25 * k) ∨ bytes.length = 64 + (21 + 25 * k) := by
  constructor
  · rintro ⟨args, h⟩
    obtain ⟨hlen, hpath, -, -⟩ := decode_eq_ok.1 h
    obtain ⟨⟨k, hk⟩, -⟩ := Path.decode_eq_ok.1 hpath
    rw [List.length_drop] at hk
    exact ⟨k, by omega⟩
  · rintro ⟨k, hk⟩
    have hdrop : (bytes.drop 64).length = 20 + 25 * k ∨ (bytes.drop 64).length = 21 + 25 * k := by
      rw [List.length_drop]
      omega
    exact ⟨⟨_, _, _⟩, decode_eq_ok.2 ⟨by omega, Path.decode_eq_ok.2 ⟨⟨k, hdrop⟩, rfl⟩, rfl, rfl⟩⟩

theorem decode_eq_missingNumbers (h : bytes.length < 64) :
    decode op bytes = .error (.malformedArguments op .missingNumbers) := by
  unfold decode
  exact if_pos h

/-- Behind the two words, what cannot be read is reported by the path, with the length of what is left for it. -/
theorem decode_eq_malformed (hlen : 64 ≤ bytes.length)
    (h : ¬∃ k, bytes.length = 64 + (20 + 25 * k) ∨ bytes.length = 64 + (21 + 25 * k)) :
    decode op bytes = .error (.engine (.path (.malformed (bytes.length - 64)))) := by
  have hpath : Path.decode (bytes.drop 64) = .error (.malformed (bytes.length - 64)) := by
    rw [← List.length_drop]
    refine Path.decode_eq_malformed ?_
    rintro ⟨k, hk⟩
    rw [List.length_drop] at hk
    exact h ⟨k, by omega⟩
  unfold decode
  rw [if_neg (Nat.not_lt_of_le hlen), hpath]

theorem ofCalldata?_encode (args : TradeArgs) (op : OperationId) : OperationId.ofCalldata? (args.encode op) = some op :=
  op.ofCalldata?_append _

/-- A call is a trade with these arguments exactly when it is their written form. -/
theorem read_iff_encode :
    OperationId.ofCalldata? calldata = some op ∧ decode op (calldata.drop 4) = .ok args ↔ calldata = args.encode op := by
  constructor
  · rintro ⟨hop, hargs⟩
    rw [encode_of_decode hargs]
    exact OperationId.ofCalldata?_eq_some.1 hop
  · intro h
    rw [h]
    exact ⟨ofCalldata?_encode args op, decode_encode args op⟩

/-- Different trades have different call data. -/
theorem encode_inj (h : args.encode op = args'.encode op') : op = op' ∧ args = args' := by
  obtain ⟨hop, hargs⟩ := read_iff_encode.2 h
  rw [ofCalldata?_encode] at hop
  obtain rfl := Option.some.inj hop
  rw [decode_encode] at hargs
  exact ⟨rfl, Except.ok.inj hargs⟩

end TradeArgs

namespace QueryArgs

variable {args : QueryArgs} {withLender : Bool}

/-! ## Queries -/

/-- Arguments are read exactly when they hold two addresses, and the number of a lender where there is one. -/
theorem decode_eq_ok : decode op withLender bytes = .ok args ↔
    bytes.length = (if withLender then 41 else 40) ∧ .ofBytes bytes = args.token ∧ .ofBytes (bytes.drop 20) = args.holder ∧
      bytes[40]? = args.lender := by
  obtain ⟨token, holder, lender⟩ := args
  unfold decode
  by_cases hlen : bytes.length = if withLender then 41 else 40
  · simp [hlen]
  · simp [hlen]

theorem drop_encode (args : QueryArgs) (op : OperationId) :
    (args.encode op).drop 4 = args.token.toBytes ++ (args.holder.toBytes ++ args.lender.toList) :=
  List.drop_left' op.length_toBytes

/-- The byte behind the two addresses is the number of the lender. -/
theorem getElem?_lender (token holder : Address) (lender : Option UInt8) :
    (token.toBytes ++ (holder.toBytes ++ lender.toList))[40]? = lender := by
  have hbehind : (token.toBytes ++ (holder.toBytes ++ lender.toList))[40]? = (holder.toBytes ++ lender.toList)[20]? := by
    rw [List.getElem?_append_right (by simp), Address.length_toBytes]
  rw [hbehind, Path.getElem?_mode]

/-- Reading the arguments of a query undoes writing them. -/
theorem decode_encode (args : QueryArgs) (op : OperationId) :
    decode op args.lender.isSome ((args.encode op).drop 4) = .ok args := by
  rw [drop_encode]
  refine decode_eq_ok.2 ⟨?_, ?_, ?_, ?_⟩
  · rw [List.length_append, List.length_append, Address.length_toBytes, Address.length_toBytes]
    cases args.lender with
    | none => rfl
    | some lender => rfl
  · rw [Address.ofBytes_append]
  · rw [List.drop_left' (Address.length_toBytes _), Address.ofBytes_append]
  · exact getElem?_lender _ _ _

/-- What has been read is written as it stood there, with a lender if and only if one was to be read. -/
theorem encode_of_decode (h : decode op withLender bytes = .ok args) :
    args.lender.isSome = withLender ∧ args.encode op = op.toBytes ++ bytes := by
  obtain ⟨hlen, htoken, hholder, hlender⟩ := decode_eq_ok.1 h
  have hmin : 40 ≤ bytes.length := by
    rw [hlen]
    split <;> omega
  have hfirst : args.token.toBytes = bytes.take 20 := by
    rw [← htoken, Address.toBytes_ofBytes (by omega)]
  have hsecond : args.holder.toBytes = (bytes.drop 20).take 20 := by
    rw [← hholder, Address.toBytes_ofBytes (by rw [List.length_drop]; omega)]
  have hlast : args.lender.isSome = withLender ∧ args.lender.toList = (bytes.drop 20).drop 20 := by
    rw [← hlender, List.drop_drop]
    cases withLender with
    | false =>
      have hshort : bytes.length = 40 := hlen
      rw [List.getElem?_eq_none (Nat.le_of_eq hshort), List.drop_of_length_le (Nat.le_of_eq hshort)]
      exact ⟨rfl, rfl⟩
    | true =>
      have hlong : bytes.length = 41 := hlen
      rw [List.getElem?_eq_getElem (by omega), List.drop_eq_getElem_cons (by omega), List.drop_of_length_le (by omega)]
      exact ⟨rfl, rfl⟩
  refine ⟨hlast.1, ?_⟩
  rw [encode, hfirst, hsecond, hlast.2, List.take_append_drop, List.take_append_drop]

theorem exists_decode_iff :
    (∃ args, decode op withLender bytes = .ok args) ↔ bytes.length = if withLender then 41 else 40 := by
  constructor
  · rintro ⟨args, h⟩
    exact (decode_eq_ok.1 h).1
  · intro hlen
    exact ⟨⟨_, _, _⟩, decode_eq_ok.2 ⟨hlen, rfl, rfl, rfl⟩⟩

theorem decode_eq_queryLength (h : bytes.length ≠ if withLender then 41 else 40) :
    decode op withLender bytes = .error (.malformedArguments op .queryLength) := by
  unfold decode
  exact if_neg h

theorem ofCalldata?_encode (args : QueryArgs) (op : OperationId) : OperationId.ofCalldata? (args.encode op) = some op :=
  op.ofCalldata?_append _

end QueryArgs

/-- The codecs of call data are exact. A trade reads back from its call data, and a call is read as a trade exactly when it is the
written form of what is read, byte for byte. Its arguments are read exactly when they have 64 bytes and the length of a path;
with less than 64 bytes the numbers are missing, and at any other length the path is reported malformed with the length that is
left for it. A query reads back as well, its arguments are read exactly when they have 40 bytes, or 41 with the number of a
lender, and they are written as they stood there. So no two trades share their call data. -/
theorem calldata_exact :
    (∀ (op : OperationId) (args : TradeArgs), OperationId.ofCalldata? (args.encode op) = some op ∧
      TradeArgs.decode op ((args.encode op).drop 4) = .ok args) ∧
    (∀ op (bytes : List UInt8), (∃ args, TradeArgs.decode op bytes = .ok args) ↔
      ∃ k, bytes.length = 64 + (20 + 25 * k) ∨ bytes.length = 64 + (21 + 25 * k)) ∧
    (∀ op (bytes : List UInt8), bytes.length < 64 →
      TradeArgs.decode op bytes = .error (.malformedArguments op .missingNumbers)) ∧
    (∀ op (bytes : List UInt8), 64 ≤ bytes.length →
      (¬∃ k, bytes.length = 64 + (20 + 25 * k) ∨ bytes.length = 64 + (21 + 25 * k)) →
      TradeArgs.decode op bytes = .error (.engine (.path (.malformed (bytes.length - 64))))) ∧
    (∀ op bytes args, TradeArgs.decode op bytes = .ok args → args.encode op = op.toBytes ++ bytes) ∧
    (∀ calldata op args, OperationId.ofCalldata? calldata = some op ∧ TradeArgs.decode op (calldata.drop 4) = .ok args ↔
      calldata = args.encode op) ∧
    (∀ (op : OperationId) (args : QueryArgs), OperationId.ofCalldata? (args.encode op) = some op ∧
      QueryArgs.decode op args.lender.isSome ((args.encode op).drop 4) = .ok args) ∧
    (∀ op withLender (bytes : List UInt8), (∃ args, QueryArgs.decode op withLender bytes = .ok args) ↔
      bytes.length = if withLender then 41 else 40) ∧
    (∀ op withLender (bytes : List UInt8), (bytes.length ≠ if withLender then 41 else 40) →
      QueryArgs.decode op withLender bytes = .error (.malformedArguments op .queryLength)) ∧
    (∀ op withLender bytes args, QueryArgs.decode op withLender bytes = .ok args →
      args.lender.isSome = withLender ∧ args.encode op = op.toBytes ++ bytes) ∧
    ∀ (op op' : OperationId) (args args' : TradeArgs), args.encode op = args'.encode op' → op = op' ∧ args = args' := by
  refine ⟨?_, ?_, ?_, ?_, ?_, ?_, ?_, ?_, ?_, ?_, ?_⟩
  · intro op args
    exact ⟨args.ofCalldata?_encode op, args.decode_encode op⟩
  · intro op bytes
    exact TradeArgs.exists_decode_iff
  · intro op bytes hlen
    exact TradeArgs.decode_eq_missingNumbers hlen
  · intro op bytes hlen hk
    exact TradeArgs.decode_eq_malformed hlen hk
  · intro op bytes args h
    exact TradeArgs.encode_of_decode h
  · intro calldata op args
    exact TradeArgs.read_iff_encode
  · intro op args
    exact ⟨args.ofCalldata?_encode op, args.decode_encode op⟩
  · intro op withLender bytes
    exact QueryArgs.exists_decode_iff
  · intro op withLender bytes hlen
    exact QueryArgs.decode_eq_queryLength hlen
  · intro op withLender bytes args h
    exact QueryArgs.encode_of_decode h
  · intro op op' args args' h
    exact TradeArgs.encode_inj h

namespace Sample

def oddOperation : OperationId := ⟨0x0a0b0c0d, by decide⟩

/-- The largest limit, over the path of two hops. -/
def oddTrade : TradeArgs :=
  ⟨.ofWord 50, .max, oddPath⟩

end Sample

/-- `calldata_exact` at a trade of two hops, which is not the same without its limit; at 63, 83 and 84 zero bytes read as the
arguments of a trade; and at 41 zero bytes read as those of a query without a lender and with one. -/
theorem calldata_exact_odd :
    TradeArgs.decode Sample.oddOperation ((Sample.oddTrade.encode Sample.oddOperation).drop 4) = .ok Sample.oddTrade ∧
    Sample.oddTrade.encode Sample.oddOperation ≠ { Sample.oddTrade with limit := 0 }.encode Sample.oddOperation ∧
    TradeArgs.decode Sample.oddOperation (List.replicate 63 0) =
      .error (.malformedArguments Sample.oddOperation .missingNumbers) ∧
    TradeArgs.decode Sample.oddOperation (List.replicate 83 0) = .error (.engine (.path (.malformed 19))) ∧
    (∃ args, TradeArgs.decode Sample.oddOperation (List.replicate 84 0) = .ok args ∧
      args.encode Sample.oddOperation = Sample.oddOperation.toBytes ++ List.replicate 84 0) ∧
    QueryArgs.decode Sample.oddOperation false (List.replicate 41 0) =
      .error (.malformedArguments Sample.oddOperation .queryLength) ∧
    ∃ args, QueryArgs.decode Sample.oddOperation true (List.replicate 41 0) = .ok args ∧ args.lender.isSome = true ∧
      args.encode Sample.oddOperation = Sample.oddOperation.toBytes ++ List.replicate 41 0 := by
  obtain ⟨htrade, hreads, hshort, hmalformed, hwrites, -, -, hqueries, hlength, hquery, hinj⟩ := calldata_exact
  have h63 : (List.replicate 63 (0 : UInt8)).length = 63 := List.length_replicate
  have h83 : (List.replicate 83 (0 : UInt8)).length = 83 := List.length_replicate
  have h84 : (List.replicate 84 (0 : UInt8)).length = 84 := List.length_replicate
  have h41 : (List.replicate 41 (0 : UInt8)).length = 41 := List.length_replicate
  refine ⟨(htrade _ _).2, ?_, hshort _ _ (by omega), ?_, ?_, hlength _ _ _ (by simp), ?_⟩
  · intro h
    have hlimit := congrArg TradeArgs.limit (hinj _ _ _ _ h).2
    exact absurd hlimit (by decide)
  · have hleft := hmalformed Sample.oddOperation (List.replicate 83 0) (by omega) (by rintro ⟨k, hk⟩; omega)
    rw [h83] at hleft
    exact hleft
  · obtain ⟨args, hargs⟩ := (hreads Sample.oddOperation (List.replicate 84 0)).2 ⟨0, .inl h84⟩
    exact ⟨args, hargs, hwrites _ _ _ hargs⟩
  · obtain ⟨args, hargs⟩ := (hqueries Sample.oddOperation true (List.replicate 41 0)).2 h41
    exact ⟨args, hargs, hquery _ _ _ _ hargs⟩

end MarginRouter
