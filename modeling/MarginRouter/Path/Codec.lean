import MarginRouter.Path.Basic

/-!
# Encoded paths

A path is written as its hops, twenty-five bytes each (token, fee, provider, action), then the twenty bytes of the final
token, then the mode byte if there is one. The length alone says where everything is.
-/

namespace MarginRouter

/-- The bytes one hop takes. -/
def Hop.width : Nat := 25

/-- The bytes of one hop. -/
def Hop.encode (h : Hop) : List UInt8 :=
  h.token.toBytes ++ (BigEndian.encode 3 h.fee ++ [h.provider, h.code])

/-- The hop in the first twenty-five bytes. -/
def Hop.decode (bytes : List UInt8) : Hop where
  token := .ofBytes bytes
  fee := BigEndian.decode ((bytes.drop 20).take 3)
  provider := bytes.getD 23 0
  code := bytes.getD 24 0
  fee_lt := BigEndian.decode_take_lt 3 _

namespace Path

def encode (p : Path) : List UInt8 :=
  p.hops.flatMap Hop.encode ++ (p.finalToken.toBytes ++ p.modeByte.toList)

def encodedLength (p : Path) : Nat :=
  p.hops.length * Hop.width + 20 + p.modeByte.toList.length

/-- Reads `count` hops, then the final token, then the mode byte if a byte is left. -/
def decodeHops : Nat → List UInt8 → Path
  | 0, bytes => ⟨[], .ofBytes bytes, bytes[20]?⟩
  | count + 1, bytes =>
    let rest := decodeHops count (bytes.drop Hop.width)
    { rest with hops := .decode (bytes.take Hop.width) :: rest.hops }

/-- Reads a path. Only the length can be wrong. -/
def decode (bytes : List UInt8) : Except PathError Path :=
  let length := bytes.length
  if 20 ≤ length ∧ (length - 20) % Hop.width ≤ 1 then .ok (decodeHops ((length - 20) / Hop.width) bytes)
  else .error (.malformed length)

end Path

end MarginRouter
