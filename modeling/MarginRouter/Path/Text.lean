import MarginRouter.Path.Codec
import MarginRouter.Text.Parts

/-!
# Paths as text

The hexadecimal text of an encoded path, and the line in which a path is shown to people.
-/

namespace MarginRouter.Path

/-- The encoded path in lower-case digits. -/
def toHex (p : Path) : String :=
  Hex.text p.encode

/-- Reads the text of an encoded path; blanks around it and one marker before it do not count. -/
def ofHex (cs : List Char) : Except PathError Path :=
  match Hex.decode (Hex.stripMarker (Text.trim cs)) with
  | .error fault => .error (.notHex fault)
  | .ok bytes => decode bytes

/-- The name of an action, or its number if it has no name. -/
def actionText (code : UInt8) : String :=
  match Action.ofCode? code with
  | some a => a.name
  | none => "action#" ++ toString code

/-- One line with every token, fee, provider and action. -/
def display (p : Path) : String :=
  let hop (h : Hop) : String :=
    toString h.token ++ " -[fee=" ++ toString h.fee ++ " provider=" ++ toString h.provider ++ " " ++ actionText h.code ++
      "]-> "
  let mode :=
    match p.modeByte with
    | none => ""
    | some byte => " (mode=" ++ Hex.text [byte] ++ ")"
  String.join (p.hops.map hop) ++ toString p.finalToken ++ mode

end MarginRouter.Path
