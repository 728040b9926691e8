import ModuleGraph.Text.Quoting

/-! Reading bytes as UTF-8. Bytes that are no character are cut into the longest pieces that
begin one, and each piece is a fault of its own. -/

namespace ModuleGraph.Utf8

inductive Cause where
  | invalidStart
  | invalidContinuation
  | unexpectedEnd
  deriving DecidableEq, Repr

def Cause.message : Cause → String
  | invalidStart => "invalid start byte"
  | invalidContinuation => "invalid continuation byte"
  | unexpectedEnd => "unexpected end of data"

/-- A character, or bytes that are none. -/
inductive Piece where
  | char (c : Char)
  | fault (cause : Cause) (bytes : List UInt8)
  deriving DecidableEq, Repr

def Piece.size : Piece → Nat
  | char c => c.utf8Size
  | fault _ bytes => bytes.length

/-- Where a reader stands: between characters, or behind the bytes `seen` of one. Then
`owed` more bytes are due, the next one from `low` to `high`, and `value` holds the bits so
far. -/
inductive State where
  | ready
  | within (seen : List UInt8) (owed value low high : Nat)
  deriving Repr

def start (b : UInt8) : List Piece × State :=
  let n := b.toNat
  if n < 0x80 then ([.char (Char.ofNat n)], .ready)
  else if n < 0xC2 then ([.fault .invalidStart [b]], .ready)
  else if n < 0xE0 then ([], .within [b] 1 (n - 0xC0) 0x80 0xBF)
  else if n = 0xE0 then ([], .within [b] 2 0 0xA0 0xBF)
  else if n = 0xED then ([], .within [b] 2 0xD 0x80 0x9F)
  else if n < 0xF0 then ([], .within [b] 2 (n - 0xE0) 0x80 0xBF)
  else if n = 0xF0 then ([], .within [b] 3 0 0x90 0xBF)
  else if n < 0xF4 then ([], .within [b] 3 (n - 0xF0) 0x80 0xBF)
  else if n = 0xF4 then ([], .within [b] 3 4 0x80 0x8F)
  else ([.fault .invalidStart [b]], .ready)

/-- What the next byte leads to. A byte that does not continue a character ends it, and is
read again as the first byte of the next. -/
def feed (b : UInt8) : State → List Piece × State
  | .ready => start b
  | .within seen owed value low high =>
    if low ≤ b.toNat ∧ b.toNat ≤ high then
      let value := value * 64 + (b.toNat - 0x80)
      if owed ≤ 1 then ([.char (Char.ofNat value)], .ready)
      else ([], .within (seen ++ [b]) (owed - 1) value 0x80 0xBF)
    else
      let (pieces, state) := start b
      (.fault .invalidContinuation seen :: pieces, state)

def piecesFrom : State → List UInt8 → List Piece
  | .ready, [] => []
  | .within seen .., [] => [.fault .unexpectedEnd seen]
  | state, b :: bytes =>
    let (pieces, state) := feed b state
    pieces ++ piecesFrom state bytes

def pieces (bytes : List UInt8) : List Piece :=
  piecesFrom .ready bytes

def replacement : Char := '\ufffd'

/-- Reads bytes with one replacement character for every fault. -/
def decodeLossy (bytes : List UInt8) : List Char :=
  (pieces bytes).map fun
    | .char c => c
    | .fault _ _ => replacement

structure Fault where
  cause : Cause
  bytes : List UInt8
  offset : Nat
  deriving DecidableEq, Repr

def Fault.message (f : Fault) : String :=
  let found :=
    match f.bytes with
    | [b] =>
      let digits := String.ofList (hexDigits 2 b.toNat)
      s!"byte 0x{digits} in position {f.offset}"
    | bytes => s!"bytes in position {f.offset}-{f.offset + bytes.length - 1}"
  s!"'utf-8' codec can't decode {found}: {f.cause.message}"

def charactersFrom (offset : Nat) : List Piece → Except Fault (List Char)
  | [] => .ok []
  | .fault cause bytes :: _ => .error ⟨cause, bytes, offset⟩
  | .char c :: rest => (c :: ·) <$> charactersFrom (offset + c.utf8Size) rest

def decode (bytes : List UInt8) : Except Fault (List Char) :=
  charactersFrom 0 (pieces bytes)

def encode (text : String) : List UInt8 :=
  text.toUTF8.toList

end ModuleGraph.Utf8
