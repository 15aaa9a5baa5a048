/-!
# Text on disk

The octets of a file as text: UTF-8, in which a stretch that is no character becomes either a
replacement character or a refusal, and line ends that are read as line feeds.
-/

namespace CommentIndex.Text

/-- What a stretch of octets stands for. -/
inductive Piece where
  /-- A character. -/
  | char (c : Char)
  /-- A start of a character that is not continued, or an octet that starts none. -/
  | malformed
deriving DecidableEq

/-- The octets that may follow a lead octet, place by place; `none` for an octet that leads
nothing. -/
def continuation (lead : UInt8) : Option (List (UInt8 × UInt8)) :=
  if lead < 0x80 then some []
  else if 0xC2 ≤ lead ∧ lead ≤ 0xDF then some [(0x80, 0xBF)]
  else if lead = 0xE0 then some [(0xA0, 0xBF), (0x80, 0xBF)]
  else if lead = 0xED then some [(0x80, 0x9F), (0x80, 0xBF)]
  else if 0xE1 ≤ lead ∧ lead ≤ 0xEF then some [(0x80, 0xBF), (0x80, 0xBF)]
  else if lead = 0xF0 then some [(0x90, 0xBF), (0x80, 0xBF), (0x80, 0xBF)]
  else if 0xF1 ≤ lead ∧ lead ≤ 0xF3 then some [(0x80, 0xBF), (0x80, 0xBF), (0x80, 0xBF)]
  else if lead = 0xF4 then some [(0x80, 0x8F), (0x80, 0xBF), (0x80, 0xBF)]
  else none

/-- How many of the expected octets do follow. -/
def followed : List (UInt8 × UInt8) → List UInt8 → Nat
  | (low, high) :: expected, octet :: octets =>
    if low ≤ octet ∧ octet ≤ high then followed expected octets + 1 else 0
  | _, _ => 0

/-- The value bits of a lead octet with `tails` octets behind it. -/
def leadBits (lead : UInt8) (tails : Nat) : Nat :=
  match tails with
  | 0 => lead.toNat
  | 1 => lead.toNat % 32
  | 2 => lead.toNat % 16
  | _ => lead.toNat % 8

/-- The piece that starts with `lead`, and the number of octets behind it that belong to it. -/
def pieceAt (lead : UInt8) (rest : List UInt8) : Piece × Nat :=
  match continuation lead with
  | none => (.malformed, 0)
  | some expected =>
    let met := followed expected rest
    if met = expected.length then
      let code := (rest.take met).foldl (fun value octet => 64 * value + octet.toNat % 64)
        (leadBits lead met)
      (.char (Char.ofNat code), met)
    else (.malformed, met)

/-- The pieces of the octets behind the first `skip` ones. -/
def piecesFrom (skip : Nat) : List UInt8 → List Piece
  | [] => []
  | lead :: rest =>
    match skip with
    | skip + 1 => piecesFrom skip rest
    | 0 =>
      let (piece, tails) := pieceAt lead rest
      piece :: piecesFrom tails rest

/-- The text that octets encode, each malformed stretch read as U+FFFD. -/
def decodeReplacing (octets : List UInt8) : List Char :=
  (piecesFrom 0 octets).map fun piece =>
    match piece with
    | .char c => c
    | .malformed => Char.ofNat 0xFFFD

/-- The text that octets encode, if none of them is malformed. -/
def decode? (octets : List UInt8) : Option (List Char) :=
  (piecesFrom 0 octets).mapM fun piece =>
    match piece with
    | .char c => some c
    | .malformed => none

/-- The text with every line end written as a line feed. -/
def withLineFeeds : List Char → List Char
  | [] => []
  | '\r' :: '\n' :: rest => '\n' :: withLineFeeds rest
  | c :: rest => (if c = '\r' then '\n' else c) :: withLineFeeds rest

/-- The octets that encode a text. -/
def encode (text : String) : List UInt8 :=
  text.toUTF8.toList

end CommentIndex.Text
