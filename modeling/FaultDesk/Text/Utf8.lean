/-!
UTF-8. Reading octets stops at the first that are no text and says which ones, and why.
-/

namespace FaultDesk

/-- Why octets are no text. -/
inductive Utf8Reason where
  | start
  | continuation
  | endOfData
deriving DecidableEq, Repr

namespace Utf8Reason

def message : Utf8Reason → String
  | start => "invalid start byte"
  | continuation => "invalid continuation byte"
  | endOfData => "unexpected end of data"

end Utf8Reason

/-- The octets that are no text: where they start, what they are, and why. -/
structure Utf8Fault where
  position : Nat
  octets : List UInt8
  reason : Utf8Reason
  /-- Whether nothing but the end of the octets stands against them. -/
  cutOff : Bool
deriving DecidableEq, Repr

namespace Utf8

def isTail (b : UInt8) : Bool := decide (0x80 ≤ b ∧ b ≤ 0xbf)

/-- The number of octets that follow a first one, and the bounds of the second. -/
def lead (b : UInt8) : Option (Nat × UInt8 × UInt8) :=
  if b < 0xc2 then none
  else if b < 0xe0 then some (1, 0x80, 0xbf)
  else if b < 0xf0 then some (2, if b = 0xe0 then 0xa0 else 0x80, if b = 0xed then 0x9f else 0xbf)
  else if b < 0xf5 then some (3, if b = 0xf0 then 0x90 else 0x80, if b = 0xf4 then 0x8f else 0xbf)
  else none

/-- The octets among those that follow which are as they should be, from the second on. -/
def goodTail (low high : UInt8) : List UInt8 → List UInt8
  | [] => []
  | c :: rest => if low ≤ c ∧ c ≤ high then c :: rest.takeWhile isTail else []

/-- The code point of a first octet and those behind it. -/
def codePoint (first : UInt8) (tail : List UInt8) : Nat :=
  let top := match tail.length with
    | 1 => first.toNat % 32
    | 2 => first.toNat % 16
    | _ => first.toNat % 8
  tail.foldl (fun v b => v * 64 + b.toNat % 64) top

theorem length_drop_lt {α : Type} (a : α) (rest : List α) (n : Nat) :
    (rest.drop n).length < (a :: rest).length := by
  rw [List.length_drop, List.length_cons]
  omega

/-- Reads octets from a position on; `done` is what has been read, latest first. -/
def decodeFrom (position : Nat) (done : List Char) : List UInt8 → Except Utf8Fault (List Char)
  | [] => .ok done.reverse
  | b :: rest =>
    if b < 0x80 then decodeFrom (position + 1) (Char.ofNat b.toNat :: done) rest
    else
      match lead b with
      | none => .error ⟨position, [b], .start, false⟩
      | some (n, low, high) =>
        let tail := goodTail low high (rest.take n)
        if tail.length = n then
          decodeFrom (position + 1 + n) (Char.ofNat (codePoint b tail) :: done) (rest.drop n)
        else if tail.length = rest.length then .error ⟨position, b :: tail, .endOfData, true⟩
        else
          let surrogate := b = 0xed && rest.length = 1 && rest.all isTail
          .error ⟨position, b :: tail, .continuation, surrogate⟩
termination_by bs => bs.length
decreasing_by
  · exact Nat.lt_succ_self _
  · exact length_drop_lt b rest n

/-- Reads octets with a mark in the place of each run of octets that is no character. -/
def decodeMarked : List UInt8 → List Char
  | [] => []
  | b :: rest =>
    if b < 0x80 then Char.ofNat b.toNat :: decodeMarked rest
    else
      match lead b with
      | none => '\ufffd' :: decodeMarked rest
      | some (n, low, high) =>
        let tail := goodTail low high (rest.take n)
        if tail.length = n then Char.ofNat (codePoint b tail) :: decodeMarked (rest.drop n)
        else '\ufffd' :: decodeMarked (rest.drop tail.length)
termination_by bs => bs.length
decreasing_by
  · exact Nat.lt_succ_self _
  · exact Nat.lt_succ_self _
  · exact length_drop_lt b rest n
  · exact length_drop_lt b rest tail.length

/-- The text that octets stand for. -/
def decode (bs : List UInt8) : Except Utf8Fault String := (decodeFrom 0 [] bs).map String.ofList

/-- The same, for octets that come in pieces: those that are cut off at the end are counted anew. -/
def decodePieces (bs : List UInt8) : Except Utf8Fault String :=
  match decode bs with
  | .ok s => .ok s
  | .error f => .error (if f.cutOff then { f with position := 0 } else f)

end Utf8

end FaultDesk
