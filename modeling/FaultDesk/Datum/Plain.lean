import FaultDesk.Datum.Shown

/-!
Values in the form of a plain document: null, truths, numbers, texts, lists and mappings with text
keys. Times, decimals and octets become texts, sets become lists.
-/

namespace FaultDesk

namespace Stamp

/-- The stamp with `Z` for UTC. -/
def textZ (s : Stamp) : String :=
  if s.offset = some 0 then { s with offset := none }.text ++ "Z" else s.text

end Stamp

/-- The text that octets in a value stand for. -/
def octetsText (bs : List UInt8) : Except Failure String :=
  match Utf8.decode bs with
  | .ok s => .ok s
  | .error f => .error (.hiddenOctets (bs.getD f.position 0).toNat f.position)

/-- The entries with one added; an entry of the same key is replaced where it stands. -/
def withEntry (es : List (Datum × Datum)) (key : String) (v : Datum) : List (Datum × Datum) :=
  match es with
  | [] => [(.text key, v)]
  | (.text k, w) :: rest =>
    if k = key then (.text key, v) :: rest else (.text k, w) :: withEntry rest key v
  | e :: rest => e :: withEntry rest key v

namespace Datum

/-- The text of a key. -/
def plainKey : Datum → Except Failure String
  | .text s => .ok s
  | .truth b => .ok (if b then "true" else "false")
  | .bytes bs => octetsText bs
  | .stamp s => .ok s.textZ
  | d => d.written

mutual

def plain : Datum → Except Failure Datum
  | .decimal d => .ok (.text d.text)
  | .bytes bs => (octetsText bs).map .text
  | .date d => .ok (.text d.text)
  | .stamp s => .ok (.text s.textZ)
  | .list xs => (plainItems xs).map .list
  | .tuple xs => (plainItems xs).map .list
  | .set xs => (plainItems xs).map .list
  | .mapping es => (plainEntries [] es).map .mapping
  | d => .ok d

def plainItems : List Datum → Except Failure (List Datum)
  | [] => .ok []
  | x :: xs => do
    let y ← plain x
    let ys ← plainItems xs
    return y :: ys

def plainEntries (done : List (Datum × Datum)) :
    List (Datum × Datum) → Except Failure (List (Datum × Datum))
  | [] => .ok done
  | (k, v) :: es => do
    let key ← k.plainKey
    let v ← plain v
    plainEntries (withEntry done key v) es

end

end Datum

end FaultDesk
